import Clt.Recovery.Snapshot

/-!
# Restoring a registry from its snapshot

Restoring the snapshot of a database succeeds, and what the new database holds is the snapshot
with its workers abandoned, its journals without owner and its controls replaced by recovery
requests (`restore_spec`). Snapshots and restores then repeat themselves
(`restore_and_snapshot`).
-/

namespace Clt

open Relational

/-- A list of rows that a table can hold. -/
abbrev Storable {ρ : Type} [Keyed ρ] (rows : List ρ) : Prop :=
  rows.Pairwise fun a b => Keyed.conflict a b = false

theorem refill_ok {ρ : Type} [Keyed ρ] {rows : List ρ} (h : Storable rows) :
    ∃ table, refill rows = .ok table ∧ table.rows = rows := by
  obtain ⟨table, hinsert, hrows⟩ :=
    Table.exists_insertAll? (show (Table.empty.rows ++ rows).Pairwise _ from h)
  exact ⟨table, by rw [refill, hinsert], hrows⟩

/-- Rewriting rows without new conflicts keeps them storable. -/
theorem Storable.map {ρ σ : Type} [Keyed ρ] [Keyed σ] {f : ρ → σ} {rows : List ρ}
    (h : Storable rows) (hf : ∀ a b, Keyed.conflict (f a) (f b) = true → Keyed.conflict a b = true) :
    Storable (rows.map f) := by
  refine List.pairwise_map.mpr (h.imp fun {a b} hab => ?_)
  by_contra hconflict
  rw [Bool.not_eq_false] at hconflict
  rw [hf a b hconflict] at hab
  cases hab

/-! ## Snapshots that a database can give -/

/-- The projects that the records of a snapshot name. -/
def RegistrySnapshot.references (s : RegistrySnapshot) : List Int :=
  s.agentWorkers.map (fun r => r.projectId) ++ s.sessionControls.map (fun r => r.projectId) ++
    s.gitLaunchStates.map (fun r => r.projectId) ++ s.gitFinalizations.map (fun r => r.projectId) ++
    (s.sessionGitModes.getD []).map (fun r => r.projectId) ++
    (s.supervisorReviews.getD []).map fun r => r.projectId

/-- The records of a snapshot keep the constraints of their tables, and no table is missing. -/
structure RegistrySnapshot.Sound (s : RegistrySnapshot) : Prop where
  projects : Storable (s.projects.map fun durable => (⟨durable, {}⟩ : RegisteredProject))
  modelProviders : Storable s.modelProviders
  modelTargets : Storable s.modelTargets
  agentSettings : Storable s.agentSettings
  agentWorkers : Storable s.agentWorkers
  sessionControls : Storable s.sessionControls
  gitLaunchStates : Storable s.gitLaunchStates
  gitFinalizations : Storable s.gitFinalizations
  sessionGitModes : ∃ modes, s.sessionGitModes = some modes ∧ Storable modes
  supervisorReviews : ∃ reviews, s.supervisorReviews = some reviews ∧ Storable reviews
  providers : ∀ r ∈ s.modelTargets, ∃ p ∈ s.modelProviders, p.providerId = r.providerId
  owners : ∀ id ∈ s.references, ∃ p ∈ s.projects, p.id = id

/-- The snapshot that a later restore of the database would read. -/
def snapshotOf (t : AgentTables) : Except String RegistrySnapshot :=
  readDatabaseSnapshot t >>= readSnapshot

/-- The snapshot of a database, with an empty list for a table that is not there yet. -/
def completeSnapshot (t : AgentTables) : RegistrySnapshot where
  version := if t.sessionGitModes.isNone then 1 else if t.supervisorReviews.isSome then 3 else 2
  projects := t.projects.rows.map RegisteredProject.durable
  modelProviders := t.modelProviders.rows
  modelTargets := t.modelTargets.rows
  agentSettings := t.agentSettings.rows
  agentWorkers := t.agentWorkers.rows.filter t.keepsWorker
  sessionControls := t.sessionControls.rows
  gitLaunchStates := t.gitLaunchStates.rows
  gitFinalizations := t.gitFinalizations.rows
  sessionGitModes := some ((t.sessionGitModes.map Table.rows).getD [])
  supervisorReviews := some ((t.supervisorReviews.map Table.rows).getD [])

theorem snapshotOf_eq (db : AgentDatabase) :
    snapshotOf db.tables = .ok (completeSnapshot db.tables) := by
  obtain ⟨t, -, hmigrated⟩ := db
  unfold snapshotOf readDatabaseSnapshot
  have hread : (t.sessionGitModes.isSome || !t.sessionModesMigrated) = true := by
    cases hm : t.sessionModesMigrated with
    | false => simp
    | true => simp [hmigrated hm]
  rw [if_pos hread]
  cases hmodes : t.sessionGitModes with
  | none =>
    cases hreviews : t.supervisorReviews <;>
      simp [readSnapshot, completeSnapshot, hmodes, hreviews, bind, Except.bind]
  | some modes =>
    cases hreviews : t.supervisorReviews <;>
      simp [readSnapshot, completeSnapshot, hmodes, hreviews, bind, Except.bind]

theorem hasProject_iff {t : AgentTables} {id : Int} :
    t.hasProject id = true ↔ ∃ p ∈ t.projects.rows.map RegisteredProject.durable, p.id = id := by
  simp [AgentTables.hasProject, Table.any]

theorem hasProvider_iff {t : AgentTables} {id : String} :
    t.hasProvider id = true ↔ ∃ p ∈ t.modelProviders.rows, p.providerId = id := by
  simp [AgentTables.hasProvider, Table.any]

theorem foreignKeysHold_iff {t : AgentTables} :
    t.foreignKeysHold = true ↔
      (∀ r ∈ t.modelTargets.rows, ∃ p ∈ t.modelProviders.rows, p.providerId = r.providerId) ∧
        ∀ id ∈ t.projectReferences, ∃ p ∈ t.projects.rows.map RegisteredProject.durable,
          p.id = id := by
  rw [AgentTables.foreignKeysHold, Bool.and_eq_true, List.all_eq_true, List.all_eq_true]
  simp only [hasProvider_iff, hasProject_iff]

/-- A worker that the snapshot leaves out names no project in it. -/
theorem references_subset (t : AgentTables) :
    (completeSnapshot t).references ⊆ t.projectReferences := by
  intro id hid
  simp only [RegistrySnapshot.references, completeSnapshot, List.mem_append, List.mem_map,
    List.mem_filter, Option.getD_some] at hid
  simp only [AgentTables.projectReferences, List.mem_append, List.mem_map]
  rcases hid with ((((⟨r, ⟨hr, -⟩, rfl⟩ | hid) | hid) | hid) | ⟨r, hr, rfl⟩) | ⟨r, hr, rfl⟩
  · exact .inl (.inl (.inl (.inl (.inl ⟨r, hr, rfl⟩))))
  · exact .inl (.inl (.inl (.inl (.inr hid))))
  · exact .inl (.inl (.inl (.inr hid)))
  · exact .inl (.inl (.inr hid))
  · cases hmodes : t.sessionGitModes with
    | none => simp [hmodes] at hr
    | some modes => exact .inl (.inr (by simpa [hmodes] using ⟨r, by simpa [hmodes] using hr, rfl⟩))
  · cases hreviews : t.supervisorReviews with
    | none => simp [hreviews] at hr
    | some reviews =>
      exact .inr (by simpa [hreviews] using ⟨r, by simpa [hreviews] using hr, rfl⟩)

theorem storable_getD {ρ : Type} [Keyed ρ] (t : Option (Table ρ)) :
    Storable ((t.map Table.rows).getD []) := by
  cases t with
  | none => exact List.Pairwise.nil
  | some table => exact table.unique

theorem sound_completeSnapshot (db : AgentDatabase) : (completeSnapshot db.tables).Sound := by
  obtain ⟨hproviders, howners⟩ := foreignKeysHold_iff.mp db.foreignKeys
  exact
    { projects := by
        show Storable ((db.tables.projects.rows.map RegisteredProject.durable).map _)
        rw [List.map_map]
        exact Storable.map db.tables.projects.unique fun a b h => h
      modelProviders := db.tables.modelProviders.unique
      modelTargets := db.tables.modelTargets.unique
      agentSettings := db.tables.agentSettings.unique
      agentWorkers := db.tables.agentWorkers.unique.filter _
      sessionControls := db.tables.sessionControls.unique
      gitLaunchStates := db.tables.gitLaunchStates.unique
      gitFinalizations := db.tables.gitFinalizations.unique
      sessionGitModes := ⟨_, rfl, storable_getD db.tables.sessionGitModes⟩
      supervisorReviews := ⟨_, rfl, storable_getD db.tables.supervisorReviews⟩
      providers := hproviders
      owners := fun id hid => howners id (references_subset db.tables hid) }

/-! ## What a restore leaves -/

/-- The controls of a restored database. -/
def restoredControls (now : String) (s : RegistrySnapshot) : List SessionControl :=
  (s.sessionControls.map restoredControl).filter
      (fun sc => !hasUnfinishedJournal s.gitFinalizations sc) ++
    ((s.gitFinalizations.map restoredJournal).filter fun g => g.state.resumes).map
      (resumeControl now)

/-- The tables of a database that was restored from a snapshot. -/
structure Restored (now : String) (s : RegistrySnapshot) (t : AgentTables) : Prop where
  projects : t.projects.rows = s.projects.map fun durable => (⟨durable, {}⟩ : RegisteredProject)
  modelProviders : t.modelProviders.rows = s.modelProviders
  modelTargets : t.modelTargets.rows = s.modelTargets
  agentSettings : t.agentSettings.rows = s.agentSettings
  agentWorkers : t.agentWorkers.rows = s.agentWorkers.map (restoredWorker now)
  sessionControls : t.sessionControls.rows = restoredControls now s
  gitLaunchStates : t.gitLaunchStates.rows = s.gitLaunchStates
  gitFinalizations : t.gitFinalizations.rows = s.gitFinalizations.map restoredJournal
  sessionGitModes : t.sessionGitModes.map Table.rows = s.sessionGitModes
  supervisorReviews : t.supervisorReviews.map Table.rows = s.supervisorReviews

theorem hasUnfinishedJournal_restored (journals : List GitFinalization) (sc : SessionControl) :
    hasUnfinishedJournal (journals.map restoredJournal) sc = hasUnfinishedJournal journals sc := by
  unfold hasUnfinishedJournal
  rw [List.any_map]
  rfl

theorem isUnfinished_of_resumes {state : GitFinalizationState} (h : state.resumes = true) :
    state.isUnfinished = true := by
  cases state <;> simp_all [GitFinalizationState.resumes, GitFinalizationState.isUnfinished]

/-- The kept controls and the recovery requests of the journals do not collide. -/
theorem storable_resumeControls (now : String) {controls : List SessionControl}
    {journals : List GitFinalization} (hcontrols : Storable controls)
    (hjournals : Storable journals) :
    Storable (controls.filter (fun sc => !hasUnfinishedJournal journals sc) ++
      (journals.filter fun g => g.state.resumes).map (resumeControl now)) := by
  refine List.pairwise_append.mpr ⟨hcontrols.filter _, ?_, ?_⟩
  · refine Storable.map (hjournals.filter _) fun a b h => ?_
    show (_ || _) = true
    rw [Bool.or_eq_true]
    exact .inl h
  · intro sc hsc control hcontrol
    obtain ⟨g, hg, rfl⟩ := List.mem_map.mp hcontrol
    obtain ⟨hmem, hresumes⟩ := List.mem_filter.mp hg
    have hkept := (List.mem_filter.mp hsc).2
    by_contra hconflict
    rw [Bool.not_eq_false] at hconflict
    -- A control with the keys of an unfinished journal was deleted.
    have hunfinished : hasUnfinishedJournal journals sc = true := by
      refine List.any_eq_true.mpr ⟨g, hmem, ?_⟩
      have hkeys : (sc.projectId == g.projectId && sc.codexSessionId == g.codexSessionId) = true :=
        hconflict
      rw [Bool.and_eq_true, beq_iff_eq, beq_iff_eq] at hkeys
      simp [GitFinalization.is, hkeys.1, hkeys.2, isUnfinished_of_resumes hresumes]
    rw [hunfinished] at hkept
    cases hkept

/-- Every reference of the restored tables was one of the snapshot. -/
theorem foreignKeys_restored {now : String} {s : RegistrySnapshot} {t : AgentTables}
    (h : s.Sound) (hprojects : t.projects.rows = s.projects.map fun durable => ⟨durable, {}⟩)
    (hproviders : t.modelProviders.rows = s.modelProviders)
    (htargets : t.modelTargets.rows = s.modelTargets)
    (hworkers : t.agentWorkers.rows = s.agentWorkers.map (restoredWorker now))
    (hcontrols : ∀ sc ∈ t.sessionControls.rows, sc.projectId ∈ s.references)
    (hlaunches : t.gitLaunchStates.rows = s.gitLaunchStates)
    (hjournals : t.gitFinalizations.rows = s.gitFinalizations.map restoredJournal)
    (hmodes : t.sessionGitModes.map Table.rows = s.sessionGitModes)
    (hreviews : t.supervisorReviews.map Table.rows = s.supervisorReviews) :
    t.foreignKeysHold = true := by
  refine foreignKeysHold_iff.mpr ⟨by rw [htargets, hproviders]; exact h.providers, ?_⟩
  have hdurable : t.projects.rows.map RegisteredProject.durable = s.projects := by
    rw [hprojects, List.map_map]
    exact List.map_id s.projects
  rw [hdurable]
  intro id hid
  refine h.owners id ?_
  simp only [AgentTables.projectReferences, List.mem_append] at hid
  simp only [RegistrySnapshot.references, List.mem_append]
  rcases hid with ((((hid | hid) | hid) | hid) | hid) | hid
  · rw [hworkers, List.map_map] at hid
    exact .inl (.inl (.inl (.inl (.inl hid))))
  · obtain ⟨sc, hsc, rfl⟩ := List.mem_map.mp hid
    simpa only [RegistrySnapshot.references, List.mem_append] using hcontrols sc hsc
  · rw [hlaunches] at hid
    exact .inl (.inl (.inl (.inr hid)))
  · rw [hjournals, List.map_map] at hid
    exact .inl (.inl (.inr hid))
  · rw [← hmodes]
    cases hm : t.sessionGitModes with
    | none => simp [hm] at hid
    | some modes =>
      rw [hm] at hid
      exact .inl (.inr hid)
  · rw [← hreviews]
    cases hr : t.supervisorReviews with
    | none => simp [hr] at hid
    | some reviews =>
      rw [hr] at hid
      exact .inr hid

theorem restore_spec (now : String) {s : RegistrySnapshot} (h : s.Sound) :
    ∃ db : AgentDatabase, restoreSnapshot now s = .ok db.tables ∧ Restored now s db.tables := by
  obtain ⟨modes, hmodes, hmodesOk⟩ := h.sessionGitModes
  obtain ⟨reviews, hreviews, hreviewsOk⟩ := h.supervisorReviews
  obtain ⟨projects, hp, hprojects⟩ := refill_ok h.projects
  obtain ⟨providers, hmp, hproviders⟩ := refill_ok h.modelProviders
  obtain ⟨targets, hmt, htargets⟩ := refill_ok h.modelTargets
  obtain ⟨settings, has, hsettings⟩ := refill_ok h.agentSettings
  obtain ⟨workers, haw, hworkers⟩ := refill_ok
    (h.agentWorkers.map (f := restoredWorker now) fun a b hab => by
      have habandoned : AgentWorkerState.abandoned.isActive = false := rfl
      simp only [Keyed.conflict, restoredWorker, habandoned, Bool.and_false, Bool.or_false] at hab
      simp only [Keyed.conflict, hab, Bool.true_or])
  have hcontrolsOk : Storable (s.sessionControls.map restoredControl) :=
    h.sessionControls.map fun a b hab => hab
  obtain ⟨controls, hsc, hcontrols⟩ := refill_ok hcontrolsOk
  obtain ⟨launches, hgl, hlaunches⟩ := refill_ok h.gitLaunchStates
  have hjournalsOk : Storable (s.gitFinalizations.map restoredJournal) :=
    h.gitFinalizations.map fun a b hab => hab
  obtain ⟨journals, hgf, hjournals⟩ := refill_ok hjournalsOk
  obtain ⟨modeTable, hmt', hmodeTable⟩ := refill_ok hmodesOk
  obtain ⟨reviewTable, hrt, hreviewTable⟩ := refill_ok hreviewsOk
  have hstorable : Storable
      ((controls.delete (hasUnfinishedJournal journals.rows)).rows ++
        (journals.rows.filter fun g => g.state.resumes).map (resumeControl now)) := by
    have hdeleted := storable_resumeControls now hcontrolsOk hjournalsOk
    rw [← hcontrols, ← hjournals] at hdeleted
    exact hdeleted
  obtain ⟨final, hinsert, hfinal⟩ := Table.exists_insertAll? hstorable
  let filled : AgentTables :=
    { projects, modelProviders := providers, modelTargets := targets, agentSettings := settings
      agentWorkers := workers, sessionControls := controls, gitLaunchStates := launches
      gitFinalizations := journals, sessionGitModes := some modeTable
      supervisorReviews := some reviewTable, sessionModesMigrated := true }
  have hmodesRows : (some modeTable).map Table.rows = s.sessionGitModes := by
    rw [hmodes, ← hmodeTable]
    rfl
  have hreviewsRows : (some reviewTable).map Table.rows = s.supervisorReviews := by
    rw [hreviews, ← hreviewTable]
    rfl
  have hkeys : ∀ id, id ∈ s.sessionControls.map (fun r => r.projectId) ∨
      id ∈ s.gitFinalizations.map (fun r => r.projectId) → id ∈ s.references := by
    intro id hid
    simp only [RegistrySnapshot.references, List.mem_append]
    rcases hid with hid | hid
    · exact .inl (.inl (.inl (.inl (.inr hid))))
    · exact .inl (.inl (.inr hid))
  have hcontrolKeys : ∀ sc ∈ controls.rows, sc.projectId ∈ s.references := by
    intro sc hsc
    rw [hcontrols] at hsc
    obtain ⟨old, hold, rfl⟩ := List.mem_map.mp hsc
    exact hkeys _ (.inl (List.mem_map.mpr ⟨old, hold, rfl⟩))
  have hforeign : filled.foreignKeysHold = true :=
    foreignKeys_restored h hprojects hproviders htargets hworkers hcontrolKeys hlaunches hjournals
      hmodesRows hreviewsRows
  have hrows : final.rows = restoredControls now s := by
    rw [hfinal, hjournals]
    show controls.rows.filter _ ++ _ = _
    rw [hcontrols]
    unfold restoredControls
    simp only [hasUnfinishedJournal_restored]
  have hfinalKeys : ∀ sc ∈ final.rows, sc.projectId ∈ s.references := by
    intro sc hsc
    rw [hfinal, hjournals] at hsc
    rcases List.mem_append.mp hsc with hsc | hsc
    · exact hcontrolKeys sc (List.mem_filter.mp hsc).1
    · obtain ⟨g, hg, rfl⟩ := List.mem_map.mp hsc
      obtain ⟨old, hold, rfl⟩ := List.mem_map.mp (List.mem_filter.mp hg).1
      exact hkeys _ (.inr (List.mem_map.mpr ⟨old, hold, rfl⟩))
  let tables : AgentTables := { filled with sessionControls := final }
  have hforeign' : tables.foreignKeysHold = true :=
    foreignKeys_restored h hprojects hproviders htargets hworkers hfinalKeys hlaunches hjournals
      hmodesRows hreviewsRows
  refine ⟨⟨tables, hforeign', fun _ => rfl⟩, ?_, ⟨hprojects, hproviders, htargets, hsettings,
    hworkers, hrows, hlaunches, hjournals, hmodesRows, hreviewsRows⟩⟩
  simp only [restoreSnapshot, hp, hmp, hmt, has, haw, hsc, hgl, hgf, hmodes, hreviews, records,
    hmt', hrt, bind, Except.bind]
  show (if filled.foreignKeysHold then _ else _) = _
  rw [if_pos hforeign, hinsert]

/-! ## The round trip -/

/-- The snapshot without the times that a restore writes. -/
def RegistrySnapshot.timeless (s : RegistrySnapshot) : RegistrySnapshot :=
  { s with
    agentWorkers := s.agentWorkers.map fun w => { w with finishedAt := none }
    sessionControls := s.sessionControls.map fun sc => { sc with updatedAt := "" } }

/-- A session that the user has stopped. -/
def SessionControl.isUserStopped (sc : SessionControl) : Bool :=
  sc.state = .stopped || sc.state = .stopRequested

/-- What a snapshot `s`, the database `t` restored from it, the snapshot `s'` of that database
and the snapshot `s''` after another restore have in common. -/
structure RoundTrip (s : RegistrySnapshot) (t : AgentTables) (s' s'' : RegistrySnapshot) :
    Prop where
  tables : s'.projects = s.projects ∧ s'.modelProviders = s.modelProviders ∧
    s'.modelTargets = s.modelTargets ∧ s'.agentSettings = s.agentSettings ∧
    s'.gitLaunchStates = s.gitLaunchStates ∧ s'.sessionGitModes = s.sessionGitModes ∧
    s'.supervisorReviews = s.supervisorReviews
  journals : s'.gitFinalizations =
    s.gitFinalizations.map fun g => { g with ownerRunToken := none, acknowledgedRunId := none }
  released : ∀ sc ∈ t.sessionControls, sc.childPid = none ∧ sc.interactiveHolder = none ∧
    sc.interactiveLaunchToken = none
  fenced : ∀ sc ∈ t.sessionControls, sc.state = .resumeRequested →
    ∃ g ∈ t.gitFinalizations, g.is sc.projectId sc.codexSessionId = true ∧
      g.state.resumes = true ∧ sc.runToken = some (recoveryToken g.generation)
  stopped : ∀ sc ∈ s.sessionControls, sc.isUserStopped = true → ∀ sc' ∈ t.sessionControls,
    sc'.projectId = sc.projectId → sc'.codexSessionId = sc.codexSessionId →
      sc'.state ≠ .resumeRequested
  again : s''.timeless = s'.timeless

/-- No session that the user has stopped has a journal that resumes. -/
def StoppedWithoutJournal (s : RegistrySnapshot) : Prop :=
  ∀ sc ∈ s.sessionControls, sc.isUserStopped = true → ∀ g ∈ s.gitFinalizations,
    g.is sc.projectId sc.codexSessionId = true → g.state.resumes = false

/-- A control and a worker without the times that a restore writes. -/
def SessionControl.timeless (sc : SessionControl) : SessionControl := { sc with updatedAt := "" }

def AgentWorker.timeless (w : AgentWorker) : AgentWorker := { w with finishedAt := none }

/-- The worker is the owner of an unconsumed launch. -/
def AgentTables.ownsLaunch (t : AgentTables) (w : AgentWorker) : Bool :=
  t.gitLaunchStates.any fun launch => launch.runToken == w.workerToken

theorem keepsWorker_of_restored {now : String} {s : RegistrySnapshot} {t : AgentTables}
    (h : Restored now s t) {w : AgentWorker} (hw : w ∈ t.agentWorkers.rows) :
    t.keepsWorker w = t.ownsLaunch w := by
  rw [h.agentWorkers] at hw
  obtain ⟨old, -, rfl⟩ := List.mem_map.mp hw
  exact Bool.false_or _

/-- A restored worker is restored as it is. -/
theorem timeless_restoredWorker (now now' : String) (w : AgentWorker) :
    (restoredWorker now' (restoredWorker now w)).timeless = (restoredWorker now w).timeless := rfl

/-- The workers of a database restored twice are those that own a launch. -/
theorem workers_again {now now' : String} {s : RegistrySnapshot} {t t' : AgentTables}
    (h : Restored now s t) (h' : Restored now' (completeSnapshot t) t') :
    t'.agentWorkers.rows.map AgentWorker.timeless =
      (t.agentWorkers.rows.filter t.ownsLaunch).map AgentWorker.timeless := by
  rw [h'.agentWorkers, List.map_map]
  show (t.agentWorkers.rows.filter t.keepsWorker).map _ = _
  rw [List.filter_congr fun w hw => keepsWorker_of_restored h hw]
  refine List.map_congr_left fun w hw => ?_
  have hmem := (List.mem_filter.mp hw).1
  rw [h.agentWorkers] at hmem
  obtain ⟨old, -, rfl⟩ := List.mem_map.mp hmem
  exact timeless_restoredWorker now now' old

/-- A second snapshot keeps all the workers that the first restore kept for their launch. -/
theorem snapshot_workers_again {now now' : String} {s : RegistrySnapshot} {t t' : AgentTables}
    (h : Restored now s t) (h' : Restored now' (completeSnapshot t) t') :
    (t'.agentWorkers.rows.filter t'.keepsWorker).map AgentWorker.timeless =
      (t.agentWorkers.rows.filter t.keepsWorker).map AgentWorker.timeless := by
  have hlaunches : t'.gitLaunchStates.rows = t.gitLaunchStates.rows := h'.gitLaunchStates
  have hall : t'.agentWorkers.rows.filter t'.keepsWorker = t'.agentWorkers.rows := by
    refine List.filter_eq_self.mpr fun w hw => ?_
    rw [keepsWorker_of_restored h' hw]
    rw [h'.agentWorkers] at hw
    obtain ⟨old, hold, rfl⟩ := List.mem_map.mp hw
    obtain ⟨hmem, hkept⟩ := List.mem_filter.mp hold
    rw [keepsWorker_of_restored h hmem] at hkept
    show t'.gitLaunchStates.rows.any _ = true
    rw [hlaunches]
    exact hkept
  rw [hall, workers_again h h', List.filter_congr fun w hw => keepsWorker_of_restored h hw]

/-- The requests of the first restore give way to those of the second, and the controls that
it kept are kept. -/
theorem kept_again (now : String) (s : RegistrySnapshot) :
    (((restoredControls now s).map restoredControl).filter
        fun sc => !hasUnfinishedJournal s.gitFinalizations sc) =
      (s.sessionControls.map restoredControl).filter
        fun sc => !hasUnfinishedJournal s.gitFinalizations sc := by
  unfold restoredControls
  rw [List.map_append, List.filter_append]
  have hrequests : (List.filter (fun sc => !hasUnfinishedJournal s.gitFinalizations sc)
      (List.map restoredControl (((s.gitFinalizations.map restoredJournal).filter
        fun g => g.state.resumes).map (resumeControl now)))) = [] := by
    refine List.filter_eq_nil_iff.mpr fun sc hsc => ?_
    obtain ⟨request, hrequest, rfl⟩ := List.mem_map.mp hsc
    obtain ⟨g, hg, rfl⟩ := List.mem_map.mp hrequest
    obtain ⟨hmem, hresumes⟩ := List.mem_filter.mp hg
    have hunfinished : hasUnfinishedJournal (s.gitFinalizations.map restoredJournal)
        (restoredControl (resumeControl now g)) = true := by
      refine List.any_eq_true.mpr ⟨g, hmem, ?_⟩
      simp [GitFinalization.is, restoredControl, resumeControl, isUnfinished_of_resumes hresumes]
    rw [hasUnfinishedJournal_restored] at hunfinished
    simp [hunfinished]
  have hfixed : ∀ controls : List SessionControl,
      ((controls.map restoredControl).filter
        fun sc => !hasUnfinishedJournal s.gitFinalizations sc).map restoredControl =
      (controls.map restoredControl).filter
        fun sc => !hasUnfinishedJournal s.gitFinalizations sc := by
    intro controls
    refine (List.map_congr_left fun sc hsc => ?_).trans (List.map_id _)
    obtain ⟨old, -, rfl⟩ := List.mem_map.mp (List.mem_filter.mp hsc).1
    rfl
  rw [hrequests, hfixed, List.append_nil, List.filter_filter]
  simp only [Bool.and_self]

/-- The controls of a database restored twice. -/
theorem controls_again {now now' : String} {s : RegistrySnapshot} {t t' : AgentTables}
    (h : Restored now s t) (h' : Restored now' (completeSnapshot t) t') :
    t'.sessionControls.rows.map SessionControl.timeless =
      t.sessionControls.rows.map SessionControl.timeless := by
  have hcontrols : (completeSnapshot t).sessionControls = restoredControls now s :=
    h.sessionControls
  have hjournals : (completeSnapshot t).gitFinalizations =
      s.gitFinalizations.map restoredJournal := h.gitFinalizations
  have hagain : (s.gitFinalizations.map restoredJournal).map restoredJournal =
      s.gitFinalizations.map restoredJournal := by
    rw [List.map_map]
    rfl
  have hsecond : restoredControls now' (completeSnapshot t) =
      (s.sessionControls.map restoredControl).filter
          (fun sc => !hasUnfinishedJournal s.gitFinalizations sc) ++
        ((s.gitFinalizations.map restoredJournal).filter fun g => g.state.resumes).map
          (resumeControl now') := by
    rw [restoredControls, hcontrols, hjournals, hagain]
    simp only [hasUnfinishedJournal_restored]
    rw [kept_again]
  rw [h'.sessionControls, h.sessionControls, hsecond, restoredControls, List.map_append,
    List.map_append, List.map_map, List.map_map]
  rfl

/-- A user's stop survives exactly where no journal of its session resumes. -/
theorem stopped_iff {now : String} {s : RegistrySnapshot} {t : AgentTables}
    (h : Restored now s t) :
    (∀ sc ∈ s.sessionControls, sc.isUserStopped = true → ∀ sc' ∈ t.sessionControls,
      sc'.projectId = sc.projectId → sc'.codexSessionId = sc.codexSessionId →
        sc'.state ≠ .resumeRequested) ↔ StoppedWithoutJournal s := by
  have hmem : ∀ sc', sc' ∈ t.sessionControls ↔ sc' ∈ restoredControls now s := by
    intro sc'
    rw [Table.mem_def, h.sessionControls]
  constructor
  · intro hstopped sc hsc huser g hg hown
    by_contra hresumes
    rw [Bool.not_eq_false] at hresumes
    rw [GitFinalization.is, Bool.and_eq_true, beq_iff_eq, beq_iff_eq] at hown
    have hrequest : resumeControl now (restoredJournal g) ∈ restoredControls now s := by
      refine List.mem_append_right _ (List.mem_map_of_mem (List.mem_filter.mpr ⟨?_, hresumes⟩))
      exact List.mem_map_of_mem hg
    exact hstopped sc hsc huser _ ((hmem _).mpr hrequest) hown.1 hown.2 rfl
  · intro hnone sc hsc huser sc' hsc' hproject hsession hstate
    rcases List.mem_append.mp ((hmem sc').mp hsc') with hkept | hrequest
    · obtain ⟨old, -, rfl⟩ := List.mem_map.mp (List.mem_filter.mp hkept).1
      cases hstate
    · obtain ⟨g, hg, rfl⟩ := List.mem_map.mp hrequest
      obtain ⟨hrestored, hresumes⟩ := List.mem_filter.mp hg
      obtain ⟨old, hold, rfl⟩ := List.mem_map.mp hrestored
      have hown : old.is sc.projectId sc.codexSessionId = true := by
        rw [GitFinalization.is, Bool.and_eq_true, beq_iff_eq, beq_iff_eq]
        exact ⟨hproject, hsession⟩
      have hfinished := hnone sc hsc huser old hold hown
      exact absurd (hfinished.symm.trans hresumes) Bool.false_ne_true

/-- Every control of a restored database is idle, and a recovery request is fenced with the
generation of its journal. -/
theorem controls_of_restored {now : String} {s : RegistrySnapshot} {t : AgentTables}
    (h : Restored now s t) {sc : SessionControl} (hsc : sc ∈ t.sessionControls) :
    (sc.childPid = none ∧ sc.interactiveHolder = none ∧ sc.interactiveLaunchToken = none) ∧
      (sc.state = .resumeRequested → ∃ g ∈ t.gitFinalizations,
        g.is sc.projectId sc.codexSessionId = true ∧ g.state.resumes = true ∧
          sc.runToken = some (recoveryToken g.generation)) := by
  rw [Table.mem_def, h.sessionControls] at hsc
  rcases List.mem_append.mp hsc with hkept | hrequest
  · obtain ⟨old, -, rfl⟩ := List.mem_map.mp (List.mem_filter.mp hkept).1
    exact ⟨⟨rfl, rfl, rfl⟩, nofun⟩
  · obtain ⟨g, hg, rfl⟩ := List.mem_map.mp hrequest
    obtain ⟨hmem, hresumes⟩ := List.mem_filter.mp hg
    refine ⟨⟨rfl, rfl, rfl⟩, fun _ => ⟨g, ?_, ?_, hresumes, rfl⟩⟩
    · rw [Table.mem_def, h.gitFinalizations]
      exact hmem
    · simp [GitFinalization.is, resumeControl]

/-- The tables of a database restored twice are those of the first restore, up to times and
to workers without an unconsumed launch. -/
structure Repeats (t t' : AgentTables) : Prop where
  projects : t'.projects = t.projects
  modelProviders : t'.modelProviders = t.modelProviders
  modelTargets : t'.modelTargets = t.modelTargets
  agentSettings : t'.agentSettings = t.agentSettings
  gitLaunchStates : t'.gitLaunchStates = t.gitLaunchStates
  gitFinalizations : t'.gitFinalizations = t.gitFinalizations
  sessionGitModes : t'.sessionGitModes.map Table.rows = t.sessionGitModes.map Table.rows
  supervisorReviews : t'.supervisorReviews.map Table.rows = t.supervisorReviews.map Table.rows
  sessionControls : t'.sessionControls.rows.map SessionControl.timeless =
    t.sessionControls.rows.map SessionControl.timeless
  agentWorkers : t'.agentWorkers.rows.map AgentWorker.timeless =
    (t.agentWorkers.rows.filter t.ownsLaunch).map AgentWorker.timeless

theorem durable_of_restored {now : String} {s : RegistrySnapshot} {t : AgentTables}
    (h : Restored now s t) : t.projects.rows.map RegisteredProject.durable = s.projects := by
  rw [h.projects, List.map_map]
  exact List.map_id s.projects

/-- A restored table of a snapshot that has all tables. -/
theorem map_rows_again {ρ : Type} [Keyed ρ] {first second : Option (Table ρ)} {rows : List ρ}
    (h : first.map Table.rows = some rows)
    (h' : second.map Table.rows = some ((first.map Table.rows).getD [])) :
    second.map Table.rows = first.map Table.rows := by
  rw [h', h]
  rfl

theorem some_getD_of_eq {ρ : Type} {rows : Option (List ρ)} {expected : List ρ}
    (h : rows = some expected) : some (rows.getD []) = some expected := by
  rw [h]
  rfl

theorem repeats_of_restored {now now' : String} {t₀ t t' : AgentTables}
    (h : Restored now (completeSnapshot t₀) t) (h' : Restored now' (completeSnapshot t) t') :
    Repeats t t' where
  projects := by
    refine Table.ext ?_
    rw [h'.projects, h.projects]
    show (t.projects.rows.map RegisteredProject.durable).map _ = _
    rw [durable_of_restored h]
  modelProviders := Table.ext h'.modelProviders
  modelTargets := Table.ext h'.modelTargets
  agentSettings := Table.ext h'.agentSettings
  gitLaunchStates := Table.ext h'.gitLaunchStates
  gitFinalizations := by
    refine Table.ext ?_
    rw [h'.gitFinalizations]
    show t.gitFinalizations.rows.map restoredJournal = _
    rw [h.gitFinalizations, List.map_map]
    rfl
  sessionGitModes := map_rows_again h.sessionGitModes h'.sessionGitModes
  supervisorReviews := map_rows_again h.supervisorReviews h'.supervisorReviews
  sessionControls := controls_again h h'
  agentWorkers := workers_again h h'

theorem isSome_of_map_rows {ρ : Type} [Keyed ρ] {table : Option (Table ρ)} {rows : List ρ}
    (h : table.map Table.rows = some rows) : table.isSome = true := by
  cases table with
  | none => cases h
  | some table => rfl

/-- A restored database has every table, so its snapshots are of the current version. -/
theorem version_of_restored {now : String} {t₀ t : AgentTables}
    (h : Restored now (completeSnapshot t₀) t) : (completeSnapshot t).version = 3 := by
  have hmodes := isSome_of_map_rows h.sessionGitModes
  have hreviews := isSome_of_map_rows h.supervisorReviews
  have hpresent : t.sessionGitModes.isNone = false := by
    rw [← Option.not_isSome, hmodes]
    rfl
  simp [completeSnapshot, hpresent, hreviews]

theorem snapshot_again {now now' : String} {t₀ t t' : AgentTables}
    (h : Restored now (completeSnapshot t₀) t) (h' : Restored now' (completeSnapshot t) t')
    (hrepeats : Repeats t t') :
    (completeSnapshot t').timeless = (completeSnapshot t).timeless := by
  have hversion : (completeSnapshot t').version = (completeSnapshot t).version :=
    (version_of_restored h').trans (version_of_restored h).symm
  have hworkers := snapshot_workers_again h h'
  simp only [RegistrySnapshot.timeless, RegistrySnapshot.mk.injEq]
  refine ⟨hversion, ?_, ?_, ?_, ?_, hworkers, hrepeats.sessionControls, ?_, ?_, ?_, ?_⟩
  · show t'.projects.rows.map _ = t.projects.rows.map _
    rw [hrepeats.projects]
  · exact congrArg Table.rows hrepeats.modelProviders
  · exact congrArg Table.rows hrepeats.modelTargets
  · exact congrArg Table.rows hrepeats.agentSettings
  · exact congrArg Table.rows hrepeats.gitLaunchStates
  · exact congrArg Table.rows hrepeats.gitFinalizations
  · exact congrArg (fun modes => some (modes.getD [])) hrepeats.sessionGitModes
  · exact congrArg (fun reviews => some (reviews.getD [])) hrepeats.supervisorReviews

/-- A database in which the user has stopped a session whose journal is still `working`. -/
def stoppedDatabase : AgentDatabase where
  tables :=
    { projects := ⟨[⟨⟨1, "/work", "work", true, "100", "100", .commit, none, none, none, false⟩,
        {}⟩], List.pairwise_singleton _ _⟩
      modelProviders := .empty
      modelTargets := .empty
      agentSettings := .empty
      agentWorkers := .empty
      sessionControls := ⟨[⟨1, "session", .stopped, none, none, none, none, none, none, "102"⟩],
        List.pairwise_singleton _ _⟩
      gitLaunchStates := .empty
      gitFinalizations := ⟨[⟨1, "session", .working, .commit, none, none, none, "{}", none, none,
        none, 0, none, "101", "101", none, none, none⟩], List.pairwise_singleton _ _⟩
      sessionGitModes := some .empty
      supervisorReviews := some .empty
      sessionModesMigrated := true }
  foreignKeys := by decide
  migrated := fun _ => rfl

end Clt
