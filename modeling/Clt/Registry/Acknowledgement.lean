import Clt.Registry.WorkerFence

/-!
# Acknowledging completed journals

A completed journal is acknowledged by a run of its own session: the session's latest run where it
succeeded at or after the completion, else one that the acknowledgement records. A recorded run is
the project's newest, and so it clears the project's failures, those of other sessions too.
-/

namespace Clt

open Relational Registry

namespace Registry

variable {db : Registry} {projectId : Int} {codexSessionId acknowledgedAt : String}

/-- The journal of the session that is completed and not acknowledged yet. -/
def AwaitsAcknowledgement (db : Registry) (projectId : Int) (codexSessionId : String)
    (g : GitFinalization) : Prop :=
  db.journal? projectId codexSessionId = some g ∧ g.state = .completed ∧ g.acknowledgedAt = none

/-- No completion is left to acknowledge for the session. -/
def Settled (db : Registry) (projectId : Int) (codexSessionId : String) : Prop :=
  ∀ g, db.AwaitsAcknowledgement projectId codexSessionId g → g.completedAt = none

/-- The session's latest run. -/
def latestSessionRun (db : Registry) (projectId : Int) (codexSessionId : String) : Option Run :=
  db.runs.find? fun r => sqlEq (some r.id) (db.maxSessionRunId projectId codexSessionId)

/-- The newest run of the project. -/
def newestRunId (db : Registry) (projectId : Int) : Int :=
  (db.maxRunId fun r => r.projectId == projectId).getD 0

/-- A journal acknowledged by a run. -/
def acknowledgedBy (acknowledgedAt : String) (runId : Int) (g : GitFinalization) :
    GitFinalization :=
  { g with acknowledgedAt := some acknowledgedAt, acknowledgedRunId := some runId }

/-- The row that an acknowledgement marks. -/
def isUnacknowledged (projectId : Int) (codexSessionId : String) (g : GitFinalization) : Bool :=
  g.is projectId codexSessionId && g.state = .completed && g.acknowledgedAt.isNone

/-- The journals with one of them acknowledged. -/
def acknowledged (db : Registry) (projectId : Int) (codexSessionId acknowledgedAt : String)
    (runId : Int) : Table GitFinalization :=
  db.gitFinalizations.update (isUnacknowledged projectId codexSessionId)
    (acknowledgedBy acknowledgedAt runId)

/-- What an acknowledgement makes of the registry. -/
inductive AckStep (db : Registry) (projectId : Int) (codexSessionId acknowledgedAt : String) :
    Registry → Prop
  | refused (h : db.Settled projectId codexSessionId ∨ db.hasProject projectId = false) :
      AckStep db projectId codexSessionId acknowledgedAt db
  | repeated {g : GitFinalization} (hg : db.journal? projectId codexSessionId = some g)
      (hacknowledged : g.acknowledgedAt.isSome = true) :
      AckStep db projectId codexSessionId acknowledgedAt { db with
        sessionControls := db.sessionControls.delete (lateResumeRequest projectId codexSessionId) }
  | found {g : GitFinalization} {completedAt : String} {r : Run}
      (hg : db.AwaitsAcknowledgement projectId codexSessionId g)
      (hcompletedAt : g.completedAt = some completedAt)
      (hr : db.latestSessionRun projectId codexSessionId = some r)
      (hacknowledges : acknowledges completedAt r = true) :
      AckStep db projectId codexSessionId acknowledgedAt
        { (if db.newestRunId projectId == r.id then
            db.updateProjectAfterRun (acknowledgementOutcome projectId codexSessionId completedAt
              g.commitOid)
          else db) with
          gitFinalizations := db.acknowledged projectId codexSessionId acknowledgedAt r.id
          sessionControls :=
            db.sessionControls.delete (lateResumeRequest projectId codexSessionId) }
  | recorded {g : GitFinalization} {completedAt : String} {runs : Table Run}
      (hg : db.AwaitsAcknowledgement projectId codexSessionId g)
      (hcompletedAt : g.completedAt = some completedAt)
      (hnone : ∀ r, db.latestSessionRun projectId codexSessionId = some r →
        acknowledges completedAt r = false)
      (hruns : runs.rows = db.runs.rows ++ [(acknowledgementOutcome projectId codexSessionId
        completedAt g.commitOid).toRun db.nextRunId none]) :
      AckStep db projectId codexSessionId acknowledgedAt
        { ({ db with runs := runs } : Registry).updateProjectAfterRun
            (acknowledgementOutcome projectId codexSessionId completedAt g.commitOid) with
          gitFinalizations := db.acknowledged projectId codexSessionId acknowledgedAt db.nextRunId
          sessionControls :=
            db.sessionControls.delete (lateResumeRequest projectId codexSessionId) }

/-- The next row id is greater than every row id. -/
theorem id_lt_nextRunId {r : Run} (h : r ∈ db.runs) : r.id < db.nextRunId := by
  unfold nextRunId
  have hmem : r.id ∈ db.runs.rows.map Run.id := List.mem_map_of_mem h
  cases hmax : (db.runs.rows.map Run.id).max? with
  | none =>
    rw [List.max?_eq_none_iff] at hmax
    rw [hmax] at hmem
    cases hmem
  | some id =>
    have hle : r.id ≤ id := (List.max?_eq_some_iff.mp hmax).2 _ hmem
    dsimp only
    omega

/-- A run that is recorded is the newest of its project. -/
theorem newestRunId_recorded {runs : Table Run} {r : Run} (hid : r.id = db.nextRunId)
    (hproject : r.projectId = projectId) (hruns : runs.rows = db.runs.rows ++ [r]) :
    ({ db with runs := runs } : Registry).newestRunId projectId = db.nextRunId := by
  have hmax : ({ db with runs := runs } : Registry).maxRunId (fun r => r.projectId == projectId) =
      some db.nextRunId := by
    unfold maxRunId
    dsimp only
    rw [hruns, List.filter_append, List.map_append, List.max?_eq_some_iff]
    constructor
    · rw [List.mem_append]
      exact .inr (by simp [hproject, hid])
    · intro id hmem
      rcases List.mem_append.mp hmem with hmem | hmem
      · obtain ⟨a, ha, rfl⟩ := List.mem_map.mp hmem
        exact Int.le_of_lt (id_lt_nextRunId (List.mem_filter.mp ha).1)
      · obtain ⟨a, ha, rfl⟩ := List.mem_map.mp hmem
        rw [List.mem_singleton.mp (List.mem_filter.mp ha).1, hid]
  rw [newestRunId, hmax]
  rfl

theorem conflict_of_journal {a b : GitFinalization} (ha : a.is projectId codexSessionId = true)
    (hb : b.is projectId codexSessionId = true) : Keyed.conflict a b = true := by
  simp only [GitFinalization.is, Bool.and_eq_true, beq_iff_eq] at ha hb
  simp [Keyed.conflict, ha, hb]

/-- The completed journal that an acknowledgement reads is the session's journal. -/
theorem completed_eq_some_iff {g : GitFinalization} :
    (db.gitFinalizations.find? fun g => g.is projectId codexSessionId && g.state = .completed) =
        some g ↔ db.journal? projectId codexSessionId = some g ∧ g.state = .completed := by
  constructor
  · intro h
    have hmatch := Table.of_find? h
    rw [Bool.and_eq_true, decide_eq_true_eq] at hmatch
    exact ⟨Table.find?_eq_some (fun _ _ => conflict_of_journal) (Table.mem_of_find? h) hmatch.1,
      hmatch.2⟩
  · rintro ⟨h, hstate⟩
    refine Table.find?_eq_some (fun a b ha hb => ?_) (Table.mem_of_find? h) ?_
    · rw [Bool.and_eq_true] at ha hb
      exact conflict_of_journal ha.1 hb.1
    · rw [Bool.and_eq_true, decide_eq_true_eq]
      exact ⟨Table.of_find? h, hstate⟩

theorem AwaitsAcknowledgement.count_eq_one {g : GitFinalization}
    (h : db.AwaitsAcknowledgement projectId codexSessionId g) :
    db.gitFinalizations.count (fun g => g.is projectId codexSessionId && g.state = .completed &&
      g.acknowledgedAt.isNone) = 1 := by
  obtain ⟨hg, hstate, hnone⟩ := h
  refine (Table.count_eq_one_iff (fun _ _ => conflict_of_journal) (Table.mem_of_find? hg)
    (Table.of_find? hg) fun a ha => ?_).mpr ?_
  · rw [Bool.and_eq_true, Bool.and_eq_true] at ha
    exact ha.1.1
  · rw [Table.of_find? hg, hstate, hnone]
    rfl

/-- A run without a worker can be recorded for a registered project. -/
theorem insertInto_run (r : Run) (hid : r.id = db.nextRunId) (htoken : r.workerToken = none)
    (hproject : db.hasProject projectId = true) :
    ∃ runs, db.insertInto projectId db.runs r = some runs ∧ runs.rows = db.runs.rows ++ [r] := by
  have hfresh : db.runs.any (fun a => Keyed.conflict a r) = false := by
    refine Table.any_eq_false_iff.mpr fun a ha => ?_
    have hne : a.id ≠ r.id := Int.ne_of_lt (hid ▸ id_lt_nextRunId ha)
    simp [Keyed.conflict, hne, htoken, sqlEq]
  refine ⟨db.runs.append r hfresh, ?_, rfl⟩
  rw [insertInto, if_pos hproject, Table.insert?, dif_pos hfresh]

section AcknowledgingRun

variable {completedAt : String}

theorem acknowledgingRun_found (outcome : AgentRunOutcome) {r : Run}
    (hr : db.latestSessionRun outcome.projectId codexSessionId = some r)
    (h : acknowledges completedAt r = true) :
    db.acknowledgingRun outcome codexSessionId completedAt = .ok (db, r.id) := by
  have hlatest : (db.latestSessionRun outcome.projectId codexSessionId).filter
      (acknowledges completedAt) = some r := by rw [hr, Option.filter_some, if_pos h]
  unfold acknowledgingRun
  unfold latestSessionRun at hlatest
  dsimp only
  rw [hlatest]

/-- Without such a run one is recorded. -/
theorem acknowledgingRun_eq (outcome : AgentRunOutcome)
    (h : ∀ r, db.latestSessionRun outcome.projectId codexSessionId = some r →
      acknowledges completedAt r = false) :
    db.acknowledgingRun outcome codexSessionId completedAt = (do
      let runs ← fetch (db.insertInto outcome.projectId db.runs (outcome.toRun db.nextRunId none))
        (.error ("Failed to record recovered success for Git finalization " ++ codexSessionId))
      .ok ({ db with runs := runs }, db.nextRunId)) := by
  have hlatest : (db.latestSessionRun outcome.projectId codexSessionId).filter
      (acknowledges completedAt) = none := by
    cases hr : db.latestSessionRun outcome.projectId codexSessionId with
    | none => rfl
    | some r => rw [Option.filter_some, h r hr, if_neg Bool.false_ne_true]
  unfold acknowledgingRun
  unfold latestSessionRun at hlatest
  dsimp only
  rw [hlatest]

end AcknowledgingRun

theorem acknowledge_cases (db : Registry) (projectId : Int)
    (codexSessionId acknowledgedAt : String) :
    AckStep db projectId codexSessionId acknowledgedAt
      (db.acknowledgeCompletedGitFinalizationSession projectId codexSessionId
        acknowledgedAt).db := by
  unfold acknowledgeCompletedGitFinalizationSession
  cases hfind : db.gitFinalizations.find? fun g => g.is projectId codexSessionId &&
      g.state = .completed with
  | none =>
    refine .refused (.inl fun g hg => ?_)
    rw [completed_eq_some_iff.mpr ⟨hg.1, hg.2.1⟩] at hfind
    cases hfind
  | some g =>
    obtain ⟨hg, hstate⟩ := completed_eq_some_iff.mp hfind
    cases hcompletedAt : g.completedAt with
    | none =>
      simp only [fetch, bind, Except.bind, hcompletedAt]
      refine .refused (.inl fun g' hawaits => ?_)
      cases hg.symm.trans hawaits.1
      exact hcompletedAt
    | some completedAt =>
      simp only [fetch, bind, Except.bind, hcompletedAt]
      cases hacknowledged : g.acknowledgedAt with
      | some earlier =>
        rw [Option.isSome_some, if_pos rfl]
        exact .repeated hg (hacknowledged ▸ rfl)
      | none =>
        have hawaits : db.AwaitsAcknowledgement projectId codexSessionId g :=
          ⟨hg, hstate, hacknowledged⟩
        rw [Option.isSome_none, if_neg Bool.false_ne_true, hawaits.count_eq_one]
        by_cases hfound : ∃ r, db.latestSessionRun projectId codexSessionId = some r ∧
            acknowledges completedAt r = true
        · obtain ⟨r, hr, hacknowledges⟩ := hfound
          rw [acknowledgingRun_found (acknowledgementOutcome projectId codexSessionId
            completedAt g.commitOid) hr hacknowledges]
          exact .found hawaits hcompletedAt hr hacknowledges
        · have hnone (r : Run) (hr : db.latestSessionRun projectId codexSessionId = some r) :
              acknowledges completedAt r = false :=
            Bool.eq_false_iff.mpr fun hacknowledges => hfound ⟨r, hr, hacknowledges⟩
          rw [acknowledgingRun_eq (acknowledgementOutcome projectId codexSessionId
            completedAt g.commitOid) hnone]
          cases hproject : db.hasProject projectId with
          | false =>
            have hinsert : db.insertInto projectId db.runs ((acknowledgementOutcome projectId
                codexSessionId completedAt g.commitOid).toRun db.nextRunId none) = none := by
              rw [insertInto, hproject]
              rfl
            rw [show (acknowledgementOutcome projectId codexSessionId completedAt
              g.commitOid).projectId = projectId from rfl, hinsert]
            exact .refused (.inr hproject)
          | true =>
            obtain ⟨runs, hinsert, hrows⟩ := insertInto_run
              ((acknowledgementOutcome projectId codexSessionId completedAt
                g.commitOid).toRun db.nextRunId none) rfl rfl hproject
            have hnewest : (({ db with runs := runs } : Registry).maxRunId fun r =>
                r.projectId == projectId).getD 0 = db.nextRunId :=
              newestRunId_recorded rfl rfl hrows
            rw [show (acknowledgementOutcome projectId codexSessionId completedAt
              g.commitOid).projectId = projectId from rfl, hinsert]
            simp only [fetch, bind, Except.bind, hnewest, beq_self_eq_true, if_true]
            exact .recorded hawaits hcompletedAt hnone hrows

/-! ## One acknowledgement -/

/-- The journal is acknowledged by a run of its session that is good for its completion. -/
def AcknowledgedBy (db : Registry) (g : GitFinalization) (completedAt : String) : Prop :=
  ∃ acknowledgedAt, ∃ r ∈ db.runs, r.projectId = g.projectId ∧
    r.codexSessionId = some g.codexSessionId ∧ acknowledges completedAt r = true ∧
    db.journal? g.projectId g.codexSessionId =
      some (acknowledgedBy acknowledgedAt r.id g)

section Step

variable {after : Registry} {session : String}

theorem find?_acknowledged {runId : Int} (hne : session ≠ codexSessionId) :
    (db.acknowledged projectId codexSessionId acknowledgedAt runId).find?
      (GitFinalization.is projectId session) = db.journal? projectId session := by
  refine (Table.find?_update (q := GitFinalization.is projectId session)
    (f := acknowledgedBy acknowledgedAt runId) (fun _ _ _ h => h) fun _ => rfl).trans ?_
  unfold journal?
  cases hg : db.gitFinalizations.find? (GitFinalization.is projectId session) with
  | none => rfl
  | some g =>
    have his := Table.of_find? hg
    rw [GitFinalization.is, Bool.and_eq_true, beq_iff_eq, beq_iff_eq] at his
    have hother : g.codexSessionId ≠ codexSessionId := his.2 ▸ hne
    simp [Table.rewrite, isUnacknowledged, GitFinalization.is, hother]

theorem find?_acknowledged_self {runId : Int} {g : GitFinalization}
    (hg : db.AwaitsAcknowledgement projectId codexSessionId g) :
    (db.acknowledged projectId codexSessionId acknowledgedAt runId).find?
      (GitFinalization.is projectId codexSessionId) =
        some (acknowledgedBy acknowledgedAt runId g) := by
  obtain ⟨hfound, hstate, hnone⟩ := hg
  refine (Table.find?_update (q := GitFinalization.is projectId codexSessionId)
    (f := acknowledgedBy acknowledgedAt runId) (fun _ _ _ h => h) fun _ => rfl).trans ?_
  unfold journal? at hfound
  rw [hfound, Option.map_some, Table.rewrite, if_pos]
  rw [isUnacknowledged, Table.of_find? hfound, hstate, hnone]
  rfl

/-- The journals of other sessions stay as they are. -/
theorem AckStep.journal?_of_ne (h : AckStep db projectId codexSessionId acknowledgedAt after)
    (hne : session ≠ codexSessionId) :
    after.journal? projectId session = db.journal? projectId session := by
  cases h with
  | refused => rfl
  | repeated => rfl
  | found => exact find?_acknowledged hne
  | recorded => exact find?_acknowledged hne

theorem projectId_of_journal? {g : GitFinalization}
    (h : db.journal? projectId codexSessionId = some g) :
    g.projectId = projectId ∧ g.codexSessionId = codexSessionId := by
  have his := Table.of_find? h
  rwa [GitFinalization.is, Bool.and_eq_true, beq_iff_eq, beq_iff_eq] at his

/-- The session's latest run is one of its runs. -/
theorem of_latestSessionRun {r : Run}
    (h : db.latestSessionRun projectId codexSessionId = some r) :
    r ∈ db.runs ∧ r.projectId = projectId ∧ r.codexSessionId = some codexSessionId := by
  have hr := Table.mem_of_find? h
  have hid := Table.of_find? h
  rw [sqlEq_some_left] at hid
  unfold maxSessionRunId maxRunId at hid
  obtain ⟨a, ha, haid⟩ := List.mem_map.mp (List.max?_mem hid)
  obtain ⟨hamem, hmatch⟩ := List.mem_filter.mp ha
  have hsame : a = r := Table.eq_of_conflict hamem hr (by simp [Keyed.conflict, haid])
  subst hsame
  rw [Bool.and_eq_true, beq_iff_eq, sqlEq_some] at hmatch
  exact ⟨hr, hmatch⟩

/-- The session's own journal stays as it is, or it is acknowledged by a run. -/
theorem AckStep.journal?_self (h : AckStep db projectId codexSessionId acknowledgedAt after)
    (hproject : db.hasProject projectId = true) :
    after.journal? projectId codexSessionId = db.journal? projectId codexSessionId ∧
        db.Settled projectId codexSessionId ∨
      ∃ g completedAt, db.AwaitsAcknowledgement projectId codexSessionId g ∧
        g.completedAt = some completedAt ∧ after.AcknowledgedBy g completedAt := by
  cases h with
  | refused hsettled =>
    rcases hsettled with hsettled | hnone
    · exact .inl ⟨rfl, hsettled⟩
    · rw [hproject] at hnone
      cases hnone
  | repeated hg hacknowledged =>
    refine .inl ⟨rfl, fun g' hawaits => ?_⟩
    cases hg.symm.trans hawaits.1
    rw [hawaits.2.2] at hacknowledged
    cases hacknowledged
  | @found g completedAt r hg hcompletedAt hr hacknowledges =>
    refine .inr ⟨g, completedAt, hg, hcompletedAt, acknowledgedAt, r, ?_⟩
    obtain ⟨hmem, hproject, hsession⟩ := of_latestSessionRun hr
    obtain ⟨rfl, rfl⟩ := projectId_of_journal? hg.1
    refine ⟨?_, hproject, hsession, hacknowledges, find?_acknowledged_self hg⟩
    show r ∈ (if _ then _ else _ : Registry).runs
    split <;> exact hmem
  | @recorded g completedAt runs hg hcompletedAt hnone hruns =>
    obtain ⟨rfl, rfl⟩ := projectId_of_journal? hg.1
    refine .inr ⟨g, completedAt, hg, hcompletedAt, acknowledgedAt, (acknowledgementOutcome
      g.projectId g.codexSessionId completedAt g.commitOid).toRun db.nextRunId none, ?_⟩
    refine ⟨?_, rfl, rfl, ?_, find?_acknowledged_self hg⟩
    · show _ ∈ runs
      rw [Table.mem_def, hruns]
      exact List.mem_append_right _ (List.mem_singleton_self _)
    · show (true && optionLe (parseU64 completedAt) (parseU64 completedAt)) = true
      cases parseU64 completedAt with
      | none => rfl
      | some n => exact decide_eq_true (Nat.le_refl n)

theorem hasProject_updateProjectAfterRun (db : Registry) (outcome : AgentRunOutcome) (id : Int) :
    (db.updateProjectAfterRun outcome).hasProject id = db.hasProject id := by
  show (db.projects.rows.map _).any _ = db.projects.rows.any _
  rw [List.any_map]
  congr 1
  funext p
  show ((Table.rewrite _ (Project.afterRun outcome) p).id == id) = (p.id == id)
  unfold Table.rewrite Project.afterRun
  split
  · dsimp only
    split_ifs <;> rfl
  · rfl

theorem AckStep.hasProject (h : AckStep db projectId codexSessionId acknowledgedAt after)
    (id : Int) : after.hasProject id = db.hasProject id := by
  cases h with
  | refused => rfl
  | repeated => rfl
  | found =>
    show (if _ then _ else _ : Registry).hasProject id = _
    split
    · exact hasProject_updateProjectAfterRun db _ id
    · rfl
  | recorded => exact hasProject_updateProjectAfterRun _ _ id

/-- Runs are recorded for a completion that was not acknowledged yet, one at a time. -/
theorem AckStep.runs (h : AckStep db projectId codexSessionId acknowledgedAt after) :
    after.runs.rows = db.runs.rows ∨ ∃ g completedAt,
      db.AwaitsAcknowledgement projectId codexSessionId g ∧ g.completedAt = some completedAt ∧
      after.runs.rows = db.runs.rows ++ [(acknowledgementOutcome projectId codexSessionId
        completedAt g.commitOid).toRun db.nextRunId none] := by
  cases h with
  | refused => exact .inl rfl
  | repeated => exact .inl rfl
  | found =>
    refine .inl ?_
    show (if _ then _ else _ : Registry).runs.rows = _
    split <;> rfl
  | recorded hg hcompletedAt _ hruns => exact .inr ⟨_, _, hg, hcompletedAt, hruns⟩

/-- Only idle requests of the session under some generation of its journal are removed. -/
theorem AckStep.sessionControls (h : AckStep db projectId codexSessionId acknowledgedAt after) :
    after.sessionControls = db.sessionControls ∨ after.sessionControls =
      db.sessionControls.delete (lateResumeRequest projectId codexSessionId) := by
  cases h with
  | refused => exact .inl rfl
  | repeated => exact .inr rfl
  | found => exact .inr rfl
  | recorded => exact .inr rfl

/-- Where nothing is left to acknowledge, runs, projects and journals stay as they are. -/
theorem AckStep.of_settled (h : AckStep db projectId codexSessionId acknowledgedAt after)
    (hsettled : db.Settled projectId codexSessionId) :
    after.runs = db.runs ∧ after.projects = db.projects ∧
      after.gitFinalizations = db.gitFinalizations := by
  cases h with
  | refused => exact ⟨rfl, rfl, rfl⟩
  | repeated => exact ⟨rfl, rfl, rfl⟩
  | found hg hcompletedAt =>
    rw [hsettled _ hg] at hcompletedAt
    cases hcompletedAt
  | recorded hg hcompletedAt =>
    rw [hsettled _ hg] at hcompletedAt
    cases hcompletedAt

end Step

/-! ## Failures of other sessions -/

/-- The failure that counts for the project was recorded by another session after the
completion. -/
structure CountsLaterFailure (db : Registry) (projectId : Int)
    (codexSessionId completedAt : String) (p : Project) : Prop where
  mem : p ∈ db.projects
  id : p.id = projectId
  counted : 0 < p.failureCount
  later : ∃ r ∈ db.runs, r.projectId = projectId ∧
    (r.status = "failure" ∨ r.status = "timeout") ∧ r.codexSessionId ≠ some codexSessionId ∧
    r.finishedAt = p.lastFailureAt ∧ ∃ failed completed,
      r.finishedAt.bind parseU64 = some failed ∧ parseU64 completedAt = some completed ∧
      completed < failed

/-- Failures that other sessions recorded after the completion still count. -/
def KeepsFailures (before after : Registry) (projectId : Int) (codexSessionId : String) : Prop :=
  ∀ g completedAt p, before.journal? projectId codexSessionId = some g → g.state = .completed →
    g.completedAt = some completedAt →
    before.CountsLaterFailure projectId codexSessionId completedAt p →
    ∃ p' ∈ after.projects, p'.id = projectId ∧ p'.failureCount = p.failureCount ∧
      p'.lastFailureAt = p.lastFailureAt

/-- Where such a failure counts, the session's latest run acknowledges the completion, and it is
not the newest run of the project. -/
def HasOlderSuccess (db : Registry) (projectId : Int) (codexSessionId : String) : Prop :=
  ∀ g completedAt p, db.AwaitsAcknowledgement projectId codexSessionId g →
    g.completedAt = some completedAt →
    db.CountsLaterFailure projectId codexSessionId completedAt p →
    ∃ r, db.latestSessionRun projectId codexSessionId = some r ∧
      acknowledges completedAt r = true ∧ db.newestRunId projectId ≠ r.id

section Failures

variable {after : Registry}

theorem failureCount_updated {outcome : AgentRunOutcome} (hstatus : outcome.status = "success")
    {p : Project} (h : p ∈ (db.updateProjectAfterRun outcome).projects)
    (hid : p.id = outcome.projectId) : p.failureCount = 0 := by
  obtain ⟨q, -, hq⟩ := List.mem_map.mp h
  unfold Table.rewrite at hq
  split at hq
  · rw [← hq, Project.afterRun, if_pos (.inl hstatus)]
  · rename_i hother
    rw [hq] at hother
    exact absurd (beq_iff_eq.mpr hid) hother

/-- Where the project is updated no failure counts any more. -/
theorem not_keepsFailures (db' : Registry) {g : GitFinalization} {completedAt : String}
    {outcome : AgentRunOutcome} {p : Project}
    (hprojects : after.projects = (db'.updateProjectAfterRun outcome).projects)
    (hstatus : outcome.status = "success") (hproject : outcome.projectId = projectId)
    (hg : db.AwaitsAcknowledgement projectId codexSessionId g)
    (hcompletedAt : g.completedAt = some completedAt)
    (hfailure : db.CountsLaterFailure projectId codexSessionId completedAt p) :
    ¬ KeepsFailures db after projectId codexSessionId := by
  intro hkeeps
  obtain ⟨p', hp', hid, hcount, -⟩ := hkeeps g completedAt p hg.1 hg.2.1 hcompletedAt hfailure
  rw [hprojects] at hp'
  rw [failureCount_updated hstatus hp' (hid.trans hproject.symm)] at hcount
  have hcounted := hfailure.counted
  omega

theorem keepsFailures_of_eq (hprojects : after.projects = db.projects) :
    KeepsFailures db after projectId codexSessionId := by
  intro g completedAt p _ _ _ hfailure
  exact ⟨p, hprojects ▸ hfailure.mem, hfailure.id, rfl, rfl⟩

/-- An acknowledgement keeps the failures of other sessions exactly when it finds an older
success of its own. -/
theorem AckStep.keepsFailures_iff
    (h : AckStep db projectId codexSessionId acknowledgedAt after)
    (hproject : db.hasProject projectId = true) :
    KeepsFailures db after projectId codexSessionId ↔
      db.HasOlderSuccess projectId codexSessionId := by
  cases h with
  | refused hsettled =>
    refine iff_of_true (keepsFailures_of_eq rfl) fun g completedAt p hg hcompletedAt _ => ?_
    rcases hsettled with hsettled | hnone
    · rw [hsettled g hg] at hcompletedAt
      cases hcompletedAt
    · rw [hproject] at hnone
      cases hnone
  | repeated hg hacknowledged =>
    refine iff_of_true (keepsFailures_of_eq rfl) fun g' completedAt p hg' _ _ => ?_
    cases hg.symm.trans hg'.1
    rw [hg'.2.2] at hacknowledged
    cases hacknowledged
  | @found g completedAt r hg hcompletedAt hr hacknowledges =>
    by_cases hnewest : db.newestRunId projectId = r.id
    · rw [if_pos (beq_iff_eq.mpr hnewest)]
      constructor
      · intro hkeeps g' completedAt' p hg' hcompletedAt' hfailure
        exact absurd hkeeps (not_keepsFailures db rfl rfl rfl hg' hcompletedAt' hfailure)
      · intro holder g' completedAt' p hg' hstate hcompletedAt' hfailure
        cases hg'.symm.trans hg.1
        obtain ⟨r', hr', -, hne⟩ := holder g completedAt' p hg hcompletedAt' hfailure
        cases hr.symm.trans hr'
        exact absurd hnewest hne
    · rw [if_neg fun h => hnewest (beq_iff_eq.mp h)]
      refine iff_of_true (keepsFailures_of_eq rfl) fun g' completedAt' p hg' hcompletedAt' _ => ?_
      cases hg'.1.symm.trans hg.1
      cases hcompletedAt'.symm.trans hcompletedAt
      exact ⟨r, hr, hacknowledges, hnewest⟩
  | @recorded g completedAt runs hg hcompletedAt hnone hruns =>
    constructor
    · intro hkeeps g' completedAt' p hg' hcompletedAt' hfailure
      exact absurd hkeeps (not_keepsFailures { db with runs := runs } rfl rfl rfl hg'
        hcompletedAt' hfailure)
    · intro holder g' completedAt' p hg' hstate hcompletedAt' hfailure
      cases hg'.symm.trans hg.1
      obtain ⟨r, hr, hacknowledges, -⟩ := holder g completedAt' p hg hcompletedAt' hfailure
      cases hcompletedAt'.symm.trans hcompletedAt
      rw [hnone r hr] at hacknowledges
      cases hacknowledges

end Failures

/-! ## Any number of acknowledgements -/

/-- Acknowledgements of journals of the project, each with its reading of the clock. -/
def acknowledgeAll (projectId : Int) (acks : List (String × String)) (db : Registry) : Registry :=
  acks.foldl (fun db ack =>
    (db.acknowledgeCompletedGitFinalizationSession projectId ack.1 ack.2).db) db

/-- What is asked of the acknowledgements of a project's completed journals. -/
structure AcknowledgesAll (db : Registry) (projectId : Int) (acks : List (String × String)) :
    Prop where
  journals : ∀ session ∈ acks.map Prod.fst, ∀ g completedAt,
    db.AwaitsAcknowledgement projectId session g → g.completedAt = some completedAt →
    (acknowledgeAll projectId acks db).AcknowledgedBy g completedAt
  runs : ∃ recorded : List Run,
    (acknowledgeAll projectId acks db).runs.rows = db.runs.rows ++ recorded ∧
    (∀ session, recorded.countP (fun r => r.codexSessionId == some session) ≤ 1) ∧
    ∀ r ∈ recorded, ∃ session ∈ acks.map Prod.fst, r.codexSessionId = some session ∧
      ¬ db.Settled projectId session
  again : ∀ session ∈ acks.map Prod.fst, ∀ acknowledgedAt,
    let before := acknowledgeAll projectId acks db
    let after := (before.acknowledgeCompletedGitFinalizationSession projectId session
      acknowledgedAt).db
    after.runs = before.runs ∧ after.projects = before.projects ∧
      after.gitFinalizations = before.gitFinalizations
  controls : (∀ sc ∈ (acknowledgeAll projectId acks db).sessionControls,
      sc ∈ db.sessionControls) ∧
    ∀ sc ∈ db.sessionControls, sc ∈ (acknowledgeAll projectId acks db).sessionControls ∨
      ∃ session ∈ acks.map Prod.fst, lateResumeRequest projectId session sc = true
  failures : ∀ earlier session acknowledgedAt later,
    acks = earlier ++ (session, acknowledgedAt) :: later →
    KeepsFailures (acknowledgeAll projectId earlier db)
      (acknowledgeAll projectId (earlier ++ [(session, acknowledgedAt)]) db) projectId session

section Runs

variable {acks : List (String × String)} {session : String}

theorem acknowledgeAll_cons (ack : String × String) :
    acknowledgeAll projectId (ack :: acks) db = acknowledgeAll projectId acks
      (db.acknowledgeCompletedGitFinalizationSession projectId ack.1 ack.2).db := rfl

theorem acknowledgeAll_concat (ack : String × String) :
    acknowledgeAll projectId (acks ++ [ack]) db =
      ((acknowledgeAll projectId acks db).acknowledgeCompletedGitFinalizationSession projectId
        ack.1 ack.2).db := List.foldl_append ..

theorem hasProject_acknowledgeAll (id : Int) :
    (acknowledgeAll projectId acks db).hasProject id = db.hasProject id := by
  induction acks generalizing db with
  | nil => rfl
  | cons ack acks ih =>
    rw [acknowledgeAll_cons, ih, (acknowledge_cases db projectId ack.1 ack.2).hasProject]

/-- A journal that is acknowledged stays acknowledged by its run. -/
theorem AckStep.acknowledgedBy {after : Registry}
    (h : AckStep db projectId codexSessionId acknowledgedAt after) {g : GitFinalization}
    {completedAt : String} (hproject : db.hasProject projectId = true)
    (hg : g.projectId = projectId) (hacknowledged : db.AcknowledgedBy g completedAt) :
    after.AcknowledgedBy g completedAt := by
  obtain ⟨acknowledgedAt', r, hr, hrun, hsession, hgood, hjournal⟩ := hacknowledged
  have hrafter : r ∈ after.runs := by
    rcases h.runs with hruns | ⟨_, _, _, _, hruns⟩
    · rw [Table.mem_def, hruns]
      exact hr
    · rw [Table.mem_def, hruns]
      exact List.mem_append_left _ hr
  refine ⟨acknowledgedAt', r, hrafter, hrun, hsession, hgood, ?_⟩
  rw [hg] at hjournal ⊢
  by_cases hsame : g.codexSessionId = codexSessionId
  · rw [hsame] at hjournal ⊢
    rcases h.journal?_self hproject with ⟨heq, -⟩ | ⟨g', _, hawaits, -⟩
    · rw [heq, hjournal]
    · cases hjournal.symm.trans hawaits.1
      cases hawaits.2.2
  · rw [h.journal?_of_ne hsame, hjournal]

/-- What is settled stays settled. -/
theorem AckStep.settled {after : Registry}
    (h : AckStep db projectId codexSessionId acknowledgedAt after)
    (hproject : db.hasProject projectId = true) (hsettled : db.Settled projectId session) :
    after.Settled projectId session := by
  intro g hg
  by_cases hsame : session = codexSessionId
  · subst hsame
    rcases h.journal?_self hproject with ⟨heq, -⟩ | ⟨g', _, hawaits, hcompletedAt, -⟩
    · exact hsettled g ⟨heq ▸ hg.1, hg.2⟩
    · rw [hsettled g' hawaits] at hcompletedAt
      cases hcompletedAt
  · exact hsettled g ⟨h.journal?_of_ne hsame ▸ hg.1, hg.2⟩

/-- Once it is acknowledged, a session is settled. -/
theorem AckStep.settles {after : Registry}
    (h : AckStep db projectId codexSessionId acknowledgedAt after)
    (hproject : db.hasProject projectId = true) : after.Settled projectId codexSessionId := by
  intro g hg
  rcases h.journal?_self hproject with ⟨heq, hsettled⟩ | ⟨g', _, hawaits, -, hacknowledged⟩
  · exact hsettled g ⟨heq ▸ hg.1, hg.2⟩
  · obtain ⟨acknowledgedAt', r, -, -, -, -, hjournal⟩ := hacknowledged
    obtain ⟨rfl, rfl⟩ := projectId_of_journal? hawaits.1
    cases hjournal.symm.trans hg.1
    cases hg.2.2

theorem settled_acknowledgeAll (hproject : db.hasProject projectId = true)
    (h : db.Settled projectId session ∨ session ∈ acks.map Prod.fst) :
    (acknowledgeAll projectId acks db).Settled projectId session := by
  induction acks generalizing db with
  | nil =>
    rcases h with h | h
    · exact h
    · cases h
  | cons ack acks ih =>
    have hstep := acknowledge_cases db projectId ack.1 ack.2
    rw [acknowledgeAll_cons]
    refine ih ((hstep.hasProject projectId).trans hproject) ?_
    rcases h with h | h
    · exact .inl (hstep.settled hproject h)
    · rcases List.mem_cons.mp h with rfl | h
      · exact .inl (hstep.settles hproject)
      · exact .inr h

theorem acknowledgedBy_acknowledgeAll {g : GitFinalization} {completedAt : String}
    (hproject : db.hasProject projectId = true) (hg : g.projectId = projectId)
    (h : db.AcknowledgedBy g completedAt) :
    (acknowledgeAll projectId acks db).AcknowledgedBy g completedAt := by
  induction acks generalizing db with
  | nil => exact h
  | cons ack acks ih =>
    have hstep := acknowledge_cases db projectId ack.1 ack.2
    rw [acknowledgeAll_cons]
    exact ih ((hstep.hasProject projectId).trans hproject) (hstep.acknowledgedBy hproject hg h)

theorem journals_acknowledgeAll (hproject : db.hasProject projectId = true)
    (hsession : session ∈ acks.map Prod.fst) {g : GitFinalization} {completedAt : String}
    (hg : db.AwaitsAcknowledgement projectId session g)
    (hcompletedAt : g.completedAt = some completedAt) :
    (acknowledgeAll projectId acks db).AcknowledgedBy g completedAt := by
  induction acks generalizing db with
  | nil => cases hsession
  | cons ack acks ih =>
    have hstep := acknowledge_cases db projectId ack.1 ack.2
    have hproject' := (hstep.hasProject projectId).trans hproject
    rw [acknowledgeAll_cons]
    by_cases hsame : session = ack.1
    · subst hsame
      rcases hstep.journal?_self hproject with ⟨-, hsettled⟩ | ⟨g', _, hg', hc, hacknowledged⟩
      · rw [hsettled g hg] at hcompletedAt
        cases hcompletedAt
      · cases hg.1.symm.trans hg'.1
        cases hcompletedAt.symm.trans hc
        exact acknowledgedBy_acknowledgeAll hproject' (projectId_of_journal? hg.1).1 hacknowledged
    · rcases List.mem_cons.mp hsession with h | h
      · exact absurd h hsame
      · exact ih hproject' h ⟨(hstep.journal?_of_ne hsame).trans hg.1, hg.2⟩

theorem runs_acknowledgeAll (hproject : db.hasProject projectId = true) :
    ∃ recorded : List Run,
      (acknowledgeAll projectId acks db).runs.rows = db.runs.rows ++ recorded ∧
      (∀ session, recorded.countP (fun r => r.codexSessionId == some session) ≤ 1) ∧
      ∀ r ∈ recorded, ∃ session ∈ acks.map Prod.fst, r.codexSessionId = some session ∧
        ¬ db.Settled projectId session := by
  induction acks generalizing db with
  | nil => exact ⟨[], (List.append_nil _).symm, fun _ => Nat.zero_le _,
      fun _ h => absurd h List.not_mem_nil⟩
  | cons ack acks ih =>
    have hstep := acknowledge_cases db projectId ack.1 ack.2
    obtain ⟨recorded, hrows, hcount, hsessions⟩ :=
      ih ((hstep.hasProject projectId).trans hproject)
    have hlater (r : Run) (hr : r ∈ recorded) : ∃ session ∈ (ack :: acks).map Prod.fst,
        r.codexSessionId = some session ∧ ¬ db.Settled projectId session := by
      obtain ⟨session, hmem, hsession, hopen⟩ := hsessions r hr
      exact ⟨session, List.mem_cons_of_mem _ hmem, hsession,
        fun hsettled => hopen (hstep.settled hproject hsettled)⟩
    rw [acknowledgeAll_cons]
    rcases hstep.runs with hruns | ⟨g, completedAt, hg, hcompletedAt, hruns⟩
    · exact ⟨recorded, by rw [hrows, hruns], hcount, hlater⟩
    · refine ⟨_ :: recorded, by rw [hrows, hruns, List.append_assoc]; rfl, fun session => ?_,
        List.forall_mem_cons.mpr ⟨⟨ack.1, List.mem_cons_self, rfl, fun hsettled => ?_⟩, hlater⟩⟩
      · rw [List.countP_cons]
        by_cases hsame : ack.1 = session
        · -- The session is settled from here on, so that no further run is its own.
          have hnone : recorded.countP (fun r => r.codexSessionId == some session) = 0 := by
            refine List.countP_eq_zero.mpr fun r hr hown => ?_
            obtain ⟨session', -, hsession, hopen⟩ := hsessions r hr
            rw [hsession, beq_iff_eq, Option.some_inj] at hown
            exact hopen (hown ▸ hsame ▸ hstep.settles hproject)
          rw [hnone]
          split <;> omega
        · have hother : ¬ ((acknowledgementOutcome projectId ack.1 completedAt g.commitOid).toRun
              db.nextRunId none).codexSessionId == some session := by
            rw [beq_iff_eq]
            exact fun h => hsame (Option.some.inj h)
          rw [if_neg hother]
          exact hcount session
      · rw [hsettled g hg] at hcompletedAt
        cases hcompletedAt

theorem controls_acknowledgeAll :
    (∀ sc ∈ (acknowledgeAll projectId acks db).sessionControls, sc ∈ db.sessionControls) ∧
    ∀ sc ∈ db.sessionControls, sc ∈ (acknowledgeAll projectId acks db).sessionControls ∨
      ∃ session ∈ acks.map Prod.fst, lateResumeRequest projectId session sc = true := by
  induction acks generalizing db with
  | nil => exact ⟨fun _ h => h, fun _ h => .inl h⟩
  | cons ack acks ih =>
    rw [acknowledgeAll_cons]
    have hrest : (∀ sc ∈ (acknowledgeAll projectId acks (db.acknowledgeCompletedGitFinalizationSession
        projectId ack.1 ack.2).db).sessionControls, sc ∈ (db.acknowledgeCompletedGitFinalizationSession
          projectId ack.1 ack.2).db.sessionControls) ∧ _ := ih
    obtain ⟨hsub, hkept⟩ := hrest
    have hlater (sc : SessionControl)
        (h : sc ∈ (db.acknowledgeCompletedGitFinalizationSession projectId ack.1
          ack.2).db.sessionControls) := (hkept sc h).imp_right fun ⟨session, hmem, hlate⟩ =>
      (⟨session, List.mem_cons_of_mem _ hmem, hlate⟩ : ∃ session ∈ (ack :: acks).map Prod.fst,
        lateResumeRequest projectId session sc = true)
    rcases (acknowledge_cases db projectId ack.1 ack.2).sessionControls with heq | heq
    · rw [heq] at hsub hlater
      exact ⟨hsub, hlater⟩
    · rw [heq] at hsub hlater
      refine ⟨fun sc h => (Table.mem_delete.mp (hsub sc h)).1, fun sc h => ?_⟩
      cases hlate : lateResumeRequest projectId ack.1 sc with
      | true => exact .inr ⟨ack.1, List.mem_cons_self, hlate⟩
      | false => exact hlater sc (Table.mem_delete.mpr ⟨h, hlate⟩)

/-- The acknowledgements of a project's completed journals do all that is asked of them exactly
when each of them, where a later failure of another session counts, finds an older success of its
session that is not the project's newest run. -/
theorem acknowledgesAll_iff (db : Registry) (projectId : Int) (acks : List (String × String))
    (hproject : db.hasProject projectId = true) :
    AcknowledgesAll db projectId acks ↔
      ∀ earlier session acknowledgedAt later,
        acks = earlier ++ (session, acknowledgedAt) :: later →
        (acknowledgeAll projectId earlier db).HasOlderSuccess projectId session := by
  have hfailures (earlier : List (String × String)) (session acknowledgedAt : String) :
      KeepsFailures (acknowledgeAll projectId earlier db)
          (acknowledgeAll projectId (earlier ++ [(session, acknowledgedAt)]) db) projectId session ↔
        (acknowledgeAll projectId earlier db).HasOlderSuccess projectId session := by
    rw [acknowledgeAll_concat]
    exact (acknowledge_cases _ projectId session acknowledgedAt).keepsFailures_iff
      ((hasProject_acknowledgeAll projectId).trans hproject)
  constructor
  · intro h earlier session acknowledgedAt later hacks
    exact (hfailures earlier session acknowledgedAt).mp
      (h.failures earlier session acknowledgedAt later hacks)
  · intro h
    exact {
      journals := fun session hsession g completedAt hg hcompletedAt =>
        journals_acknowledgeAll hproject hsession hg hcompletedAt
      runs := runs_acknowledgeAll hproject
      again := fun session hsession acknowledgedAt =>
        (acknowledge_cases _ projectId session acknowledgedAt).of_settled
          (settled_acknowledgeAll hproject (.inr hsession))
      controls := controls_acknowledgeAll
      failures := fun earlier session acknowledgedAt later hacks =>
        (hfailures earlier session acknowledgedAt).mpr
          (h earlier session acknowledgedAt later hacks) }

end Runs

/-- A journal that was completed at ten. -/
def completedJournal : GitFinalization where
  projectId := 1
  codexSessionId := "a"
  state := .completed
  gitMode := .commit
  startingHead := some "head"
  branchRef := none
  upstreamRef := none
  worktreeBaseline := "base"
  taskIdentity := some "task"
  ownerRunToken := none
  commitOid := some "commit"
  generation := 3
  lastError := none
  createdAt := "5"
  updatedAt := "10"
  completedAt := some "10"
  acknowledgedAt := none
  acknowledgedRunId := none

/-- The failure of another session at twenty. -/
def laterFailure : Run where
  id := 2
  projectId := 1
  status := "failure"
  startedAt := "15"
  finishedAt := some "20"
  exitCode := some 1
  logDir := none
  stdoutPath := none
  stderrPath := none
  summary := none
  codexSessionId := some "b"
  workerToken := none

/-- The success of the session at eleven. -/
def olderSuccess : Run :=
  { laterFailure with
    id := 1, status := "success", finishedAt := some "11", codexSessionId := some "a" }

/-- The project after that failure. -/
def failedProject : Project where
  id := 1
  path := "/project"
  enabled := true
  gitMode := .commit
  lastRunAt := some "20"
  lastSuccessAt := none
  lastFailureAt := some "20"
  lastBlockedRecoveryAt := none
  failureCount := 1
  updatedAt := "20"

/-- The registry of that project. -/
def failedRegistry (runs : Table Run) : Registry :=
  { Registry.empty with
    projects := ⟨[failedProject], List.pairwise_singleton _ _⟩
    runs := runs
    gitFinalizations := ⟨[completedJournal], List.pairwise_singleton _ _⟩ }

/-- The runs of both sessions. -/
def bothRuns : Table Run := ⟨[olderSuccess, laterFailure], by decide⟩

theorem acknowledgesAll_olderSuccess :
    AcknowledgesAll (failedRegistry bothRuns) 1 [("a", "30")] := by
  refine (acknowledgesAll_iff (failedRegistry bothRuns) 1 [("a", "30")] (by decide)).mpr ?_
  intro earlier session acknowledgedAt later hacks
  cases earlier with
  | cons ack earlier =>
    have hlength := congrArg List.length hacks
    simp at hlength
  | nil =>
    cases hacks
    intro g completedAt p hg hcompletedAt _
    have hjournal : (failedRegistry bothRuns).journal? 1 "a" = some completedJournal := by decide
    cases hjournal.symm.trans hg.1
    cases hcompletedAt
    exact ⟨olderSuccess, by decide, by decide, by decide⟩

/-- The acknowledgement of an older completion clears the failure of another session. -/
theorem laterFailure_cleared :
    ¬ ∀ (db : Registry) (projectId : Int) (acks : List (String × String)),
      db.hasProject projectId = true → AcknowledgesAll db projectId acks := by
  intro h
  have hkeeps := (h (failedRegistry ⟨[laterFailure], List.pairwise_singleton _ _⟩) 1 [("a", "30")]
    (by decide)).failures [] "a" "30" [] rfl
  obtain ⟨p, hp, -, hcount, -⟩ := hkeeps completedJournal "10" failedProject (by decide) rfl rfl
    ⟨by decide, rfl, by decide, laterFailure, by decide, rfl, .inl rfl, by decide, rfl, 20, 10,
      by decide, by decide, by decide⟩
  have hcleared : ∀ p ∈ (acknowledgeAll 1 ([] ++ [("a", "30")]) (failedRegistry
      ⟨[laterFailure], List.pairwise_singleton _ _⟩)).projects, p.failureCount = 0 := by decide
  rw [hcleared p hp] at hcount
  cases hcount

end Registry

end Clt
