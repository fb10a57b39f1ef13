import Mathlib.Logic.Relation
import Clt.Recovery.Steps

/-!
# The invariant of the state directory

`registry.json` is the export of the committed rows whenever neither an update nor a recovery
has been interrupted: only the schema migrations of later opens may lie between the two
(`Current`). While a recovery is in progress, its archive holds the original bundle
(`Consistent.retained`), and what a rebuild would read descends from the rows committed last
(`Reconstructible`). Every step of an update and of an open keeps this.
-/

namespace Clt

open Durable Relation

section

variable (migrations : List AgentMigration)

/-- A pending migration turns the rows. -/
def Migration (r r' : AgentRows) : Prop := ∃ m ∈ migrations, m.outcome r = .migrated r'

/-- Migrations turn the rows, one after the other. -/
def Migrates : AgentRows → AgentRows → Prop := ReflTransGen (Migration migrations)

/-- The snapshot is the export of the rows. -/
def Exports (r : AgentRows) (s : RegistrySnapshot) : Prop :=
  readDatabaseSnapshot r.database.tables = .ok s

/-- The rows are rebuilt from an export of the others, in a new database. -/
def Rebuilds (r r' : AgentRows) : Prop :=
  ∃ s manifest now made, Exports r s ∧ readSnapshot s = .ok manifest ∧
    Migrates migrations .fresh made ∧ rebuiltRows now manifest made = .ok r'

/-- What recoveries make of rows: they migrate, or they are rebuilt. -/
def Descends : AgentRows → AgentRows → Prop :=
  ReflTransGen fun r r' => Migration migrations r r' ∨ Rebuilds migrations r r'

/-- The snapshot is the export of rows that migrations alone turn into the ones committed
last; without a snapshot, nothing but migrations was ever committed. -/
def Current (latest : Option AgentRows) : Option RegistrySnapshot → Prop
  | some s => ∃ rows r, latest = some rows ∧ Exports r s ∧ Migrates migrations r rows
  | none => ∀ rows, latest = some rows → Migrates migrations .fresh rows

/-- The snapshot is the export of rows that descend from the ones committed last, up to the
migrations since the last export. -/
def Reconstructible (latest : Option AgentRows) : Option RegistrySnapshot → Prop
  | some s => ∃ rows before r, latest = some rows ∧ Migrates migrations before rows ∧
      Descends migrations before r ∧ Exports r s
  | none => True

variable {migrations}

theorem Migrates.descends {r r' : AgentRows} (h : Migrates migrations r r') :
    Descends migrations r r' :=
  ReflTransGen.mono (fun _ _ => Or.inl) _ _ h

theorem Current.reconstructible {latest : Option AgentRows} {s : Option RegistrySnapshot}
    (h : Current migrations latest s) : Reconstructible migrations latest s := by
  cases s with
  | none => trivial
  | some s =>
    obtain ⟨rows, r, hlatest, hexports, hmigrates⟩ := h
    exact ⟨rows, r, r, hlatest, hmigrates, .refl, hexports⟩

/-- A migration of the committed rows leaves the snapshot current. -/
theorem Current.migrated {r r' : AgentRows} {s : Option RegistrySnapshot}
    (h : Current migrations (some r) s) (hmigration : Migration migrations r r') :
    Current migrations (some r') s := by
  cases s with
  | none =>
    intro rows hrows
    cases hrows
    exact (h r rfl).tail hmigration
  | some s =>
    obtain ⟨rows, before, hrows, hexports, hmigrates⟩ := h
    cases hrows
    exact ⟨r', before, rfl, hexports, hmigrates.tail hmigration⟩

end

section

variable {File : Type} (engine : StorageEngine File) (migrations : List AgentMigration)

/-- The invariant of the state directory. -/
structure Consistent (w : StateDir File) : Prop where
  settled : w.progress = none → w.dirty = false → Current migrations w.latest w.snapshot
  intact : w.progress = none →
    engine.rows w.bundle = none ∨ engine.rows w.bundle = w.latest
  retained : ∀ name, w.progress = some name → ∃ archive, w.quarantine name = some archive ∧
    (engine.rows archive.bundle = none ∨ engine.rows archive.bundle = w.latest) ∧
      (archive.dirty = false → w.dirty = false ∧ Reconstructible migrations w.latest w.snapshot)
  failure : w.failureFound = true → ∃ reason, w.required = some reason ∧
    reason ≠ interruptedUpdateReason

variable {engine migrations}

theorem storageFailure_interruptedUpdateReason :
    storageFailure interruptedUpdateReason = false := by
  unfold storageFailure interruptedUpdateReason
  simp only [List.any_cons, List.any_nil]
  -- A literal is its list of characters, which is decided without its bytes.
  repeat rw [String.toList_ofList]
  decide

theorem ne_interrupted_of_storageFailure {reason : String} (h : storageFailure reason = true) :
    reason ≠ interruptedUpdateReason := by
  rintro rfl
  rw [storageFailure_interruptedUpdateReason] at h
  cases h

/-- A text that begins otherwise. -/
theorem append_ne_of_head {head whole : List Char} {text : String}
    (h : head.isPrefixOf whole = false) : String.ofList head ++ text ≠ String.ofList whole := by
  intro heq
  have hwhole : head ++ text.toList = whole := by
    rw [← String.toList_ofList (l := whole), ← heq, String.toList_append, String.toList_ofList]
  have hstarts : head.isPrefixOf whole = true :=
    List.isPrefixOf_iff_prefix.mpr ⟨_, hwhole⟩
  rw [hstarts] at h
  cases h

theorem Consistent.markerSafe : MarkerSafe (Consistent engine migrations) where
  lock _ _ h := ⟨h.settled, h.intact, h.retained, h.failure⟩
  found _ reason hreason h :=
    ⟨h.settled, h.intact, h.retained, fun _ => ⟨reason, rfl, ne_interrupted_of_storageFailure hreason⟩⟩
  required w reason hreason h := by
    refine ⟨h.settled, h.intact, h.retained, fun hfound => ⟨reason, rfl, ?_⟩⟩
    rintro rfl
    obtain ⟨old, hold, -⟩ := h.failure hfound
    rw [hreason rfl] at hold
    cases hold

/-! ## Guards -/

variable (engine migrations) in
/-- What a guard has to allow for the engine to work on the bundle under it. -/
structure Workspace (I : StateDir File → Prop) : Prop where
  safe : MarkerSafe I
  checkpoint : ∀ w, I w → I { w with bundle := engine.checkpoint w.bundle }
  reindex : ∀ w, I w → I { w with bundle := engine.reindex w.bundle }
  migrate : ∀ w r r', I w → engine.rows w.bundle = some r → Migration migrations r r' →
    I { w with bundle := engine.commit r' w.bundle, latest := w.settle r' }

/-- The snapshot is the export of the rows in the bundle. -/
def Exported (engine : StorageEngine File) (w : StateDir File) : Prop :=
  ∃ r s, engine.rows w.bundle = some r ∧ w.snapshot = some s ∧ Exports r s

/-- The guard allows the export of the rows in the bundle. -/
def Publishable (engine : StorageEngine File) (I : StateDir File → Prop) : Prop :=
  ∀ w r s, I w → engine.rows w.bundle = some r → Exports r s → I { w with snapshot := some s }

theorem unmarked_true : Unmarked fun _ : StateDir File => True := fun _ _ _ _ h => h

theorem unmarked_exported : Unmarked (Exported engine) := fun _ _ _ _ h => h

theorem unmarked_rows {r : AgentRows} : Unmarked fun w => engine.rows w.bundle = some r :=
  fun _ _ _ _ h => h

section

variable {I pre : StateDir File → Prop} {α : Type} {ok : α → StateDir File → Prop}
  {p : RegistryProgram File α}

theorem guarded_readRows (hI : MarkerSafe I) (hpre : Unmarked pre) :
    Guarded Marks I pre (readRows engine) fun rows w => engine.rows w.bundle = some rows :=
  guarded_query hI hpre fun _ _ _ _ h => h

theorem guarded_readCommittedSnapshot (hI : MarkerSafe I) (hpre : Unmarked pre) :
    Guarded Marks I pre (readCommittedSnapshot engine)
      fun s w => ∃ r, engine.rows w.bundle = some r ∧ Exports r s := by
  refine Guarded.bind (guarded_readRows hI hpre) fun rows => ?_
  cases hread : readDatabaseSnapshot rows.database.tables with
  | ok s => exact guarded_pure fun _ _ hrows => ⟨rows, hrows, hread⟩
  | error e => exact guarded_fail

/-- What runs under `block_on_recovery` leaves what it leaves alone. -/
theorem guarded_blockOnRecovery (hI : MarkerSafe I) (h : Guarded Marks I pre p ok) :
    Guarded Marks I pre (blockOnRecovery p) ok := by
  refine Guarded.bind h.attempt fun result => ?_
  cases result with
  | ok a => exact guarded_pure fun _ _ hw => hw a rfl
  | error e =>
    refine Guarded.within I (fun _ => True) (fun _ _ => False) (fun _ hw _ => ⟨hw, trivial⟩) ?_
      (fun _ hw => hw) fun _ _ _ hfalse => hfalse.elim
    by_cases hstorage : storageFailure e.text = true
    · simp only [hstorage, if_true]
      exact Guarded.bind (guarded_markRequired hI unmarked_true
        (ne_interrupted_of_storageFailure hstorage)) fun _ => guarded_fail
    · simp only [hstorage]
      exact guarded_fail

theorem guarded_openCheckpointPin (hI : MarkerSafe I) (hpre : Unmarked pre) :
    Guarded Marks I pre (openCheckpointPin engine) fun _ => pre :=
  guarded_query hI hpre fun _ _ _ hp _ => hp

/-- What `block_on` runs leaves what it leaves alone. -/
theorem guarded_blockOn (hI : MarkerSafe I) (hpre : Unmarked pre) (hok : ∀ a, Unmarked (ok a))
    (attached : Bool) (h : Guarded Marks I pre p ok) :
    Guarded Marks I pre (blockOn engine attached p) ok := by
  refine Guarded.through (fun _ => pre)
    ((guarded_checkRequired hI hpre).of_ok fun _ _ _ hw => hw.1) fun _ => ?_
  refine guarded_blockOnRecovery hI (Guarded.through (fun _ => pre)
    (guarded_whenever fun _ => guarded_openCheckpointPin hI hpre) fun _ => ?_)
  refine Guarded.bind h.attempt fun result => ?_
  cases result with
  | ok a =>
    have hkept : Unmarked fun w => ∀ b, (Except.ok a : Except StoreError α) = .ok b → ok b w :=
      fun w required lock found hw b hb => hok b w required lock found (hw b hb)
    exact Guarded.bind (guarded_whenever fun _ => guarded_effort hI hkept) fun _ =>
      guarded_pure fun _ _ hw => hw a rfl
  | error e =>
    have hkept : Unmarked fun w => ∀ b, (Except.error e : Except StoreError α) = .ok b → ok b w :=
      fun _ _ _ _ _ b hb => by cases hb
    exact Guarded.bind (guarded_whenever fun _ => guarded_effort hI hkept) fun _ => guarded_fail

/-! ## What runs on the bundle -/

theorem guarded_walCheckpoint (hI : Workspace engine migrations I) :
    Guarded Marks I (fun _ => True) (walCheckpoint engine) fun _ _ => True :=
  guarded_change hI.safe unmarked_true fun w hw _ => ⟨hI.checkpoint w hw, trivial⟩

theorem guarded_checkpointLiveRegistry (hI : Workspace engine migrations I) :
    Guarded Marks I (fun _ => True) (checkpointLiveRegistry engine) fun _ _ => True := by
  refine Guarded.through (fun _ _ => True) (guarded_look hI.safe unmarked_true fun _ _ h => h)
    fun length => guarded_whenever fun _ => ?_
  exact Guarded.bind (guarded_effort hI.safe unmarked_true) fun _ => guarded_walCheckpoint hI

theorem guarded_checkWalWriteBudget (hI : MarkerSafe I) (hpre : Unmarked pre) :
    Guarded Marks I pre (checkWalWriteBudget engine) fun _ => pre :=
  guarded_demand hI hpre fun _ _ hw _ => hw

theorem guarded_integrityCheck (hI : MarkerSafe I) (hpre : Unmarked pre) :
    Guarded Marks I pre (integrityCheck engine) fun _ => pre :=
  guarded_query hI hpre fun _ _ _ hw _ => hw

/-- One migration after the other is committed under the guard. -/
theorem guarded_applyMigrations (hI : Workspace engine migrations I)
    {pending : List AgentMigration} (hpending : pending ⊆ migrations) :
    Guarded Marks I (fun _ => True) (applyMigrations engine pending) fun _ _ => True := by
  induction pending with
  | nil => exact guarded_pure fun _ _ h => h
  | cons m rest ih =>
    have hrest := ih fun m' hm' => hpending (List.mem_cons_of_mem m hm')
    refine Guarded.bind (guarded_readRows hI.safe unmarked_true) fun rows => ?_
    cases houtcome : m.outcome rows with
    | applied => exact hrest.of_pre fun _ _ _ => trivial
    | deferred => exact guarded_pure fun _ _ _ => trivial
    | migrated rows' =>
      refine Guarded.through (fun _ _ => True) ?_ fun _ => hrest
      exact guarded_change hI.safe unmarked_rows fun w hw hrows =>
        ⟨hI.migrate w rows rows' hw hrows ⟨m, hpending List.mem_cons_self, houtcome⟩, trivial⟩

/-- The export of the rows in the bundle leaves them exported. -/
theorem guarded_snapshotOnce (hI : MarkerSafe I) (hpublish : Publishable engine I) :
    Guarded Marks I (fun _ => True) (snapshotOnce engine) fun _ => Exported engine := by
  refine Guarded.bind (guarded_readCommittedSnapshot hI unmarked_true) fun s => ?_
  have hread : Unmarked fun w => ∃ r, engine.rows w.bundle = some r ∧ Exports r s :=
    fun _ _ _ _ h => h
  refine Guarded.through (fun old w => old = w.snapshot ∧ ∃ r, engine.rows w.bundle = some r ∧
    Exports r s) (guarded_look hI hread fun _ _ h => ⟨rfl, h⟩) fun old => ?_
  unfold Procedure.whenever
  split
  · refine guarded_change hI (fun _ _ _ _ h => h) fun w hw hold => ?_
    obtain ⟨-, r, hrows, hexports⟩ := hold
    exact ⟨hpublish w r s hw hrows hexports, r, s, hrows, rfl, hexports⟩
  · refine guarded_pure fun w _ hw => ?_
    obtain ⟨hold, r, hrows, hexports⟩ := hw
    exact ⟨r, s, hrows, hold.symm.trans (Decidable.not_not.mp ‹_›), hexports⟩

theorem guarded_exportSnapshot (hI : MarkerSafe I) (hpublish : Publishable engine I) :
    Guarded Marks I (fun _ => True) (exportSnapshot engine) fun _ => Exported engine := by
  unfold exportSnapshot
  generalize 2 = left
  induction left with
  | zero => exact guarded_snapshotOnce hI hpublish
  | succ left ih =>
    refine Guarded.bind (guarded_snapshotOnce hI hpublish).attempt fun result => ?_
    cases result with
    | ok _ => exact guarded_pure fun _ _ hw => hw () rfl
    | error e =>
      by_cases hlocked : e = .message "database is locked"
      · simp only [hlocked, if_true]
        exact ih.of_pre fun _ _ _ => trivial
      · simp only [hlocked, if_false]
        exact guarded_fail

end

/-! ## Opening and updating -/

/-- Nothing was put into quarantine and no recovery began or ended since `w₀`. -/
def Held (w₀ w : StateDir File) : Prop :=
  w.progress = w₀.progress ∧ w.quarantine = w₀.quarantine ∧ w.archives = w₀.archives

/-- No recovery is in progress, and the directory is dirty or is not. -/
def Outside (dirty : Bool) (w : StateDir File) : Prop := w.progress = none ∧ w.dirty = dirty

variable (engine migrations) in
/-- Nothing is going on in the directory. -/
def Idle (w₀ w : StateDir File) : Prop :=
  Consistent engine migrations w ∧ Held w₀ w ∧ Outside false w

variable (engine migrations) in
/-- An update is going on in the directory. -/
def Updating (w₀ w : StateDir File) : Prop :=
  Consistent engine migrations w ∧ Held w₀ w ∧ Outside true w

/-- A guard that adds to the invariant what does not look at the marker. -/
theorem Consistent.markerSafe_and {pre : StateDir File → Prop} (hpre : Unmarked pre) :
    MarkerSafe fun w => Consistent engine migrations w ∧ pre w where
  lock w b h := ⟨Consistent.markerSafe.lock w b h.1, hpre w w.required b w.failureFound h.2⟩
  found w reason hreason h :=
    ⟨Consistent.markerSafe.found w reason hreason h.1, hpre w (some reason) w.markerLock true h.2⟩
  required w reason hreason h :=
    ⟨Consistent.markerSafe.required w reason hreason h.1,
      hpre w (some reason) w.markerLock w.failureFound h.2⟩

/-- Outside of a recovery, other files with the same rows, or with rows that were committed
over them, keep the invariant. -/
theorem Consistent.commit {w : StateDir File} {r r' : AgentRows}
    (h : Consistent engine migrations w) (hprogress : w.progress = none)
    (hrows : engine.rows w.bundle = some r)
    (hsettled : w.dirty = false → Current migrations (some r') w.snapshot) :
    Consistent engine migrations
      { w with bundle := engine.commit r' w.bundle, latest := w.settle r' } := by
  have hlatest : w.settle r' = some r' := by simp [StateDir.settle, hprogress]
  have hcommitted : engine.rows (engine.commit r' w.bundle) = some r' :=
    engine.committed_commit r' w.bundle fun hnone => by
      rw [StorageEngine.rows, hnone] at hrows
      cases hrows
  rw [hlatest]
  refine ⟨fun _ hdirty => hsettled hdirty, fun _ => .inr hcommitted, ?_, h.failure⟩
  intro name hname
  rw [hprogress] at hname
  cases hname

theorem Consistent.sameRows {w : StateDir File} {b : Bundle File}
    (h : Consistent engine migrations w) (hrows : engine.rows b = engine.rows w.bundle) :
    Consistent engine migrations { w with bundle := b } := by
  refine ⟨h.settled, fun hprogress => ?_, h.retained, h.failure⟩
  show engine.rows b = none ∨ engine.rows b = w.latest
  rw [hrows]
  exact h.intact hprogress

/-- Outside of a recovery, the rows that can be read are the ones committed last. -/
theorem Consistent.latest_eq {w : StateDir File} {r : AgentRows}
    (h : Consistent engine migrations w) (hprogress : w.progress = none)
    (hrows : engine.rows w.bundle = some r) : w.latest = some r := by
  rcases h.intact hprogress with hnone | hsome
  · rw [hnone] at hrows
    cases hrows
  · rw [← hsome, hrows]

theorem workspace_idle {w₀ : StateDir File} :
    Workspace engine migrations (Idle engine migrations w₀) where
  safe := Consistent.markerSafe_and fun _ _ _ _ h => h
  checkpoint w h := ⟨h.1.sameRows (engine.committed_checkpoint w.bundle), h.2⟩
  reindex w h := ⟨h.1.sameRows (engine.committed_reindex w.bundle), h.2⟩
  migrate w r r' h hrows hmigration := by
    refine ⟨h.1.commit h.2.2.1 hrows fun hdirty => ?_, h.2⟩
    have hcurrent := h.1.settled h.2.2.1 hdirty
    rw [h.1.latest_eq h.2.2.1 hrows] at hcurrent
    exact hcurrent.migrated hmigration

/-- Whatever an update commits, the invariant holds. -/
theorem Updating.commit {w₀ w : StateDir File} {r r' : AgentRows}
    (h : Updating engine migrations w₀ w) (hrows : engine.rows w.bundle = some r) :
    Updating engine migrations w₀
      { w with bundle := engine.commit r' w.bundle, latest := w.settle r' } :=
  ⟨h.1.commit h.2.2.1 hrows fun hclean => absurd (h.2.2.2.symm.trans hclean) (by decide), h.2⟩

theorem workspace_updating {w₀ : StateDir File} :
    Workspace engine migrations (Updating engine migrations w₀) where
  safe := Consistent.markerSafe_and fun _ _ _ _ h => h
  checkpoint w h := ⟨h.1.sameRows (engine.committed_checkpoint w.bundle), h.2⟩
  reindex w h := ⟨h.1.sameRows (engine.committed_reindex w.bundle), h.2⟩
  migrate _ _ _ h hrows _ := h.commit hrows

/-- Outside of a recovery, the rows that can be read may be exported. -/
theorem Consistent.publish {w : StateDir File} {r : AgentRows} {s : RegistrySnapshot}
    (h : Consistent engine migrations w) (hprogress : w.progress = none)
    (hrows : engine.rows w.bundle = some r) (hexports : Exports r s) :
    Consistent engine migrations { w with snapshot := some s } := by
  refine ⟨fun _ _ => ⟨r, r, h.latest_eq hprogress hrows, hexports, .refl⟩, h.intact, ?_, h.failure⟩
  intro name hname
  rw [hprogress] at hname
  cases hname

theorem publishable_idle {w₀ : StateDir File} :
    Publishable engine (Idle engine migrations w₀) :=
  fun _ _ _ h hrows hexports => ⟨h.1.publish h.2.2.1 hrows hexports, h.2⟩

theorem publishable_updating {w₀ : StateDir File} :
    Publishable engine (Updating engine migrations w₀) :=
  fun _ _ _ h hrows hexports => ⟨h.1.publish h.2.2.1 hrows hexports, h.2⟩

end

end Clt
