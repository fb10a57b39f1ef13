import Clt.Recovery.Consistency

/-!
# Opens, updates and repairs of the snapshot

None of them is admitted while a recovery is in progress or a storage failure is marked: from
such a directory they leave the files as they are (`Ordinary`). From every other they keep the
invariant at each step, wherever they are killed and whatever fails.
-/

namespace Clt

open Durable

section

variable {File : Type} {engine : StorageEngine File} {migrations : List AgentMigration}
  {w₀ : StateDir File}

/-- The database, its snapshot and the dirty marker are as they were. -/
def SameFiles (w₀ w : StateDir File) : Prop :=
  w.bundle = w₀.bundle ∧ w.snapshot = w₀.snapshot ∧ w.dirty = w₀.dirty ∧ w.latest = w₀.latest

/-- A recovery is in progress, or is asked for by a storage failure. -/
def NeedsRecovery (w : StateDir File) : Prop := w.progress ≠ none ∨ w.failureFound = true

variable (engine migrations) in
/-- Before anything was admitted. -/
def Entering (w₀ w : StateDir File) : Prop :=
  Consistent engine migrations w ∧ Held w₀ w ∧ (w₀.failureFound = true → w.failureFound = true) ∧
    SameFiles w₀ w

variable (engine migrations) in
/-- What an ordinary use of the registry keeps. -/
def Ordinary (w₀ w : StateDir File) : Prop :=
  Consistent engine migrations w ∧ Held w₀ w ∧ (NeedsRecovery w₀ → SameFiles w₀ w)

theorem Entering.ordinary {w : StateDir File} (h : Entering engine migrations w₀ w) :
    Ordinary engine migrations w₀ w :=
  ⟨h.1, h.2.1, fun _ => h.2.2.2⟩

theorem Idle.ordinary {w : StateDir File} (hfree : ¬ NeedsRecovery w₀)
    (h : Idle engine migrations w₀ w) : Ordinary engine migrations w₀ w :=
  ⟨h.1, h.2.1, fun hneeds => absurd hneeds hfree⟩

theorem Updating.ordinary {w : StateDir File} (hfree : ¬ NeedsRecovery w₀)
    (h : Updating engine migrations w₀ w) : Ordinary engine migrations w₀ w :=
  ⟨h.1, h.2.1, fun hneeds => absurd hneeds hfree⟩

theorem Entering.markerSafe : MarkerSafe (Entering engine migrations w₀) where
  lock w b h := ⟨Consistent.markerSafe.lock w b h.1, h.2⟩
  found w reason hreason h :=
    ⟨Consistent.markerSafe.found w reason hreason h.1, h.2.1, fun _ => rfl, h.2.2.2⟩
  required w reason hreason h := ⟨Consistent.markerSafe.required w reason hreason h.1, h.2⟩

theorem Ordinary.markerSafe : MarkerSafe (Ordinary engine migrations w₀) :=
  Consistent.markerSafe_and fun _ _ _ _ h => h

/-- What passes `check_required` was not blocked. -/
theorem guarded_entering_checkRequired {pre : StateDir File → Prop} (hpre : Unmarked pre) :
    Guarded Marks (Entering engine migrations w₀) pre checkRequired
      fun _ w => ¬ NeedsRecovery w₀ ∧ pre w := by
  refine guarded_demand Entering.markerSafe hpre fun w hw hp hc => ⟨?_, hp⟩
  rw [Bool.and_eq_true, Option.isNone_iff_eq_none, Option.isNone_iff_eq_none] at hc
  rintro (hprogress | hfound)
  · exact hprogress (hw.2.1.1.symm.trans hc.2)
  · obtain ⟨reason, hreason, -⟩ := hw.1.failure (hw.2.2.1 hfound)
    rw [hc.1] at hreason
    cases hreason

/-- What passes `check_clean` was not blocked, and nothing is going on. -/
theorem guarded_entering_checkClean :
    Guarded Marks (Entering engine migrations w₀) (fun _ => True) checkClean
      fun _ w => ¬ NeedsRecovery w₀ ∧ Outside false w := by
  have hrequired : Guarded Marks (Entering engine migrations w₀) (fun _ => True) checkRequired
      fun _ _ => ¬ NeedsRecovery w₀ :=
    (guarded_entering_checkRequired unmarked_true).of_ok fun _ _ _ hw => hw.1
  refine (guarded_checkClean Entering.markerSafe (fun _ _ _ _ h => h) hrequired).of_ok ?_
  intro _ w hw hpost
  refine ⟨hpost.1, ?_, hpost.2⟩
  rw [hw.2.1.1]
  exact Decidable.not_not.mp fun hprogress => hpost.1 (.inl hprogress)

variable {α : Type} {p : RegistryProgram File α} {pre : StateDir File → Prop}
  {ok : α → StateDir File → Prop}

/-- What runs while nothing is going on. -/
theorem guarded_of_idle (h : Guarded Marks (Idle engine migrations w₀) pre p ok) :
    Guarded Marks (Ordinary engine migrations w₀)
      (fun w => ¬ NeedsRecovery w₀ ∧ Outside false w ∧ pre w) p
      fun a w => ¬ NeedsRecovery w₀ ∧ Outside false w ∧ ok a w :=
  Guarded.of_fact fun hfree =>
    Guarded.within _ pre ok (fun _ hw hp => ⟨⟨hw.1, hw.2.1, hp.1⟩, hp.2⟩) h
      (fun _ => Idle.ordinary hfree) fun _ _ hidle hw => ⟨hfree, hidle.2.2, hw⟩

/-- What runs while an update is going on. -/
theorem guarded_of_updating (h : Guarded Marks (Updating engine migrations w₀) pre p ok) :
    Guarded Marks (Ordinary engine migrations w₀)
      (fun w => ¬ NeedsRecovery w₀ ∧ Outside true w ∧ pre w) p
      fun a w => ¬ NeedsRecovery w₀ ∧ Outside true w ∧ ok a w :=
  Guarded.of_fact fun hfree =>
    Guarded.within _ pre ok (fun _ hw hp => ⟨⟨hw.1, hw.2.1, hp.1⟩, hp.2⟩) h
      (fun _ => Updating.ordinary hfree) fun _ _ hupdating hw => ⟨hfree, hupdating.2.2, hw⟩

/-! ## Updates -/

/-- The transactions of an operation are committed while the directory is dirty. -/
theorem guarded_runOperation (operation : List (AgentRows → AgentRows)) :
    Guarded Marks (Updating engine migrations w₀) (fun _ => True) (runOperation engine operation)
      fun _ _ => True := by
  induction operation with
  | nil => exact guarded_effort workspace_updating.safe unmarked_true
  | cons transaction rest ih =>
    refine Guarded.bind (guarded_readRows workspace_updating.safe unmarked_true) fun rows => ?_
    refine Guarded.through (fun _ _ => True) ?_ fun _ => ih
    exact guarded_change workspace_updating.safe unmarked_rows fun w hw hrows =>
      ⟨hw.commit hrows, trivial⟩

theorem unmarked_free {dirty : Bool} (hpre : Unmarked pre) :
    Unmarked fun w => ¬ NeedsRecovery w₀ ∧ Outside dirty w ∧ pre w :=
  fun w required lock found h => ⟨h.1, h.2.1, hpre w required lock found h.2.2⟩

/-- The export of the rows committed last settles the directory. -/
theorem Consistent.settle {w : StateDir File} (h : Consistent engine migrations w)
    (hprogress : w.progress = none) (hexported : Exported engine w) :
    Consistent engine migrations { w with dirty := false } := by
  obtain ⟨r, s, hrows, hsnapshot, hexports⟩ := hexported
  refine ⟨fun _ _ => ?_, h.intact, fun _ hname => ?_, h.failure⟩
  swap
  · exact absurd (hname.symm.trans hprogress) (Option.some_ne_none _)
  show Current migrations w.latest w.snapshot
  rw [hsnapshot]
  exact ⟨r, r, h.latest_eq hprogress hrows, hexports, .refl⟩

/-- An update is finished once its rows are exported. -/
theorem guarded_finishUpdate :
    Guarded Marks (Ordinary engine migrations w₀)
      (fun w => ¬ NeedsRecovery w₀ ∧ Outside true w ∧ Exported engine w) finishUpdate fun _ _ => True := by
  refine Guarded.through (fun _ _ => True) ?_ fun _ =>
    guarded_effort Ordinary.markerSafe unmarked_true
  refine guarded_change Ordinary.markerSafe (unmarked_free unmarked_exported) fun w hw hp => ?_
  obtain ⟨hfree, hphase, hexported⟩ := hp
  exact ⟨⟨hw.1.settle hphase.1 hexported, hw.2.1, fun hneeds => absurd hneeds hfree⟩, trivial⟩

/-- `begin_update` marks the directory dirty. -/
theorem guarded_beginUpdate :
    Guarded Marks (Ordinary engine migrations w₀)
      (fun w => ¬ NeedsRecovery w₀ ∧ Outside false w ∧ True) (beginUpdate engine)
      fun _ w => ¬ NeedsRecovery w₀ ∧ Outside true w ∧ True := by
  have hfree : Unmarked fun w => ¬ NeedsRecovery w₀ ∧ Outside false w ∧ True := unmarked_free unmarked_true
  have hrequired : Guarded Marks (Ordinary engine migrations w₀)
      (fun w => ¬ NeedsRecovery w₀ ∧ Outside false w ∧ True) checkRequired
      fun _ w => ¬ NeedsRecovery w₀ ∧ Outside false w ∧ True :=
    (guarded_checkRequired Ordinary.markerSafe hfree).of_ok fun _ _ _ hw => hw.1
  refine Guarded.bind ((guarded_checkClean Ordinary.markerSafe hfree hrequired).of_ok
    fun _ _ _ hw => hw.1) fun _ => ?_
  refine Guarded.bind (guarded_checkWalWriteBudget Ordinary.markerSafe hfree) fun _ => ?_
  refine guarded_change Ordinary.markerSafe hfree fun w hw hp => ?_
  refine ⟨⟨⟨?_, hw.1.intact, fun _ hname => ?_, hw.1.failure⟩, hw.2.1,
    fun hneeds => absurd hneeds hp.1⟩, hp.1, ⟨hp.2.1.1, rfl⟩, trivial⟩
  · intro _ hdirty
    cases hdirty
  · exact absurd (hname.symm.trans hp.2.1.1) (Option.some_ne_none _)

/-- What runs before anything was admitted. -/
theorem guarded_of_entering
    (h : Guarded Marks (Entering engine migrations w₀) (fun _ => True) p ok) :
    Guarded Marks (Ordinary engine migrations w₀) (Entering engine migrations w₀) p
      fun a w => Entering engine migrations w₀ w ∧ ok a w :=
  Guarded.within _ (fun _ => True) ok (fun _ _ hw => ⟨hw, trivial⟩) h
    (fun _ => Entering.ordinary) fun _ _ hentering hw => ⟨hentering, hw⟩

/-- The first steps of an open, of an update and of a repair. -/
theorem guarded_entering_effort :
    Guarded Marks (Ordinary engine migrations w₀) (Entering engine migrations w₀)
      (effort : RegistryProgram File Unit) fun _ => Entering engine migrations w₀ :=
  (guarded_of_entering (guarded_effort Entering.markerSafe unmarked_true)).of_ok
    fun _ _ _ hw => hw.1

theorem guarded_admission :
    Guarded Marks (Ordinary engine migrations w₀) (Entering engine migrations w₀) checkClean
      fun _ w => ¬ NeedsRecovery w₀ ∧ Outside false w ∧ True :=
  (guarded_of_entering guarded_entering_checkClean).of_ok fun _ _ _ hw =>
    ⟨hw.2.1, hw.2.2, trivial⟩

/-- An update keeps the invariant at each of its steps. -/
theorem guarded_blockOnPersist (operation : List (AgentRows → AgentRows)) :
    Guarded Marks (Ordinary engine migrations w₀) (Entering engine migrations w₀)
      (blockOnPersist engine operation) fun _ _ => True := by
  have hcheckpoint : Guarded Marks (Idle engine migrations w₀) (fun _ => True)
      (blockOnRecovery (checkpointLiveRegistry engine)) fun _ _ => True :=
    guarded_blockOnRecovery workspace_idle.safe (guarded_checkpointLiveRegistry workspace_idle)
  have hoperation : Guarded Marks (Updating engine migrations w₀) (fun _ => True)
      (blockOn engine true (runOperation engine operation)).attempt fun _ _ => True :=
    (guarded_blockOn workspace_updating.safe unmarked_true (fun _ => unmarked_true) true
      (guarded_runOperation operation)).attempt.of_ok fun _ _ _ _ => trivial
  have hchecked : Guarded Marks (Updating engine migrations w₀) (fun _ => True)
      (checkRequired : RegistryProgram File Unit).attempt fun _ _ => True :=
    (guarded_checkRequired workspace_updating.safe unmarked_true).attempt.of_ok
      fun _ _ _ _ => trivial
  have hexport : Guarded Marks (Updating engine migrations w₀) (fun _ => True)
      (blockOn engine true (exportSnapshot engine)).attempt
      fun result w => ∀ a, result = .ok a → Exported engine w :=
    (guarded_blockOn workspace_updating.safe unmarked_true (fun _ => unmarked_exported) true
      (guarded_exportSnapshot workspace_updating.safe publishable_updating)).attempt
  refine Guarded.bind guarded_entering_effort fun _ => ?_
  refine Guarded.bind guarded_admission fun _ => ?_
  refine Guarded.bind (guarded_of_idle hcheckpoint) fun _ => ?_
  refine Guarded.bind guarded_beginUpdate fun _ => ?_
  refine Guarded.bind (guarded_of_updating hoperation) fun outcome => ?_
  refine Guarded.bind (guarded_of_updating hchecked) fun checked => ?_
  cases checked with
  | error recoveryError =>
    cases outcome with
    | ok _ => exact guarded_fail
    | error e => exact guarded_fail
  | ok _ =>
    refine Guarded.bind (guarded_of_updating hexport) fun exported => ?_
    cases exported with
    | error e =>
      -- The directory stays dirty, and marked.
      refine Guarded.bind (guarded_markRequired_isSome Ordinary.markerSafe ?_ ?_) fun _ =>
        guarded_fail
      · exact unmarked_free fun _ _ _ _ _ a ha => by cases ha
      · exact append_ne_of_head (by decide)
    | ok _ =>
      refine Guarded.through (fun _ _ => True) (guarded_finishUpdate.of_pre fun w _ hw =>
        ⟨hw.1, hw.2.1, hw.2.2 () rfl⟩) fun _ => ?_
      exact guarded_rethrow fun _ _ _ _ _ => trivial

/-! ## Opens -/

/-- A database is only made where there is no snapshot of another. -/
theorem guarded_buildDatabase :
    Guarded Marks (Idle engine migrations w₀)
      (fun w => w.snapshot = none ∨ w.bundle.db.isSome = true) (buildDatabase engine)
      fun _ _ => True := by
  refine guarded_change workspace_idle.safe (fun _ _ _ _ h => h) fun w hw hmissing => ?_
  refine ⟨?_, trivial⟩
  by_cases hdb : w.bundle.db.isSome = true
  · rw [if_pos hdb]
    exact hw
  · rw [if_neg hdb]
    have hnone : w.bundle.db = none := by
      rwa [Option.isSome_iff_ne_none, Decidable.not_not] at hdb
    have hsnapshot : w.snapshot = none := hmissing.resolve_right hdb
    have hsettle : w.settle .fresh = some .fresh := by simp [StateDir.settle, hw.2.2.1]
    refine ⟨⟨?_, ?_, ?_, hw.1.failure⟩, hw.2⟩
    · intro _ _
      show Current migrations (w.settle .fresh) w.snapshot
      rw [hsnapshot, hsettle]
      rintro rows hrows
      cases hrows
      exact .refl
    · intro _
      exact .inr ((engine.committed_create w.bundle hnone).trans hsettle.symm)
    · intro name hname
      rw [hw.2.2.1] at hname
      cases hname

theorem guarded_openDatabase :
    Guarded Marks (Idle engine migrations w₀)
      (fun w => w.snapshot = none ∨ w.bundle.db.isSome = true)
      (openDatabase engine migrations false) fun _ _ => True := by
  have hI : MarkerSafe (Idle engine migrations w₀) := workspace_idle.safe
  refine Guarded.bind guarded_buildDatabase fun _ => ?_
  refine Guarded.bind (guarded_effort hI unmarked_true) fun _ => ?_
  refine Guarded.bind (guarded_whenever fun _ => ?_) fun _ => ?_
  · exact Guarded.bind (guarded_checkpointLiveRegistry workspace_idle) fun _ =>
      guarded_checkWalWriteBudget hI unmarked_true
  refine Guarded.bind (guarded_applyMigrations workspace_idle (List.Subset.refl migrations))
    fun _ => ?_
  refine Guarded.bind (guarded_whenever fun _ => guarded_openCheckpointPin hI unmarked_true)
    fun _ => ?_
  exact guarded_pure fun _ _ _ => trivial

theorem guarded_checkHealthIfDue :
    Guarded Marks (Idle engine migrations w₀) (fun _ => True) (checkHealthIfDue engine)
      fun _ _ => True := by
  have hI : MarkerSafe (Idle engine migrations w₀) := workspace_idle.safe
  refine Guarded.through (fun _ _ => True)
    (guarded_step hI.stable unmarked_true.stable (fun _ _ hw _ => hw) fun _ _ _ _ _ _ => trivial)
    fun now => ?_
  refine Guarded.through (fun _ _ => True) (guarded_look hI unmarked_true fun _ _ h => h)
    fun last => ?_
  split
  · exact guarded_pure fun _ _ h => h
  refine Guarded.through (fun _ _ => True)
    ((guarded_integrityCheck hI unmarked_true).attempt.of_ok fun _ _ _ _ => trivial)
    fun checked => ?_
  rcases checked with (text | failures) | ⟨⟩
  · exact guarded_fail
  · exact Guarded.bind (guarded_markRequired hI unmarked_true
      (append_ne_of_head (by decide))) fun _ => guarded_fail
  · exact guarded_change hI unmarked_true fun w hw _ =>
      ⟨⟨⟨hw.1.settled, hw.1.intact, hw.1.retained, hw.1.failure⟩, hw.2⟩, trivial⟩

/-- An open keeps the invariant at each of its steps. -/
theorem guarded_openWithLocks :
    Guarded Marks (Ordinary engine migrations w₀) (Entering engine migrations w₀)
      (openWithLocks engine migrations) fun _ _ => True := by
  have hI : MarkerSafe (Idle engine migrations w₀) := workspace_idle.safe
  have hfound : Unmarked fun w : StateDir File => w.snapshot = none ∨ w.bundle.db.isSome = true :=
    fun _ _ _ _ h => h
  refine Guarded.bind guarded_entering_effort fun _ => ?_
  refine Guarded.bind guarded_admission fun _ => ?_
  refine Guarded.of_ok (guarded_of_idle (?_ : Guarded Marks (Idle engine migrations w₀)
    (fun _ => True) _ fun _ _ => True)) fun _ _ _ _ => trivial
  refine Guarded.through (fun missing w => missing = (w.snapshot.isSome && w.bundle.db.isNone))
    (guarded_look hI unmarked_true fun _ _ _ => rfl) fun missing => ?_
  refine Guarded.through (fun _ w => w.snapshot = none ∨ w.bundle.db.isSome = true) ?_ fun _ => ?_
  · unfold Procedure.whenever
    split
    · refine Guarded.bind (guarded_markRequired_isSome hI (fun _ _ _ _ h => h) (by decide))
        fun _ => ?_
      exact (guarded_checkRequired_of_isSome hI).of_ok fun _ _ _ hfalse => hfalse.elim
    · rename_i hfalse
      refine guarded_pure fun w _ hmissing => ?_
      rw [Bool.not_eq_true] at hfalse
      rw [hfalse] at hmissing
      rcases Bool.and_eq_false_iff.mp hmissing.symm with hsnapshot | hdb
      · exact .inl (Option.isSome_eq_false_iff.mp hsnapshot |> Option.isNone_iff_eq_none.mp)
      · exact .inr (Option.isNone_eq_false_iff.mp hdb)
  refine Guarded.bind (guarded_blockOn hI hfound (fun _ => unmarked_true) false
    guarded_openDatabase) fun pending => ?_
  refine Guarded.bind (guarded_blockOn hI unmarked_true (fun _ => unmarked_true) true
    guarded_checkHealthIfDue) fun _ => ?_
  refine Guarded.through (fun _ _ => True) (guarded_look hI unmarked_true fun _ _ h => h)
    fun unexported => ?_
  refine Guarded.bind (guarded_whenever fun _ => ?_) fun _ => guarded_pure fun _ _ _ => trivial
  exact (guarded_blockOn hI unmarked_true (fun _ => unmarked_exported) true
    (guarded_exportSnapshot hI publishable_idle)).of_ok fun _ _ _ _ => trivial

/-! ## The repair of an interrupted snapshot -/

theorem guarded_readManifest {I pre : StateDir File → Prop} (hI : MarkerSafe I)
    (hpre : Unmarked pre) :
    Guarded Marks I pre readManifest fun manifest w =>
      pre w ∧ ∀ m, manifest = some m → ∃ s, w.snapshot = some s ∧ readSnapshot s = .ok m := by
  refine Guarded.through (fun old w => pre w ∧ w.snapshot = old)
    (guarded_look hI hpre fun _ _ hw => ⟨hw, rfl⟩) fun old => ?_
  have hread : Unmarked fun w => pre w ∧ w.snapshot = old :=
    fun w required lock found hw => ⟨hpre w required lock found hw.1, hw.2⟩
  cases old with
  | none => exact guarded_pure fun _ _ hw => ⟨hw.1, fun m hm => by cases hm⟩
  | some s =>
    refine Guarded.bind (guarded_effort hI hread) fun _ => ?_
    cases hs : readSnapshot s with
    | error text => exact guarded_fail
    | ok manifest =>
      refine guarded_pure fun w _ hw => ⟨hw.1, fun m hm => ?_⟩
      cases hm
      exact ⟨s, hw.2, hs⟩

/-- A directory that may be repaired is dirty and blocked by nothing. -/
theorem not_needsRecovery_of_eligible {w : StateDir File} (h : Entering engine migrations w₀ w)
    (heligible : w.eligible = true) : ¬ NeedsRecovery w₀ ∧ Outside true w := by
  simp only [StateDir.eligible, Bool.and_eq_true, beq_iff_eq, Option.isNone_iff_eq_none]
    at heligible
  obtain ⟨⟨hdirty, hprogress⟩, hrequired⟩ := heligible
  refine ⟨?_, hprogress, hdirty⟩
  rintro (hneeds | hfound)
  · exact hneeds (h.2.1.1.symm.trans hprogress)
  · obtain ⟨reason, hreason, hne⟩ := h.1.failure (h.2.2.1 hfound)
    rw [hrequired] at hreason
    cases hreason
    exact hne rfl

/-- Under the lock of the marker, the verified snapshot takes the place of the old one. -/
theorem guarded_publishVerifiedSnapshot {s : RegistrySnapshot} :
    Guarded Marks (Ordinary engine migrations w₀)
      (fun w => ¬ NeedsRecovery w₀ ∧ Outside true w ∧ ∃ r, engine.rows w.bundle = some r ∧ Exports r s)
      (publishVerifiedSnapshot s) fun _ _ => True := by
  have hI : MarkerSafe (Ordinary engine migrations w₀) := Ordinary.markerSafe
  refine guarded_withMarkerLock hI (unmarked_free fun _ _ _ _ h => h) ?_
    fun _ => unmarked_true.steady
  refine Guarded.through (fun _ w => w.markerLock = true ∧
    w.required = some interruptedUpdateReason ∧ ¬ NeedsRecovery w₀ ∧ Outside true w ∧
      ∃ r, engine.rows w.bundle = some r ∧ Exports r s) ?_ fun _ => ?_
  · refine guarded_demand' hI.stable (stable_locked _) fun w _ hw heligible => ?_
    simp only [StateDir.eligible, Bool.and_eq_true, beq_iff_eq] at heligible
    exact ⟨hw.1, heligible.2, hw.2⟩
  refine Guarded.through (fun _ w => w.markerLock = true ∧
    w.required = some interruptedUpdateReason ∧ ¬ NeedsRecovery w₀ ∧ Outside true w ∧
      Exported engine w) ?_ fun _ => ?_
  · refine guarded_change' hI.stable (stable_locked _) fun w hw hp => ?_
    obtain ⟨hlock, hrequired, hfree, hphase, r, hrows, hexports⟩ := hp
    exact ⟨⟨hw.1.publish hphase.1 hrows hexports, hw.2.1, fun hneeds => absurd hneeds hfree⟩,
      hlock, hrequired, hfree, hphase, r, s, hrows, rfl, hexports⟩
  refine Guarded.through (fun _ w => ¬ NeedsRecovery w₀ ∧ Outside true w ∧ Exported engine w) ?_
    fun _ => ?_
  · -- The marker is still the one of an interrupted update: it hides no storage failure.
    refine guarded_change' hI.stable (stable_locked _) fun w hw hp => ?_
    obtain ⟨-, hrequired, hfree, hphase, hexported⟩ := hp
    refine ⟨⟨⟨hw.1.settled, hw.1.intact, hw.1.retained, fun hfound => ?_⟩, hw.2.1,
      fun hneeds => absurd hneeds hfree⟩, hfree, hphase, hexported⟩
    obtain ⟨reason, hreason, hne⟩ := hw.1.failure hfound
    rw [hrequired] at hreason
    cases hreason
    exact absurd rfl hne
  exact Guarded.bind (guarded_effort hI (unmarked_free unmarked_exported)) fun _ =>
    guarded_finishUpdate

/-- A repair keeps the invariant at each of its steps. -/
theorem guarded_tryRepair :
    Guarded Marks (Ordinary engine migrations w₀) (Entering engine migrations w₀)
      (tryRepair engine) fun _ _ => True := by
  have hU : MarkerSafe (Updating engine migrations w₀) := workspace_updating.safe
  have hread : Guarded Marks (Updating engine migrations w₀) (fun _ => True)
      (blockOnRecovery do
        effort
        openCheckpointPin engine
        integrityCheck engine
        let snapshot ← readCommittedSnapshot engine
        effort
        pure snapshot)
      fun s w => ∃ r, engine.rows w.bundle = some r ∧ Exports r s := by
    refine guarded_blockOnRecovery hU ?_
    refine Guarded.bind (guarded_effort hU unmarked_true) fun _ => ?_
    refine Guarded.bind (guarded_openCheckpointPin hU unmarked_true) fun _ => ?_
    refine Guarded.bind (guarded_integrityCheck hU unmarked_true) fun _ => ?_
    refine Guarded.bind (guarded_readCommittedSnapshot hU unmarked_true) fun s => ?_
    refine Guarded.bind (guarded_effort hU fun _ _ _ _ h => h) fun _ => ?_
    exact guarded_pure fun _ _ hw => hw
  have hlook : Guarded Marks (Entering engine migrations w₀) (fun _ => True)
      (look StateDir.eligible) fun eligible _ => eligible = true → ¬ NeedsRecovery w₀ :=
    guarded_look Entering.markerSafe unmarked_true fun w hw _ h => (not_needsRecovery_of_eligible hw h).1
  refine Guarded.through (fun _ => Entering engine migrations w₀)
    ((guarded_of_entering hlook).of_ok fun _ _ _ hw => hw.1) fun eligible => ?_
  split
  · exact guarded_pure fun _ _ _ => trivial
  refine Guarded.bind guarded_entering_effort fun _ => ?_
  refine Guarded.bind guarded_entering_effort fun _ => ?_
  refine Guarded.through (fun eligible w => eligible = true → ¬ NeedsRecovery w₀ ∧ Outside true w)
    ((guarded_of_entering (guarded_look Entering.markerSafe unmarked_true fun w hw _ =>
      not_needsRecovery_of_eligible hw)).of_ok fun _ _ _ hw => hw.2) fun eligible => ?_
  split
  · exact guarded_pure fun _ _ _ => trivial
  rename_i heligible
  rw [Bool.not_eq_true, Bool.not_eq_false'] at heligible
  refine Guarded.of_pre (?_ : Guarded Marks _ (fun w => ¬ NeedsRecovery w₀ ∧ Outside true w ∧ True) _ _)
    fun w _ hw => ⟨(hw heligible).1, (hw heligible).2, trivial⟩
  refine Guarded.through (fun _ w => ¬ NeedsRecovery w₀ ∧ Outside true w ∧ True)
    ((guarded_readManifest Ordinary.markerSafe (unmarked_free unmarked_true)).of_ok
      fun _ _ _ hw => hw.1) fun manifest => ?_
  refine Guarded.bind (guarded_demand Ordinary.markerSafe (unmarked_free unmarked_true)
    fun _ _ hw _ => hw) fun _ => ?_
  refine Guarded.bind (guarded_demand Ordinary.markerSafe (unmarked_free unmarked_true)
    fun _ _ hw _ => hw) fun _ => ?_
  refine Guarded.bind (guarded_of_updating hread) fun s => ?_
  refine Guarded.bind guarded_publishVerifiedSnapshot fun _ => ?_
  exact guarded_pure fun _ _ _ => trivial

end

end Clt
