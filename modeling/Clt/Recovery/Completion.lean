import Clt.Recovery.Restore
import Clt.Recovery.Runs

/-!
# Recovery comes to an end

Where no update was interrupted and `registry.json` is there, an explicit recovery that nobody
disturbs returns, from whatever state the recoveries before it were killed in: when the
original database cannot be used, the snapshot can always be restored
(`recovery_returns`).
-/

namespace Clt

open Durable

section

variable {File α : Type} {engine : StorageEngine File} {migrations : List AgentMigration}

/-- The step does not fail. -/
def Answer.Succeeds (i : Answer) : Prop := i.fails = false

variable {pre : StateDir File → Prop} {post : StateDir File → Prop}
  {ok : α → StateDir File → Prop} {error : StoreError → StateDir File → Prop}

/-! ## Undisturbed steps -/

theorem smoothly_change {f : StateDir File → StateDir File} (h : ∀ w, pre w → post (f w)) :
    Smoothly Answer.Succeeds pre (change f) (fun _ => post) error :=
  smoothly_step fun i w hi hw => by
    rw [show i.fails = false from hi]
    exact h w hw

theorem smoothly_query {f : StateDir File → Option α}
    (h : ∀ w, pre w → ∃ a, f w = some a ∧ ok a w) :
    Smoothly Answer.Succeeds pre (query f) ok error :=
  smoothly_step fun i w hi hw => by
    obtain ⟨a, ha, hok⟩ := h w hw
    rw [show i.fails = false from hi, ha]
    exact hok

theorem smoothly_effort :
    Smoothly Answer.Succeeds pre (effort : RegistryProgram File Unit) (fun _ => pre) error :=
  smoothly_query fun _ hw => ⟨(), rfl, hw⟩

theorem smoothly_look {f : StateDir File → α} (h : ∀ w, pre w → ok (f w) w) :
    Smoothly Answer.Succeeds pre (look f) ok error :=
  smoothly_step fun _ w _ hw => h w hw

theorem smoothly_demand {c : StateDir File → Bool} {text : String} (h : ∀ w, pre w → c w = true) :
    Smoothly Answer.Succeeds pre (demand c text) (fun _ => pre) error :=
  smoothly_step fun _ w _ hw => by
    rw [h w hw]
    exact hw

/-- The marker is written where nobody else writes it. -/
theorem smoothly_markRequired {reason : String}
    (h : ∀ w, pre w → post { w with required := some reason, markerLock := false }) :
    Smoothly Answer.Succeeds pre (markRequired reason) (fun _ => post) error := by
  refine Smoothly.through (fun _ w => ∃ v, pre v ∧ w = { v with markerLock := true })
    (smoothly_step fun i w hi hw => ?_) fun _ => ?_
  · rw [show i.fails = false from hi]
    exact ⟨w, hw, rfl⟩
  have hwrite : Smoothly Answer.Succeeds
      (fun w : StateDir File => ∃ v, pre v ∧ w = { v with markerLock := true })
      (writeRequired reason) (fun _ w => ∃ v, pre v ∧
        w = { v with required := some reason, markerLock := true }) fun _ _ => False := by
    refine smoothly_change ?_
    rintro w ⟨v, hv, rfl⟩
    exact ⟨v, hv, rfl⟩
  refine Smoothly.through _ hwrite.attempt fun result => ?_
  cases result with
  | error e =>
    exact fun _ _ _ _ h => h.elim
  | ok _ =>
    refine Smoothly.through (fun _ => post) (smoothly_step fun _ w _ hw => ?_) fun _ =>
      smoothly_pure fun _ hw => hw
    obtain ⟨v, hv, rfl⟩ := hw
    exact h v hv

/-! ## What ends -/

abbrev EndsSmoothly (p : RegistryProgram File α) : Prop := Ends Answer.Succeeds p

variable {p : RegistryProgram File α}

theorem ends_markRequired {reason : String} :
    EndsSmoothly (markRequired reason : RegistryProgram File Unit) :=
  Ends.bind ends_step fun _ => Ends.bind (Ends.attempt ends_step) fun _ =>
    Ends.bind ends_step fun _ => ends_rethrow

theorem ends_blockOnRecovery (h : EndsSmoothly p) : EndsSmoothly (blockOnRecovery p) := by
  refine Ends.bind h.attempt fun result => ?_
  cases result with
  | ok a => exact ends_pure
  | error e =>
    dsimp only
    split
    · exact Ends.bind ends_markRequired fun _ => ends_fail
    · exact ends_fail

theorem ends_applyMigrations (pending : List AgentMigration) :
    EndsSmoothly (applyMigrations engine pending) := by
  induction pending with
  | nil => exact ends_pure
  | cons m rest ih =>
    refine Ends.bind ends_step fun rows => ?_
    cases m.outcome rows with
    | applied => exact ih
    | deferred => exact ends_pure
    | migrated rows' => exact Ends.bind ends_step fun _ => ih

theorem ends_openForRecovery : EndsSmoothly (openForRecovery engine migrations) := by
  refine Ends.bind (ends_blockOnRecovery ?_) fun _ => ends_pure
  refine Ends.bind ends_step fun _ => Ends.bind ends_step fun _ => ?_
  refine Ends.bind (smoothly_whenever fun hfalse => absurd hfalse (by decide)) fun _ => ?_
  refine Ends.bind (ends_applyMigrations migrations) fun _ => ?_
  exact Ends.bind (ends_whenever ends_step) fun _ => ends_pure

theorem ends_readCommittedSnapshot : EndsSmoothly (readCommittedSnapshot engine) := by
  refine Ends.bind ends_step fun rows => ?_
  cases readDatabaseSnapshot rows.database.tables with
  | ok s => exact ends_pure
  | error e => exact ends_fail

theorem ends_exportSnapshot : EndsSmoothly (exportSnapshot engine) := by
  have honce : EndsSmoothly (snapshotOnce engine) :=
    Ends.bind ends_readCommittedSnapshot fun _ => Ends.bind ends_step fun _ =>
      ends_whenever ends_step
  unfold exportSnapshot
  generalize 2 = left
  induction left with
  | zero => exact honce
  | succ left ih =>
    refine Ends.bind honce.attempt fun result => ?_
    cases result with
    | ok _ => exact ends_pure
    | error e =>
      dsimp only
      split
      · exact ih
      · exact ends_fail

theorem ends_checkpointExclusiveRegistry :
    EndsSmoothly (checkpointExclusiveRegistry engine) := by
  refine Ends.bind (ends_blockOnRecovery ?_) fun _ => ends_blockOnRecovery ?_
  · refine Ends.bind (Ends.attempt ends_step) fun checked => ?_
    rcases checked with (text | failures) | ⟨⟩
    · exact ends_fail
    · dsimp only
      split
      · exact Ends.bind ends_step fun _ => Ends.bind ends_step fun _ => ends_step
      · exact ends_fail
    · exact ends_pure
  · exact Ends.bind ends_step fun _ => Ends.bind ends_step fun _ => ends_step

theorem ends_coordinationAttempt (automatic hasDatabase : Bool) :
    EndsSmoothly (coordinationAttempt engine migrations automatic hasDatabase) := by
  refine Ends.bind ends_step fun _ => Ends.bind ends_openForRecovery fun _ => ?_
  refine Ends.bind (ends_whenever ?_) fun _ => ?_
  · exact Ends.bind (ends_blockOnRecovery ends_readCommittedSnapshot) fun _ => ends_step
  refine Ends.bind ends_checkpointExclusiveRegistry fun _ => ?_
  refine Ends.bind (ends_blockOnRecovery ends_exportSnapshot) fun _ => ?_
  exact Ends.bind ends_step fun _ => ends_step

/-! ## What returns -/

abbrev ReturnsSmoothly (pre : StateDir File → Prop) (p : RegistryProgram File α)
    (ok : α → StateDir File → Prop) : Prop :=
  Returns Answer.Succeeds pre p ok

/-- What is attempted and returns leaves its value. -/
theorem returns_blockOnRecovery (h : ReturnsSmoothly pre p ok) :
    ReturnsSmoothly pre (blockOnRecovery p) ok := by
  refine Smoothly.through _ h.attempt fun result => ?_
  cases result with
  | ok a => exact smoothly_pure fun _ hw => hw
  | error e => exact fun _ _ _ _ hfalse => hfalse.elim

/-- The archive can be restored, which touches the bundle only. -/
theorem returns_restoreBundle {name : Nat} {archive : Archive File}
    (hpre : ∀ w, pre w → w.quarantine name = some archive)
    (hbundle : ∀ w b, pre w → pre { w with bundle := b }) :
    ReturnsSmoothly pre (restoreBundle name) fun _ => pre := by
  refine Smoothly.through (fun _ => pre)
    (smoothly_query fun w hw => ⟨archive, hpre w hw, hw⟩) fun original => ?_
  refine Smoothly.through (fun _ => pre) (smoothly_change fun w hw => hbundle w _ hw) fun _ => ?_
  refine Smoothly.through (fun _ => pre) (smoothly_change fun w hw => hbundle w _ hw) fun _ => ?_
  refine Smoothly.through (fun _ => pre) (smoothly_change fun w hw => hbundle w _ hw) fun _ => ?_
  refine Smoothly.through (fun _ => pre) (smoothly_change fun w hw => hbundle w _ hw) fun _ => ?_
  exact smoothly_effort

theorem returns_removeBundle :
    ReturnsSmoothly (fun _ : StateDir File => True) removeBundle fun _ w => w.bundle.db = none := by
  refine Smoothly.through (fun _ w => w.bundle.db = none) ?_ fun _ => ?_
  · exact smoothly_change fun _ _ => rfl
  refine Smoothly.through (fun _ w => w.bundle.db = none) ?_ fun _ => ?_
  · exact smoothly_change fun _ h => h
  refine Smoothly.through (fun _ w => w.bundle.db = none) ?_ fun _ => ?_
  · exact smoothly_change fun _ h => h
  exact smoothly_change fun _ h => h

/-! ## The manifest -/

/-- The export of a database can be exported again. -/
theorem exists_exports (r : AgentRows) : ∃ s, Exports r s := by
  have hread := snapshotOf_eq r.database
  unfold snapshotOf at hread
  cases hexport : readDatabaseSnapshot r.database.tables with
  | ok s => exact ⟨s, hexport⟩
  | error e =>
    rw [hexport] at hread
    cases hread

/-- What was exported can be read. -/
theorem Exports.readSnapshot {r : AgentRows} {s : RegistrySnapshot} (h : Exports r s) :
    readSnapshot s = .ok (completeSnapshot r.database.tables) := by
  have hread := snapshotOf_eq r.database
  unfold snapshotOf at hread
  rw [show readDatabaseSnapshot r.database.tables = .ok s from h] at hread
  exact hread

/-- The snapshot of a database can be restored over any rows. -/
theorem rebuiltRows_completeSnapshot (now : String) (r rows : AgentRows) :
    ∃ database, rebuiltRows now (completeSnapshot r.database.tables) rows =
      .ok ⟨database, rows.versions⟩ := by
  obtain ⟨database, hrestore, -⟩ := restore_spec now (sound_completeSnapshot r.database)
  have hchecked : checkedDatabase database.tables = some database := by
    unfold checkedDatabase
    rw [dif_pos ⟨database.foreignKeys, database.migrated⟩]
  refine ⟨database, ?_⟩
  unfold rebuiltRows
  rw [hrestore]
  show (checkedDatabase database.tables).elim _ _ = _
  rw [hchecked]
  rfl

/-! ## The rebuild -/

/-- The bundle can be read, and a first migration is applied or pending. -/
def Readable (engine : StorageEngine File) (pending : List AgentMigration) (w : StateDir File) :
    Prop :=
  ∃ r, engine.rows w.bundle = some r ∧
    (r.versions = [] → pending ≠ [] ∧ r.database.tables.agentWorkers.rows = [])

/-- The pending migrations of a new database are applied. -/
theorem returns_applyMigrations {P : StateDir File → Prop}
    (hP : ∀ w r, P w → P { w with bundle := engine.commit r w.bundle, latest := w.settle r })
    (pending : List AgentMigration) :
    ReturnsSmoothly (fun w => P w ∧ Readable engine pending w)
      (applyMigrations engine pending) fun _ w => P w ∧ Readable engine [] w := by
  induction pending with
  | nil => exact smoothly_pure fun _ hw => hw
  | cons m rest ih =>
    refine Smoothly.through (fun rows w => P w ∧ engine.rows w.bundle = some rows ∧
      (rows.versions = [] → rows.database.tables.agentWorkers.rows = []))
      (smoothly_query fun w hw => ?_) fun rows => ?_
    · obtain ⟨hp, r, hrows, hfirst⟩ := hw
      exact ⟨r, hrows, hp, hrows, fun hnone => (hfirst hnone).2⟩
    cases houtcome : m.outcome rows with
    | applied =>
      refine ih.mono (fun w hw => ⟨hw.1, rows, hw.2.1, fun hnone => ?_⟩) (fun _ _ h => h)
        fun _ _ h => h
      simp [AgentMigration.outcome, hnone] at houtcome
      split at houtcome <;> cases houtcome
    | deferred =>
      refine smoothly_pure fun w hw => ⟨hw.1, rows, hw.2.1, fun hnone => ?_⟩
      simp only [AgentMigration.outcome, hnone, List.not_mem_nil, if_false] at houtcome
      split at houtcome
      · rename_i hdeferred
        rw [workerSchemaMigrationIsDeferred, Bool.and_eq_true, Relational.Table.any,
          hw.2.2 hnone] at hdeferred
        cases hdeferred.2
      · cases houtcome
    | migrated rows' =>
      have hversions : rows'.versions ≠ [] := by
        unfold AgentMigration.outcome at houtcome
        split at houtcome
        · cases houtcome
        · split at houtcome
          · cases houtcome
          · cases houtcome
            simp
      refine Smoothly.through (fun _ w => P w ∧ Readable engine rest w)
        (smoothly_change fun w hw => ⟨hP w rows' hw.1, rows', ?_, fun hnone =>
          absurd hnone hversions⟩) fun _ => ih
      exact engine.committed_commit rows' w.bundle fun hnone => by
        rw [show engine.committed w.bundle.db w.bundle.wal = some rows from hw.2.1] at hnone
        cases hnone

/-- The marker of a recovery is there. -/
def MarkedRecovering (w : StateDir File) : Prop := w.required = some recoveringReason

theorem returns_openForRecovery (hmigrations : migrations ≠ []) :
    ReturnsSmoothly (fun w => MarkedRecovering w ∧ w.bundle.db = none)
      (openForRecovery engine migrations)
      fun _ w => MarkedRecovering w ∧ Readable engine [] w := by
  refine Smoothly.through (fun _ w => MarkedRecovering w ∧ Readable engine [] w)
    (returns_blockOnRecovery ?_) fun _ => smoothly_pure fun _ hw => hw
  refine Smoothly.through (fun _ w => MarkedRecovering w ∧ Readable engine migrations w) ?_
    fun _ => ?_
  · refine smoothly_change fun w hw => ?_
    rw [if_neg (by simp [hw.2])]
    exact ⟨hw.1, .fresh, engine.committed_create w.bundle hw.2, fun _ => ⟨hmigrations, rfl⟩⟩
  refine Smoothly.through _ smoothly_effort fun _ => ?_
  refine Smoothly.through _ (smoothly_whenever fun hfalse => absurd hfalse (by decide))
    fun _ => ?_
  refine Smoothly.through _ (returns_applyMigrations (fun _ _ h => h) migrations) fun _ => ?_
  refine Smoothly.through _ (smoothly_whenever fun _ => ?_) fun _ => smoothly_pure fun _ hw => hw
  refine smoothly_query fun w hw => ?_
  obtain ⟨hmarked, r, hrows, hversions⟩ := hw
  refine ⟨(), ?_, hmarked, r, hrows, hversions⟩
  rw [hrows]
  cases hv : r.versions with
  | nil => exact absurd rfl (hversions hv).1
  | cons version rest => simp [hv]

theorem returns_restoreFromSnapshot (r : AgentRows) :
    ReturnsSmoothly (fun w => MarkedRecovering w ∧ Readable engine [] w)
      (restoreFromSnapshot engine (completeSnapshot r.database.tables))
      fun _ w => MarkedRecovering w ∧ ∃ rebuilt, engine.rows w.bundle = some rebuilt := by
  refine Smoothly.through (fun rows w => MarkedRecovering w ∧ engine.rows w.bundle = some rows)
    (smoothly_query fun w hw => ?_) fun rows => ?_
  · obtain ⟨hmarked, rows, hrows, -⟩ := hw
    exact ⟨rows, hrows, hmarked, hrows⟩
  refine Smoothly.through (fun _ w => MarkedRecovering w ∧ engine.rows w.bundle = some rows)
    (smoothly_step fun _ _ _ hw => hw) fun now => ?_
  obtain ⟨database, hrebuilt⟩ := rebuiltRows_completeSnapshot (toString now) r rows
  rw [hrebuilt]
  refine Smoothly.through (fun _ w => MarkedRecovering w ∧
    ∃ rebuilt, engine.rows w.bundle = some rebuilt) ?_ fun _ => ?_
  · refine smoothly_change fun w hw => ⟨hw.1, _, engine.committed_commit _ w.bundle fun hnone => ?_⟩
    rw [show engine.committed w.bundle.db w.bundle.wal = some rows from hw.2] at hnone
    cases hnone
  · refine smoothly_query fun w hw => ?_
    obtain ⟨hmarked, rebuilt, hrows⟩ := hw
    exact ⟨(), by rw [hrows]; rfl, hmarked, rebuilt, hrows⟩

theorem returns_exportSnapshot :
    ReturnsSmoothly
      (fun w => MarkedRecovering w ∧ ∃ rows, engine.rows w.bundle = some rows)
      (exportSnapshot engine) fun _ => MarkedRecovering := by
  have honce : ReturnsSmoothly
      (fun w => MarkedRecovering w ∧ ∃ rows, engine.rows w.bundle = some rows)
      (snapshotOnce engine) fun _ => MarkedRecovering := by
    refine Smoothly.through (fun _ => MarkedRecovering) ?_ fun snapshot => ?_
    · refine Smoothly.through (fun _ => MarkedRecovering) (smoothly_query fun w hw => ?_)
        fun rows => ?_
      · obtain ⟨hmarked, rows, hrows⟩ := hw
        exact ⟨rows, hrows, hmarked⟩
      obtain ⟨s, hexports⟩ := exists_exports rows
      rw [show readDatabaseSnapshot rows.database.tables = .ok s from hexports]
      exact smoothly_pure fun _ hw => hw
    refine Smoothly.through (fun _ => MarkedRecovering) (smoothly_look fun _ hw => hw)
      fun old => ?_
    exact smoothly_whenever fun _ => smoothly_change fun _ hw => hw
  refine Smoothly.through _ honce.attempt fun result => ?_
  cases result with
  | ok _ => exact smoothly_pure fun _ hw => hw
  | error e => exact fun _ _ _ _ hfalse => hfalse.elim

/-- Where no update was interrupted, the snapshot of a database can always be rebuilt. -/
theorem returns_rebuildRegistry (hmigrations : migrations ≠ []) {name : Nat}
    {archive : Archive File} (r : AgentRows) :
    ReturnsSmoothly (fun w => w.quarantine name = some archive)
      (rebuildRegistry engine migrations false false name
        (some (completeSnapshot r.database.tables))) fun _ _ => True := by
  refine Smoothly.through _ (returns_restoreBundle (fun _ hw => hw) fun _ _ hw => hw) fun _ => ?_
  refine Smoothly.through _ (smoothly_demand fun _ _ => rfl) fun _ => ?_
  refine Smoothly.through _ (smoothly_demand fun _ _ => rfl) fun _ => ?_
  refine Smoothly.through (fun _ w => w.bundle.db = none)
    (returns_removeBundle.mono (fun _ _ => trivial) (fun _ _ hw => hw) fun _ _ hw => hw)
    fun _ => ?_
  refine Smoothly.through (fun _ w => MarkedRecovering w ∧ w.bundle.db = none)
    (smoothly_markRequired fun _ hw => ⟨rfl, hw⟩) fun _ => ?_
  refine Smoothly.through _ (Smoothly.attempt (?_ : ReturnsSmoothly _ _ fun _ _ => True))
    fun result => ?_
  · refine Smoothly.through _ (returns_openForRecovery hmigrations) fun _ => ?_
    refine Smoothly.through (fun _ => MarkedRecovering) (returns_blockOnRecovery ?_) fun _ => ?_
    · exact Smoothly.through _ (returns_restoreFromSnapshot r) fun _ => returns_exportSnapshot
    refine Smoothly.through _ smoothly_effort fun _ => ?_
    exact (smoothly_demand fun w hw => decide_eq_true hw).mono (fun _ hw => hw)
      (fun _ _ _ => trivial) fun _ _ hw => hw
  · cases result with
    | ok _ => exact smoothly_pure fun _ _ => trivial
    | error e => exact fun _ _ _ _ hfalse => hfalse.elim

/-! ## The archive -/

variable {w₀ : StateDir File}

/-- Undisturbed, an archive is taken or found again, and no update is marked. -/
theorem returns_takeArchive (h₀ : Consistent engine migrations w₀) (hfree : ¬ Interrupted w₀) :
    ReturnsSmoothly (fun w => w = w₀) (takeArchive w₀.progress.isSome false)
      fun _ w => w.dirty = false := by
  unfold takeArchive
  cases hprogress : w₀.progress with
  | none =>
    have hdirty : w₀.dirty = false := by
      by_contra hdirty
      exact hfree (.inl ⟨hprogress, by simpa using hdirty⟩)
    rw [if_neg (by decide)]
    refine Smoothly.mono (?_ : ReturnsSmoothly (fun w => w.dirty = false) _ fun _ w =>
      w.dirty = false) (fun w hw => by rw [hw, hdirty]) (fun _ _ hw => hw) fun _ _ hw => hw
    refine Smoothly.through (fun _ w => w.dirty = false) ?_ fun name => ?_
    · refine Smoothly.through _ smoothly_effort fun _ => ?_
      refine Smoothly.through (fun _ w => w.dirty = false)
        (smoothly_query fun w hw => ⟨w.bundle, rfl, hw⟩) fun bundle => ?_
      refine Smoothly.through (fun _ w => w.dirty = false)
        (smoothly_query fun w hw => ⟨w.snapshot, rfl, hw⟩) fun snapshot => ?_
      refine Smoothly.through (fun _ w => w.dirty = false)
        (smoothly_query fun w hw => ⟨w.dirty, rfl, hw⟩) fun dirty => ?_
      refine Smoothly.through (fun _ w => w.dirty = false)
        (smoothly_query fun w hw => ⟨w.required, rfl, hw⟩) fun required => ?_
      refine Smoothly.through _ smoothly_effort fun _ => ?_
      refine Smoothly.through (fun _ w => w.dirty = false) (smoothly_look fun _ hw => hw)
        fun name => ?_
      refine Smoothly.through (fun _ w => w.dirty = false) ?_ fun _ => ?_
      · exact smoothly_change fun _ hw => hw
      · exact Smoothly.through _ smoothly_effort fun _ => smoothly_pure fun _ hw => hw
    · refine Smoothly.through (fun _ w => w.dirty = false) ?_ fun _ =>
        smoothly_pure fun _ hw => hw
      exact smoothly_change fun _ hw => hw
  | some name =>
    obtain ⟨archive, harchive, -, hclean⟩ := h₀.retained name hprogress
    have hdirty : archive.dirty = false := by
      by_contra hdirty
      exact hfree (.inr ⟨name, archive, hprogress, harchive, by simpa using hdirty⟩)
    rw [if_pos Option.isSome_some]
    refine Smoothly.mono (?_ : ReturnsSmoothly (fun w => w.dirty = false ∧
      w.progress = some name ∧ w.quarantine name = some archive) _ fun _ w =>
        w.dirty = false) (fun w hw => by rw [hw]; exact ⟨(hclean hdirty).1, hprogress, harchive⟩)
          (fun _ _ hw => hw) fun _ _ hw => hw
    refine Smoothly.through (fun found w => found = name ∧ w.dirty = false ∧
      w.progress = some name ∧ w.quarantine name = some archive)
      (smoothly_query fun w hw => ⟨name, hw.2.1, rfl, hw⟩) fun found => ?_
    refine Smoothly.through _ (smoothly_demand fun w hw => by rw [hw.1, hw.2.2.2]; rfl)
      fun _ => ?_
    refine Smoothly.through _ (smoothly_whenever fun hfalse => absurd hfalse (by decide))
      fun _ => ?_
    refine Smoothly.through (fun interrupted w => interrupted = false ∧ found = name ∧
      w.dirty = false ∧ w.progress = some name ∧ w.quarantine name = some archive)
      (smoothly_look fun w hw => ⟨by rw [hw.1, hw.2.2.2]; exact hdirty, hw⟩) fun interrupted => ?_
    refine Smoothly.through (fun _ w => found = name ∧ w.dirty = false ∧
      w.progress = some name ∧ w.quarantine name = some archive) ?_ fun _ => ?_
    · unfold Procedure.whenever
      split
      · exact fun _ _ _ _ hw => absurd (‹interrupted = true›.symm.trans hw.1) (by decide)
      · exact smoothly_pure fun _ hw => hw.2
    refine Smoothly.through _ (returns_restoreBundle
      (fun w hw => by rw [hw.1]; exact hw.2.2.2) fun _ _ hw => hw) fun _ => ?_
    exact smoothly_pure fun _ hw => hw.2.1

theorem returns_finishRecovery :
    ReturnsSmoothly (fun _ => True) (finishRecovery engine) fun _ _ => True := by
  refine Smoothly.through (fun _ _ => True) ?_ fun _ => ?_
  · exact Smoothly.through (fun _ _ => True) (smoothly_change fun _ hw => hw)
      fun _ => smoothly_effort
  refine Smoothly.through (fun _ _ => True) (smoothly_change fun _ hw => hw) fun _ => ?_
  exact Smoothly.through (fun _ _ => True) (smoothly_change fun _ hw => hw)
    fun _ => smoothly_effort

/-! ## The whole recovery -/

/-- Undisturbed, the manifest of the directory is read. -/
theorem returns_readManifest {r : AgentRows} {s : RegistrySnapshot} (hs : w₀.snapshot = some s)
    (hexports : Exports r s) :
    ReturnsSmoothly (fun w => w = w₀) readManifest
      fun manifest w => manifest = some (completeSnapshot r.database.tables) ∧ w = w₀ := by
  refine Smoothly.through (fun snapshot w => snapshot = some s ∧ w = w₀)
    (smoothly_look fun w hw => ⟨by rw [hw, hs], hw⟩) fun snapshot => ?_
  refine smoothly_of_fact fun hsnapshot => ?_
  rw [hsnapshot]
  refine Smoothly.through _ smoothly_effort fun _ => ?_
  rw [hexports.readSnapshot]
  exact smoothly_pure fun _ hw => ⟨rfl, hw⟩

/-- Undisturbed, a recovery returns. -/
theorem returns_recoverRegistryWithPolicy (hmigrations : migrations ≠ [])
    (h₀ : Consistent engine migrations w₀) (hfree : ¬ Interrupted w₀)
    (hsnapshot : w₀.snapshot.isSome = true) :
    ReturnsSmoothly (fun w => w = w₀) (recoverRegistryWithPolicy engine migrations false false)
      fun _ _ => True := by
  obtain ⟨s, hs⟩ := Option.isSome_iff_exists.mp hsnapshot
  have hreconstructible := h₀.reconstructible hfree
  rw [hs] at hreconstructible
  obtain ⟨-, -, r, -, -, -, hexports⟩ := hreconstructible
  refine Smoothly.through (fun _ w => w = w₀) ((returns_readManifest hs hexports).mono
    (fun _ hw => hw) (fun _ _ hw => hw.2) fun _ _ hw => hw) fun drained => ?_
  refine Smoothly.through _ (smoothly_whenever fun _ => smoothly_effort) fun _ => ?_
  refine Smoothly.through _ smoothly_effort fun _ => ?_
  refine Smoothly.through _ smoothly_effort fun _ => ?_
  refine Smoothly.through _ (returns_readManifest hs hexports) fun manifest => ?_
  refine smoothly_of_fact fun hmanifest => ?_
  refine Smoothly.through _ (smoothly_whenever fun hfalse => absurd hfalse (by decide))
    fun _ => ?_
  refine Smoothly.through _ smoothly_effort fun _ => ?_
  refine Smoothly.through _ (smoothly_whenever fun _ => smoothly_effort) fun _ => ?_
  refine Smoothly.through (fun resuming w => resuming = w₀.progress.isSome ∧ w = w₀)
    (smoothly_look fun w hw => ⟨by rw [hw], hw⟩) fun resuming => ?_
  refine smoothly_of_fact fun hresuming => ?_
  refine Smoothly.through (fun name w => ∃ archive, w.dirty = false ∧
    Recovering engine migrations w₀ w ∧ Ready engine w₀ name archive w) ?_ fun name => ?_
  · rw [hresuming]
    have hguarded : Guarded Marks (Recovering engine migrations w₀) (fun w => w = w₀)
        (takeArchive w₀.progress.isSome false)
        fun name w => ∃ archive, Ready engine w₀ name archive w :=
      (guarded_takeArchive h₀ false).of_pre fun w _ hw => by rw [hw]; exact Untouched.self
    refine (hguarded.returns (fun w => .inl rfl)
      ((returns_takeArchive h₀ hfree).mono (fun _ hw => hw.2) (fun _ _ hw => hw)
        fun _ _ hw => hw)).mono (fun w hw => ?_) (fun name w hw => ?_) fun _ _ hw => hw
    · exact ⟨by rw [hw]; exact Untouched.self.recovering h₀, hw⟩
    · obtain ⟨hrecovering, ⟨archive, hready⟩, hdirty⟩ := hw
      exact ⟨archive, hdirty, hrecovering, hready⟩
  refine smoothly_of_exists fun archive => ?_
  refine Smoothly.through (fun dirty w => dirty = false ∧ Recovering engine migrations w₀ w ∧
    Ready engine w₀ name archive w) (smoothly_look fun w hw => hw) fun dirty => ?_
  refine smoothly_of_fact fun hdirty => ?_
  refine Smoothly.through (fun hasDatabase w => Retaining engine migrations w₀ name archive w ∧
    (hasDatabase = true → w.bundle.db.isSome = true) ∧
      engine.rows w.bundle = engine.rows archive.bundle)
    (smoothly_look fun w hw => ⟨⟨hw.1.1, hw.2.1⟩, fun h => h, hw.2.2.1⟩) fun hasDatabase => ?_
  refine Smoothly.through (fun _ w => Retaining engine migrations w₀ name archive w ∧
    (hasDatabase = true → w.bundle.db.isSome = true) ∧
      engine.rows w.bundle = engine.rows archive.bundle) ?_ fun _ => ?_
  · refine smoothly_markRequired fun w hw => ⟨?_, hw.2⟩
    exact Retaining.markerSafe.lock _ false
      (Retaining.markerSafe.required w recoveringReason (fun hreason => absurd hreason (by decide))
        hw.1)
  refine Smoothly.through (fun _ w => Retaining engine migrations w₀ name archive w ∧
    (hasDatabase = true → w.bundle.db.isSome = true) ∧
      engine.rows w.bundle = engine.rows archive.bundle) ?_ fun _ => ?_
  · exact smoothly_change fun w hw => ⟨⟨hw.1.1.withBundle hw.1.2.1 _, hw.1.2⟩, hw.2⟩
  refine Smoothly.through (fun _ w => Retaining engine migrations w₀ name archive w ∧
    (hasDatabase = true → w.bundle.db.isSome = true) ∧
      engine.rows w.bundle = engine.rows archive.bundle) ?_ fun _ => ?_
  · exact smoothly_change fun w hw => ⟨⟨hw.1.1.withBundle hw.1.2.1 _, hw.1.2⟩, hw.2⟩
  refine Smoothly.through _ smoothly_effort fun _ => ?_
  have hattempt : ReturnsSmoothly (fun w => Retaining engine migrations w₀ name archive w ∧
      (hasDatabase = true → w.bundle.db.isSome = true) ∧
        engine.rows w.bundle = engine.rows archive.bundle)
      (coordinationAttempt engine migrations false hasDatabase).attempt
      fun _ w => w.quarantine name = some archive := by
    refine (Smoothly.attempt ((guarded_coordinationAttempt false hasDatabase).smoothly
      (fun w => .inl rfl) (ends_coordinationAttempt false hasDatabase))).mono
        (fun w hw => ⟨hw.1, hw.2.1, fun r hr => hw.1.2.kept hw.1.1 hw.2.2 hr⟩)
        (fun result w hw => ?_) fun _ _ hw => hw
    cases result with
    | ok _ => exact hw.1.2.2.1
    | error e => exact hw.2.2.1
  refine Smoothly.through _ hattempt fun attempted => ?_
  refine Smoothly.through (fun _ _ => True) ?_ fun _ => ?_
  · unfold Procedure.whenever
    split
    · rw [hdirty, hmanifest]
      exact returns_rebuildRegistry hmigrations r
    · exact smoothly_pure fun _ _ => trivial
  refine Smoothly.through _ returns_finishRecovery fun _ => ?_
  refine Smoothly.through _ (smoothly_whenever fun hfalse => absurd hfalse.1 (by decide))
    fun _ => ?_
  exact smoothly_pure fun _ _ => trivial

/-- After any run, where no update was interrupted and the snapshot is there, an explicit
recovery that nobody disturbs returns, and has published the registry. -/
theorem recovery_returns (engine : StorageEngine File) (migrations : List AgentMigration)
    (hmigrations : migrations ≠ []) (events : List (RegistryEvent File))
    (h : AllowedRun engine migrations events {})
    (hfree : ¬ Interrupted (registryRun engine migrations events {}))
    (hsnapshot : (registryRun engine migrations events {}).snapshot.isSome = true)
    (fate : Fate Answer (StateDir File)) (hfate : Smooth Answer.Succeeds fate) :
    ∃ report, (recoverRegistryWithPolicy engine migrations false false fate 0
        (registryRun engine migrations events {})).1 = .returned report ∧
      Completed engine migrations (registryRun engine migrations events {})
        (recoverRegistryWithPolicy engine migrations false false fate 0
          (registryRun engine migrations events {})).2.2 := by
  have hconsistent := consistent_of_run h
  generalize registryRun engine migrations events {} = w at hconsistent hfree hsnapshot ⊢
  have hreturned := returns_recoverRegistryWithPolicy hmigrations hconsistent hfree hsnapshot fate
    hfate 0 w rfl
  have hothers : ∀ t w, Marks w (fate.others t w) := fun t w => .inl (hfate.others t w)
  have hmeets := guarded_recoverRegistryWithPolicy hconsistent false false fate hothers 0 w
    ⟨Untouched.self.recovering hconsistent, Untouched.self⟩
  rcases hresult : (recoverRegistryWithPolicy engine migrations false false fate 0 w).1
    with _ | e | report
  · rw [hresult] at hreturned
    exact hreturned.elim
  · rw [hresult] at hreturned
    exact hreturned.elim
  · rw [hresult] at hmeets
    exact ⟨report, rfl, hmeets.2.1⟩

theorem recovery_returns_opened :
    ∃ report, (recoverRegistryWithPolicy logEngine [firstMigration] false false (quietFate none) 0
        (registryRun logEngine [firstMigration] [.call .open (quietFate none)] {})).1 =
          .returned report ∧
      Completed logEngine [firstMigration]
        (registryRun logEngine [firstMigration] [.call .open (quietFate none)] {})
        (recoverRegistryWithPolicy logEngine [firstMigration] false false (quietFate none) 0
          (registryRun logEngine [firstMigration] [.call .open (quietFate none)] {})).2.2 := by
  refine recovery_returns logEngine [firstMigration] (by decide) [.call .open (quietFate none)]
    ⟨allowed_quiet, trivial⟩ ?_ rfl (quietFate none)
    ⟨fun _ _ => rfl, fun _ => rfl, fun _ => rfl⟩
  rintro (⟨-, hdirty⟩ | ⟨name, archive, hprogress, -, -⟩)
  · cases hdirty
  · cases hprogress

end

end Clt
