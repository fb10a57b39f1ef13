import Clt.Transition.Exec
import Clt.Recovery.Exclusive

/-!
# Runs of a state directory

Every open, update, repair and recovery holds the writer lock while it writes, so they come
one after the other; each may be killed at any of its steps and each of its steps may fail,
before or after its effect. Meanwhile other users of the database may mark storage failures,
and between the calls files of the database may be lost or damaged.
-/

namespace Clt

open Durable

section

variable {File : Type} (engine : StorageEngine File) (migrations : List AgentMigration)

/-- What a process does under the writer lock. -/
inductive RegistryCall where
  | restartGuard
  | open
  | update (operation : List (AgentRows → AgentRows))
  | repair
  | recover (automatic maintenance : Bool)
  | maintain
  | recoverAutomatically

/-- The procedure of a call. -/
def RegistryCall.run : RegistryCall → RegistryProgram File Unit
  | .restartGuard => do
    effort
    checkClean
  | .open => do let _ ← openWithLocks engine migrations
  | .update operation => blockOnPersist engine operation
  | .repair => do let _ ← tryRepair engine
  | .recover automatic maintenance => do
    let _ ← recoverRegistryWithPolicy engine migrations automatic maintenance
  | .maintain => maintainRegistryIfIdle engine migrations
  | .recoverAutomatically => recoverRegistryAutomatically engine migrations

/-- What happens to a state directory: a call and its fate, a storage failure that is met by
another user of the database, or damage to the files of the database. -/
inductive RegistryEvent (File : Type) where
  | call (process : RegistryCall) (fate : Fate Answer (StateDir File))
  | failure (reason : String)
  | damage (bundle : Bundle File)

/-- What an event may be: the others only mark storage failures, and what is damaged cannot be
read. -/
def RegistryEvent.Allowed : RegistryEvent File → StateDir File → Prop
  | .call _ fate, _ => ∀ t w, Marks w (fate.others t w)
  | .failure reason, _ => storageFailure reason = true
  | .damage bundle, w => engine.rows bundle = none ∨ engine.rows bundle = engine.rows w.bundle

/-- The directory that an event leaves. A process that is gone holds no lock. -/
def RegistryEvent.step : RegistryEvent File → StateDir File → StateDir File
  | .call process fate, w =>
    { (process.run engine migrations fate 0 w).2.2 with markerLock := false }
  | .failure found, w => { w with required := some found, failureFound := true }
  | .damage bundle, w => { w with bundle }

/-- The directory after a run of events. -/
abbrev registryRun (events : List (RegistryEvent File)) (w : StateDir File) : StateDir File :=
  Transition.exec (RegistryEvent.step engine migrations) events w

/-- Every event of the run is one that may be. -/
abbrev AllowedRun (events : List (RegistryEvent File)) (w : StateDir File) : Prop :=
  Transition.Along (RegistryEvent.step engine migrations) (RegistryEvent.Allowed engine) events w

variable {engine migrations} {w w₀ : StateDir File} {fate : Fate Answer (StateDir File)}

/-! ## One call -/

theorem guarded_value {α : Type} {I pre : StateDir File → Prop} {p : RegistryProgram File α}
    (h : Guarded Marks I pre p fun _ _ => True) :
    Guarded Marks I pre (do let _ ← p) fun _ _ => True :=
  Guarded.bind h fun _ => guarded_pure fun _ _ _ => trivial

/-- The call is a recovery. -/
def RegistryCall.isRecovery : RegistryCall → Bool
  | .recover _ _ => true
  | .maintain => true
  | .recoverAutomatically => true
  | _ => false

theorem guarded_ordinary {call : RegistryCall} (h : call.isRecovery = false) :
    Guarded Marks (Ordinary engine migrations w₀) (Entering engine migrations w₀)
      (call.run engine migrations) fun _ _ => True := by
  cases call with
  | restartGuard =>
    exact Guarded.bind guarded_entering_effort fun _ =>
      guarded_admission.of_ok fun _ _ _ _ => trivial
  | «open» => exact guarded_value guarded_openWithLocks
  | update operation => exact guarded_blockOnPersist operation
  | repair => exact guarded_value guarded_tryRepair
  | recover _ _ => cases h
  | maintain => cases h
  | recoverAutomatically => cases h

theorem entering_self (h : Consistent engine migrations w) : Entering engine migrations w w :=
  ⟨h, ⟨rfl, rfl, rfl⟩, id, rfl, rfl, rfl, rfl⟩

/-- Where the guard holds however a procedure ends, it holds of what is left. -/
theorem left_of_guarded {I pre : StateDir File → Prop} {p : RegistryProgram File Unit}
    (h : Guarded Marks I pre p fun _ _ => True) (hI : MarkerSafe I)
    (hothers : ∀ t w, Marks w (fate.others t w)) (hw : I w) (hp : pre w) :
    I { (p fate 0 w).2.2 with markerLock := false } := by
  refine hI.lock _ false ?_
  have hmeets := h fate hothers 0 w ⟨hw, hp⟩
  rcases hresult : (p fate 0 w).1 with _ | e | ⟨⟩
  · rw [hresult] at hmeets
    exact hmeets
  · rw [hresult] at hmeets
    exact hmeets
  · rw [hresult] at hmeets
    exact hmeets.1

/-- What an ordinary call leaves, wherever it stops. -/
theorem ordinary_of_call {call : RegistryCall} (hcall : call.isRecovery = false)
    (h : Consistent engine migrations w) (hothers : ∀ t w, Marks w (fate.others t w)) :
    Ordinary engine migrations w ((RegistryEvent.call call fate).step engine migrations w) :=
  left_of_guarded (guarded_ordinary hcall) Ordinary.markerSafe hothers (entering_self h).ordinary
    (entering_self h)

/-- What a call that recovers leaves, wherever it stops. -/
theorem recovered_of_call {call : RegistryCall} (hcall : call.isRecovery = true)
    (h : Consistent engine migrations w) (hothers : ∀ t w, Marks w (fate.others t w)) :
    Recovered engine migrations w ((RegistryEvent.call call fate).step engine migrations w) := by
  have hself : Recovering engine migrations w w := Untouched.self.recovering h
  cases call with
  | recover automatic maintenance =>
    refine ⟨w, (entering_self h).ordinary, left_of_guarded (guarded_value ?_)
      Recovering.markerSafe hothers hself Untouched.self⟩
    exact (guarded_recoverRegistryWithPolicy h automatic maintenance).of_ok
      fun _ _ _ _ => trivial
  | maintain =>
    exact ⟨w, (entering_self h).ordinary, left_of_guarded (guarded_maintainRegistryIfIdle h)
      Recovering.markerSafe hothers hself Untouched.self⟩
  | recoverAutomatically =>
    exact left_of_guarded guarded_recoverRegistryAutomatically Recovered.markerSafe hothers
      (entering_self h).ordinary.recovered (entering_self h)
  | _ => cases hcall

/-- Every event keeps the invariant. -/
theorem Consistent.step {event : RegistryEvent File} (h : Consistent engine migrations w)
    (hallowed : event.Allowed engine w) :
    Consistent engine migrations (event.step engine migrations w) := by
  cases event with
  | call call fate =>
    cases hcall : call.isRecovery with
    | false => exact (ordinary_of_call hcall h hallowed).1
    | true =>
      obtain ⟨w₁, -, hrecovering⟩ := recovered_of_call hcall h hallowed
      exact hrecovering.1
  | failure reason => exact Consistent.markerSafe.found w reason hallowed h
  | damage bundle =>
    refine ⟨h.settled, fun hprogress => ?_, h.retained, h.failure⟩
    rcases hallowed with hnone | hsame
    · exact .inl hnone
    · show engine.rows bundle = none ∨ engine.rows bundle = w.latest
      rw [hsame]
      exact h.intact hprogress

/-- An empty state directory. -/
theorem consistent_empty : Consistent engine migrations ({} : StateDir File) where
  settled _ _ := fun rows hrows => by cases hrows
  intact _ := .inl (engine.committed_missing none)
  retained _ hname := by cases hname
  failure hfound := by cases hfound

theorem registryRun_append (before after : List (RegistryEvent File)) :
    registryRun engine migrations (before ++ after) w =
      registryRun engine migrations after (registryRun engine migrations before w) :=
  Transition.exec_append _ before after w

theorem consistent_of_run {events : List (RegistryEvent File)}
    (h : AllowedRun engine migrations events {}) :
    Consistent engine migrations (registryRun engine migrations events {}) :=
  Transition.exec_invariant_along (I := Consistent engine migrations)
    (fun _ _ hallowed hw => hw.step hallowed) h consistent_empty

/-! ## An engine whose files are logs -/

/-- The rows of every commit, in turn: those that are checkpointed, and then those in the WAL. -/
def logEngine : StorageEngine (List AgentRows) where
  size := List.length
  committed db wal := db.bind fun rows => (rows ++ wal.getD []).getLast?
  create b := { b with db := some [.fresh], wal := none }
  commit rows b := { b with wal := some (b.wal.getD [] ++ [rows]) }
  checkpoint b := { b with db := b.db.map (· ++ b.wal.getD []), wal := none }
  reindex b := b
  committed_missing _ := rfl
  committed_create _ _ := rfl
  committed_commit rows b h := by
    cases hdb : b.db with
    | none => exact absurd (by rw [hdb]; rfl) h
    | some checkpointed =>
      show (checkpointed ++ (b.wal.getD [] ++ [rows])).getLast? = some rows
      rw [← List.append_assoc, List.getLast?_concat]
  committed_checkpoint b := by
    cases hdb : b.db with
    | none => rfl
    | some checkpointed =>
      show ((checkpointed ++ b.wal.getD []) ++ []).getLast? =
        (checkpointed ++ b.wal.getD []).getLast?
      rw [List.append_nil]
  committed_reindex _ := rfl

/-- Nothing fails and nobody else moves, until the process is killed at a step, if it is. -/
def quietFate (killed : Option Nat) : Fate Answer (StateDir (List AgentRows)) where
  others _ w := w
  answer _ := ⟨false, .message "", false, 0⟩
  dies t := killed == some t

/-- A first migration that changes no rows. -/
def firstMigration : AgentMigration := ⟨1, id⟩

theorem storageFailure_frame : storageFailure "shared wal frame" = true := by
  decide

theorem allowed_quiet {process : RegistryCall} {killed : Option Nat}
    {w : StateDir (List AgentRows)} :
    (RegistryEvent.call process (quietFate killed)).Allowed logEngine w :=
  fun _ _ => .inl rfl

/-! ## Runs -/

/-- In every run, `registry.json` is the export of the rows committed last, up to migrations,
whenever no update or recovery is unfinished; the archive of a recovery in progress holds the
original; and a storage failure stays marked until a recovery has answered it. -/
theorem registry_run_consistent (engine : StorageEngine File) (migrations : List AgentMigration)
    (events : List (RegistryEvent File)) (h : AllowedRun engine migrations events {}) :
    Consistent engine migrations (registryRun engine migrations events {}) :=
  consistent_of_run h

theorem registry_run_consistent_killed :
    Consistent logEngine [firstMigration]
      (registryRun logEngine [firstMigration] [.call .open (quietFate none),
        .call (.update [id]) (quietFate (some 9)), .failure "shared wal frame",
        .call (.recover false false) (quietFate none)] {}) :=
  registry_run_consistent logEngine [firstMigration] _
    ⟨allowed_quiet, allowed_quiet, storageFailure_frame, allowed_quiet, trivial⟩

/-- The recovery in progress is still the one of `name`, with the same archive, and its rows
are still to be published. -/
def StillRetained (name : Nat) (archive : Archive File) (latest : Option AgentRows)
    (w : StateDir File) : Prop :=
  w.progress = some name ∧ w.quarantine name = some archive ∧ w.latest = latest

/-- An ordinary call leaves the archive of a recovery in progress. -/
theorem StillRetained.ordinary {name : Nat} {archive : Archive File} {latest : Option AgentRows}
    {w' : StateDir File} (h : StillRetained name archive latest w)
    (hw : Ordinary engine migrations w w') : StillRetained name archive latest w' := by
  obtain ⟨hname, harchive, hlatest⟩ := h
  obtain ⟨-, hheld, hsame⟩ := hw
  have hneeds : NeedsRecovery w := .inl (by rw [hname]; exact Option.some_ne_none name)
  exact ⟨hheld.1.trans hname, (congrFun hheld.2.1 name).trans harchive,
    (hsame hneeds).2.2.2.trans hlatest⟩

/-- A recovery that is still in progress afterwards leaves its archive. -/
theorem StillRetained.recovering {name : Nat} {archive : Archive File}
    {latest : Option AgentRows} {w' : StateDir File} (h : StillRetained name archive latest w)
    (hw : Recovering engine migrations w w') (hprogress : w'.progress ≠ none) :
    StillRetained name archive latest w' := by
  obtain ⟨hname, harchive, hlatest⟩ := h
  obtain ⟨-, hu | ⟨name', archive', hin⟩ | hcompleted⟩ := hw
  · exact ⟨hu.1.trans hname, (hu.2.2 name hname).trans harchive, hu.2.1.2.2.2.trans hlatest⟩
  · obtain ⟨hprogress', harchive', horigin, hsame, hlatest'⟩ := hin
    have heq := horigin.2 name hname
    rw [harchive] at heq
    cases heq
    cases hsame name hname
    exact ⟨hprogress', harchive', hlatest'.trans hlatest⟩
  · exact absurd hcompleted.1 hprogress

/-- Until a recovery has published a registry, no event takes its archive away. -/
theorem StillRetained.step {name : Nat} {archive : Archive File} {latest : Option AgentRows}
    {event : RegistryEvent File} (h : StillRetained name archive latest w)
    (hw : Consistent engine migrations w) (hallowed : event.Allowed engine w)
    (hprogress : (event.step engine migrations w).progress ≠ none) :
    StillRetained name archive latest (event.step engine migrations w) := by
  cases event with
  | call call fate =>
    cases hcall : call.isRecovery with
    | false => exact h.ordinary (ordinary_of_call hcall hw hallowed)
    | true =>
      obtain ⟨w₁, hordinary, hrecovering⟩ := recovered_of_call hcall hw hallowed
      exact (h.ordinary hordinary).recovering hrecovering hprogress
  | failure reason => exact h
  | damage bundle => exact h

theorem stillRetained_or_published {name : Nat} {archive : Archive File}
    {latest : Option AgentRows} {events : List (RegistryEvent File)}
    (h : StillRetained name archive latest w) (hw : Consistent engine migrations w)
    (hrun : AllowedRun engine migrations events w) :
    (∃ before after, events = before ++ after ∧
      (registryRun engine migrations before w).progress = none) ∨
    StillRetained name archive latest (registryRun engine migrations events w) := by
  induction events generalizing w with
  | nil => exact .inr h
  | cons event events ih =>
    obtain ⟨hallowed, hrest⟩ := hrun
    by_cases hprogress : (event.step engine migrations w).progress = none
    · exact .inl ⟨[event], events, rfl, hprogress⟩
    · rcases ih (h.step hw hallowed hprogress) (hw.step hallowed) hrest with
        ⟨before, after, rfl, hnone⟩ | hretained
      · exact .inl ⟨event :: before, after, rfl, hnone⟩
      · exact .inr hretained

/-- From the moment a recovery is in progress until one has published a registry, whatever is
killed, fails or is damaged meanwhile, its archive stays and its rows are the ones to publish. -/
theorem original_retained (engine : StorageEngine File) (migrations : List AgentMigration)
    (before after : List (RegistryEvent File)) (name : Nat)
    (h : AllowedRun engine migrations (before ++ after) {})
    (hbegun : (registryRun engine migrations before {}).progress = some name) :
    ∃ archive, (registryRun engine migrations before {}).quarantine name = some archive ∧
      ((∃ upTo rest, after = upTo ++ rest ∧
        (registryRun engine migrations (before ++ upTo) {}).progress = none) ∨
      StillRetained name archive (registryRun engine migrations before {}).latest
        (registryRun engine migrations (before ++ after) {})) := by
  obtain ⟨hbefore, hafter⟩ := Transition.along_append.mp h
  have hconsistent := consistent_of_run hbefore
  obtain ⟨archive, harchive, -, -⟩ := hconsistent.retained name hbegun
  refine ⟨archive, harchive, ?_⟩
  have hretained : StillRetained name archive (registryRun engine migrations before {}).latest
      (registryRun engine migrations before {}) := ⟨hbegun, harchive, rfl⟩
  rcases stillRetained_or_published hretained hconsistent hafter with
    ⟨upTo, rest, hsplit, hnone⟩ | hstill
  · refine .inl ⟨upTo, rest, hsplit, ?_⟩
    rw [registryRun_append]
    exact hnone
  · refine .inr ?_
    rw [registryRun_append]
    exact hstill

theorem original_retained_killed :
    ∃ archive, (registryRun logEngine [firstMigration] [.call .open (quietFate none),
        .call (.recover false false) (quietFate (some 22))] {}).quarantine 0 = some archive ∧
      ((∃ upTo rest, ([.call .open (quietFate none), .call .maintain (quietFate none)] :
          List (RegistryEvent (List AgentRows))) = upTo ++ rest ∧
        (registryRun logEngine [firstMigration] ([.call .open (quietFate none),
          .call (.recover false false) (quietFate (some 22))] ++ upTo) {}).progress = none) ∨
      StillRetained 0 archive
        (registryRun logEngine [firstMigration] [.call .open (quietFate none),
          .call (.recover false false) (quietFate (some 22))] {}).latest
        (registryRun logEngine [firstMigration] ([.call .open (quietFate none),
          .call (.recover false false) (quietFate (some 22))] ++
            [.call .open (quietFate none), .call .maintain (quietFate none)]) {})) :=
  original_retained logEngine [firstMigration] _ _ 0
    ⟨allowed_quiet, allowed_quiet, allowed_quiet, allowed_quiet, trivial⟩ rfl

/-- While a recovery is in progress or a storage failure is marked, no open, update or repair
changes the database, the snapshot, the dirty marker or the archives. -/
theorem blocked_unchanged (engine : StorageEngine File) (migrations : List AgentMigration)
    (events : List (RegistryEvent File)) (call : RegistryCall)
    (fate : Fate Answer (StateDir File)) (hcall : call.isRecovery = false)
    (h : AllowedRun engine migrations (events ++ [.call call fate]) {})
    (hneeds : NeedsRecovery (registryRun engine migrations events {})) :
    Held (registryRun engine migrations events {})
        (registryRun engine migrations (events ++ [.call call fate]) {}) ∧
      SameFiles (registryRun engine migrations events {})
        (registryRun engine migrations (events ++ [.call call fate]) {}) := by
  obtain ⟨hbefore, hallowed, -⟩ := Transition.along_append.mp h
  obtain ⟨-, hheld, hsame⟩ := ordinary_of_call hcall (consistent_of_run hbefore) hallowed
  rw [registryRun_append]
  exact ⟨hheld, hsame hneeds⟩

theorem blocked_unchanged_failure :
    Held (registryRun logEngine [firstMigration] [.failure "shared wal frame"] {})
        (registryRun logEngine [firstMigration] ([.failure "shared wal frame"] ++
          [.call (.update [id]) (quietFate none)]) {}) ∧
      SameFiles (registryRun logEngine [firstMigration] [.failure "shared wal frame"] {})
        (registryRun logEngine [firstMigration] ([.failure "shared wal frame"] ++
          [.call (.update [id]) (quietFate none)]) {}) :=
  blocked_unchanged logEngine [firstMigration] _ (.update [id]) (quietFate none) rfl
    ⟨storageFailure_frame, allowed_quiet, trivial⟩ (.inr rfl)

/-- Wherever a recovery stops, it has changed nothing, or its archive holds the original, or a
registry is published whose rows are the ones committed last but for migrations and, after no
interrupted update, rebuilds; when it returns, the registry is published. -/
theorem recovery_publishes (engine : StorageEngine File) (migrations : List AgentMigration)
    (events : List (RegistryEvent File)) (automatic maintenance : Bool)
    (fate : Fate Answer (StateDir File)) (h : AllowedRun engine migrations events {})
    (hothers : ∀ t w, Marks w (fate.others t w)) :
    Recovering engine migrations (registryRun engine migrations events {})
        (recoverRegistryWithPolicy engine migrations automatic maintenance fate 0
          (registryRun engine migrations events {})).2.2 ∧
      ∀ report, (recoverRegistryWithPolicy engine migrations automatic maintenance fate 0
          (registryRun engine migrations events {})).1 = .returned report →
        Completed engine migrations (registryRun engine migrations events {})
            (recoverRegistryWithPolicy engine migrations automatic maintenance fate 0
              (registryRun engine migrations events {})).2.2 ∧
          Reported (registryRun engine migrations events {}) maintenance report
            (recoverRegistryWithPolicy engine migrations automatic maintenance fate 0
              (registryRun engine migrations events {})).2.2 := by
  have hconsistent := consistent_of_run h
  generalize registryRun engine migrations events {} = w at hconsistent ⊢
  have huntouched : Untouched w w := Untouched.self
  have hmeets := guarded_recoverRegistryWithPolicy hconsistent automatic maintenance fate hothers
    0 w ⟨huntouched.recovering hconsistent, huntouched⟩
  rcases hresult : (recoverRegistryWithPolicy engine migrations automatic maintenance fate 0 w).1
    with _ | e | report
  · rw [hresult] at hmeets
    exact ⟨hmeets, fun _ hreport => by cases hreport⟩
  · rw [hresult] at hmeets
    exact ⟨hmeets, fun _ hreport => by cases hreport⟩
  · rw [hresult] at hmeets
    refine ⟨hmeets.1, fun found hreport => ?_⟩
    cases hreport
    exact hmeets.2

theorem recovery_publishes_opened :
    Recovering logEngine [firstMigration] (registryRun logEngine [firstMigration]
        [.call .open (quietFate none)] {})
        (recoverRegistryWithPolicy logEngine [firstMigration] false false (quietFate none) 0
          (registryRun logEngine [firstMigration] [.call .open (quietFate none)] {})).2.2 ∧
      ∀ report, (recoverRegistryWithPolicy logEngine [firstMigration] false false
          (quietFate none) 0
          (registryRun logEngine [firstMigration] [.call .open (quietFate none)] {})).1 =
            .returned report →
        Completed logEngine [firstMigration] (registryRun logEngine [firstMigration]
            [.call .open (quietFate none)] {})
            (recoverRegistryWithPolicy logEngine [firstMigration] false false (quietFate none) 0
              (registryRun logEngine [firstMigration] [.call .open (quietFate none)] {})).2.2 ∧
          Reported (registryRun logEngine [firstMigration] [.call .open (quietFate none)] {})
            false report
            (recoverRegistryWithPolicy logEngine [firstMigration] false false (quietFate none) 0
              (registryRun logEngine [firstMigration] [.call .open (quietFate none)] {})).2.2 :=
  recovery_publishes logEngine [firstMigration] [.call .open (quietFate none)] false false
    (quietFate none) ⟨allowed_quiet, trivial⟩ fun _ _ => .inl rfl

end

end Clt
