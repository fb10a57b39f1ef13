import Clt.Durable.Procedure
import Clt.Recovery.Snapshot

/-!
# The state directory of the registry

The files that `agent/recovery.rs` keeps beside the agent database: the external snapshot
`registry.json`, the dirty marker of an update, the recovery marker, the record of a recovery
in progress and the quarantined bundles. The database engine is a parameter: its files hold
the rows that were committed last, or cannot be read.
-/

namespace Clt

open Durable

deriving instance DecidableEq for RegistrySnapshot

/-! ## The database -/

/-- The committed rows, with the migrations that were applied (`schema_migrations`). -/
structure AgentRows where
  database : AgentDatabase
  versions : List Nat

/-- A database before its first migration. -/
def AgentRows.fresh : AgentRows where
  database :=
    { tables :=
        { projects := .empty, modelProviders := .empty, modelTargets := .empty
          agentSettings := .empty, agentWorkers := .empty, sessionControls := .empty
          gitLaunchStates := .empty, gitFinalizations := .empty, sessionGitModes := none
          supervisorReviews := none, sessionModesMigrated := false }
      foreignKeys := rfl
      migrated := nofun }
  versions := []

/-- The files of the database (`BUNDLE_FILES`). A file that is there is not empty. -/
structure Bundle (File : Type) where
  db : Option File := none
  wal : Option File := none
  tshm : Option File := none
  shm : Option File := none
  deriving DecidableEq

/-- What the registry relies on of the engine. -/
structure StorageEngine (File : Type) where
  size : File → Nat
  committed : Option File → Option File → Option AgentRows
  create : Bundle File → Bundle File
  commit : AgentRows → Bundle File → Bundle File
  checkpoint : Bundle File → Bundle File
  reindex : Bundle File → Bundle File
  committed_missing : ∀ wal, committed none wal = none
  committed_create : ∀ b, b.db = none → committed (create b).db (create b).wal = some .fresh
  committed_commit : ∀ rows b, committed b.db b.wal ≠ none →
    committed (commit rows b).db (commit rows b).wal = some rows
  committed_checkpoint : ∀ b,
    committed (checkpoint b).db (checkpoint b).wal = committed b.db b.wal
  committed_reindex : ∀ b, committed (reindex b).db (reindex b).wal = committed b.db b.wal

/-- The rows that a bundle holds. -/
def StorageEngine.rows {File : Type} (engine : StorageEngine File) (b : Bundle File) :
    Option AgentRows :=
  engine.committed b.db b.wal

/-! ## Migrations -/

/-- `AgentMigration`: its version and what its statements do. -/
structure AgentMigration where
  version : Nat
  statements : AgentDatabase → AgentDatabase

/-- `AGENT_WORKER_SHARED_SCHEMA_VERSION`. -/
def agentWorkerSharedSchemaVersion : Nat := 16

/-- `worker_schema_migration_is_deferred`. -/
def workerSchemaMigrationIsDeferred (rows : AgentRows) (migrationVersion : Nat) : Bool :=
  decide (agentWorkerSharedSchemaVersion < migrationVersion) &&
    rows.database.tables.agentWorkers.any fun w => w.state.isActive

/-- What a migration finds. -/
inductive MigrationOutcome where
  | applied
  | deferred
  | migrated (rows : AgentRows)

/-- One pass of the loop of `apply_migrations`. -/
def AgentMigration.outcome (m : AgentMigration) (rows : AgentRows) : MigrationOutcome :=
  if m.version ∈ rows.versions then .applied
  else if workerSchemaMigrationIsDeferred rows m.version then .deferred
  else .migrated ⟨m.statements rows.database, rows.versions ++ [m.version]⟩

/-! ## Errors -/

/-- An error, or what `integrity_check` found (`IntegrityFailure`). -/
inductive StoreError where
  | message (text : String)
  | integrity (failures : List String)
  deriving DecidableEq

/-- The text of an error. -/
def StoreError.text : StoreError → String
  | .message text => text
  | .integrity failures => "Agent registry integrity check: " ++ "; ".intercalate failures

/-- `text.contains(needle)`. -/
def containsText (needle text : List Char) : Bool := text.tails.any fun t => needle.isPrefixOf t

/-- `storage_failure`. -/
def storageFailure (message : String) : Bool :=
  let text := message.toList.map Char.toLower
  (containsText "shared wal".toList text &&
    (containsText "frame".toList text || containsText "owner".toList text ||
      containsText "assertion".toList text)) ||
  ["process-local writer released by non-owner",
    "process-local checkpoint released by non-owner",
    "process-local reader slot released by non-owner",
    "shared owner slot released by non-owner",
    "reader slot updated by non-owner",
    "reader slot released by non-owner",
    "cell_index_read_payload_ptr called on non-index page"].any
      fun signature => containsText signature.toList text

/-- `RECOVERING_REASON`. -/
def recoveringReason : String := "Exclusive registry recovery in progress"

/-- `INTERRUPTED_UPDATE_REASON`. -/
def interruptedUpdateReason : String :=
  "An agent registry update was interrupted before its external snapshot was durable"

/-! ## The files -/

/-- A bundle in quarantine, with the snapshot and the markers that lay beside it. -/
structure Archive (File : Type) where
  bundle : Bundle File
  snapshot : Option RegistrySnapshot
  dirty : Bool
  required : Option String

/-- The state directory. `latest` and `failureFound` are history: the rows that were committed
last outside of a recovery, and whether a user of the database has met a storage failure that
no recovery has answered. -/
structure StateDir (File : Type) where
  bundle : Bundle File := {}
  snapshot : Option RegistrySnapshot := none
  dirty : Bool := false
  required : Option String := none
  progress : Option Nat := none
  quarantine : Nat → Option (Archive File) := fun _ => none
  archives : Nat := 0
  checkedAt : Option Nat := none
  markerLock : Bool := false
  latest : Option AgentRows := none
  failureFound : Bool := false

/-- How a step turns out: whether it fails, with which error, whether it had its effect
before it failed, and what the clock says. -/
structure Answer where
  fails : Bool
  error : StoreError
  late : Bool
  now : Nat

abbrev RegistryProgram (File α : Type) := Procedure Answer (StateDir File) StoreError α

/-- What another user of the database does meanwhile: nothing, or `mark_required` with the
storage failure it has met, unless the marker is locked. -/
def Marks {File : Type} (w w' : StateDir File) : Prop :=
  w' = w ∨ (w.markerLock = false ∧ ∃ reason, storageFailure reason = true ∧
    w' = { w with required := some reason, failureFound := true })

/-! ## Steps -/

section

variable {File α : Type}

/-- A change of the files, which may fail before or after it is made. -/
def change (f : StateDir File → StateDir File) : RegistryProgram File Unit :=
  Procedure.step fun i w =>
    if i.fails then (.error i.error, if i.late then f w else w) else (.ok (), f w)

/-- A reading that may fail, and fails when there is nothing to read. -/
def query (f : StateDir File → Option α) : RegistryProgram File α :=
  Procedure.step fun i w =>
    if i.fails then (.error i.error, w) else ((f w).elim (.error i.error) .ok, w)

/-- Something that may fail and changes no file. -/
def effort : RegistryProgram File Unit := query fun _ => some ()

/-- What a file is. -/
def look (f : StateDir File → α) : RegistryProgram File α := Procedure.step fun _ w => (.ok (f w), w)

/-- `anyhow::ensure!` of what the files are. -/
def demand (c : StateDir File → Bool) (text : String) : RegistryProgram File Unit :=
  Procedure.step fun _ w => (if c w then .ok () else .error (.message text), w)

/-! ## Markers -/

/-- `check_required`. -/
def checkRequired : RegistryProgram File Unit :=
  demand (fun w => w.required.isNone && w.progress.isNone)
    "Agent registry recovery required. Stop agents, close CLT TUIs, and run clt agent recover"

/-- Hold the lock of the marker (`marker_lock`) while `p` runs. -/
def withMarkerLock (p : RegistryProgram File α) : RegistryProgram File α := do
  Procedure.step fun i w =>
    if i.fails then (.error i.error, w) else (.ok (), { w with markerLock := true })
  let result ← p.attempt
  Procedure.step fun _ w => (.ok (), { w with markerLock := false })
  Procedure.rethrow result

/-- `atomic_write` of the recovery marker. -/
def writeRequired (reason : String) : RegistryProgram File Unit :=
  change fun w => { w with required := some reason }

/-- `mark_required`. -/
def markRequired (reason : String) : RegistryProgram File Unit :=
  withMarkerLock (writeRequired reason)

/-- `check_clean`. -/
def checkClean : RegistryProgram File Unit := do
  checkRequired
  let dirty ← look StateDir.dirty
  Procedure.whenever dirty <| withMarkerLock do
    -- A storage failure that a reader has found meanwhile is not replaced.
    checkRequired
    writeRequired interruptedUpdateReason
    checkRequired

end

end Clt
