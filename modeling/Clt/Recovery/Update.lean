import Clt.Recovery.StateDir

/-!
# Updates of the registry

How a registry operation is run (`agent/runtime.rs`): under the writer lock the state
directory is marked dirty, the operation commits, the external snapshot is exported, and the
mark is taken away. The retries of a database that will not open are not modelled: they change
none of the files.
-/

namespace Clt

open Durable

section

variable {File α : Type} (engine : StorageEngine File)

/-- The committed rows, read in a transaction. -/
def readRows : RegistryProgram File AgentRows := query fun w => engine.rows w.bundle

/-- The rows that count as committed last, when the bundle comes to hold `rows`. -/
def StateDir.settle (w : StateDir File) (rows : AgentRows) : Option AgentRows :=
  if w.progress.isSome then w.latest else some rows

/-- The commit of a transaction. -/
def commitRows (rows : AgentRows) : RegistryProgram File Unit :=
  change fun w => { w with bundle := engine.commit rows w.bundle, latest := w.settle rows }

/-- `Builder::build`: a database that is missing is made. -/
def buildDatabase : RegistryProgram File Unit :=
  change fun w =>
    if w.bundle.db.isSome then w
    else { w with bundle := engine.create w.bundle, latest := w.settle .fresh }

/-- `open_checkpoint_pin`. -/
def openCheckpointPin : RegistryProgram File Unit :=
  query fun w => (engine.rows w.bundle).bind fun rows =>
    if rows.versions.isEmpty then none else some ()

/-- `block_on_recovery`. -/
def blockOnRecovery (p : RegistryProgram File α) : RegistryProgram File α := do
  match ← p.attempt with
  | .ok a => pure a
  | .error e =>
    if storageFailure e.text then
      markRequired e.text
      Procedure.fail (.message
        ("Agent registry recovery required after a database failure. Run clt agent recover: " ++
          e.text))
    else Procedure.fail e

/-- `block_on` of a store that is not recovering; `attached` once its database is open. -/
def blockOn (attached : Bool) (p : RegistryProgram File α) : RegistryProgram File α := do
  checkRequired
  blockOnRecovery do
    Procedure.whenever attached (openCheckpointPin engine)
    match ← p.attempt with
    | .error e =>
      -- No further queries through a failed storage handle.
      Procedure.whenever (attached ∧ storageFailure e.text = false) effort
      Procedure.fail e
    | .ok a =>
      Procedure.whenever attached effort
      pure a

/-! ## The size of the WAL -/

/-- `WAL_MAINTENANCE_BYTES`. -/
def walMaintenanceBytes : Nat := 64 * 1024 * 1024

/-- `WAL_WRITE_LIMIT_BYTES`. -/
def walWriteLimitBytes : Nat := 128 * 1024 * 1024

/-- The length of the WAL, of a missing file 0. -/
def walSize (w : StateDir File) : Nat := w.bundle.wal.elim 0 engine.size

/-- `PRAGMA wal_checkpoint(TRUNCATE)`. -/
def walCheckpoint : RegistryProgram File Unit :=
  change fun w => { w with bundle := engine.checkpoint w.bundle }

/-- `checkpoint_live_registry`. -/
def checkpointLiveRegistry : RegistryProgram File Unit := do
  let length ← look (walSize engine)
  Procedure.whenever (walMaintenanceBytes ≤ length) do
    effort
    walCheckpoint engine

/-- `check_wal_write_budget`. -/
def checkWalWriteBudget : RegistryProgram File Unit :=
  demand (fun w => decide (walSize engine w < walWriteLimitBytes))
    "Registry WAL reached the 128 MiB safety limit"

/-! ## The snapshot -/

/-- `read_database_snapshot` of the committed rows. -/
def readCommittedSnapshot : RegistryProgram File RegistrySnapshot := do
  let rows ← readRows engine
  match readDatabaseSnapshot rows.database.tables with
  | .ok snapshot => pure snapshot
  | .error text => Procedure.fail (.message text)

/-- `snapshot_once`. -/
def snapshotOnce : RegistryProgram File Unit := do
  let snapshot ← readCommittedSnapshot engine
  let old ← look StateDir.snapshot
  Procedure.whenever (old ≠ some snapshot) (change fun w => { w with snapshot := some snapshot })

/-- `retry_snapshot_on_contention`, with the attempts that are left. -/
def retrySnapshotOnContention : Nat → RegistryProgram File Unit
  | 0 => snapshotOnce engine
  | left + 1 => do
    match ← (snapshotOnce engine).attempt with
    | .ok () => pure ()
    | .error e =>
      if e = .message "database is locked" then retrySnapshotOnContention left
      else Procedure.fail e

/-- `snapshot`. -/
def exportSnapshot : RegistryProgram File Unit := retrySnapshotOnContention engine 2

/-! ## Updates -/

/-- `begin_update`. -/
def beginUpdate : RegistryProgram File Unit := do
  checkClean
  checkWalWriteBudget engine
  change fun w => { w with dirty := true }

/-- `finish_update`. -/
def finishUpdate : RegistryProgram File Unit := do
  change fun w => { w with dirty := false }
  effort

/-- A registry operation: what its transactions commit, one after the other. -/
def runOperation : List (AgentRows → AgentRows) → RegistryProgram File Unit
  | [] => effort
  | transaction :: rest => do
    let rows ← readRows engine
    commitRows engine (transaction rows)
    runOperation rest

/-- `block_on_persist`. -/
def blockOnPersist (operation : List (AgentRows → AgentRows)) : RegistryProgram File Unit := do
  effort
  checkClean
  blockOnRecovery (checkpointLiveRegistry engine)
  beginUpdate engine
  let outcome ← (blockOn engine true (runOperation engine operation)).attempt
  match ← (checkRequired : RegistryProgram File Unit).attempt with
  | .error recoveryError =>
    match outcome with
    | .ok () => Procedure.fail recoveryError
    | .error e => Procedure.fail e
  | .ok () =>
    match ← (blockOn engine true (exportSnapshot engine)).attempt with
    | .error e =>
      markRequired ("External registry snapshot failed: " ++ e.text)
      Procedure.fail e
    | .ok () =>
      finishUpdate
      Procedure.rethrow outcome

/-! ## Opening -/

/-- `apply_migrations`; returns the migration that was deferred. -/
def applyMigrations : List AgentMigration → RegistryProgram File (Option Nat)
  | [] => pure none
  | m :: rest => do
    let rows ← readRows engine
    match m.outcome rows with
    | .applied => applyMigrations rest
    | .deferred => pure (some m.version)
    | .migrated migrated =>
      commitRows engine migrated
      applyMigrations rest

/-- `open_database`. -/
def openDatabase (migrations : List AgentMigration) (recovering : Bool) :
    RegistryProgram File (Option Nat) := do
  buildDatabase engine
  effort
  Procedure.whenever (recovering = false) do
    checkpointLiveRegistry engine
    checkWalWriteBudget engine
  let pending ← applyMigrations engine migrations
  Procedure.whenever recovering (openCheckpointPin engine)
  pure pending

/-- `integrity_check`. -/
def integrityCheck : RegistryProgram File Unit :=
  query fun w => (engine.rows w.bundle).map fun _ => ()

/-- `CHECK_INTERVAL_SECONDS`. -/
def checkIntervalSeconds : Nat := 60

/-- `SystemTime::now`. -/
def readClock : RegistryProgram File Nat := Procedure.step fun i w => (.ok i.now, w)

/-- `check_health_if_due`. -/
def checkHealthIfDue : RegistryProgram File Unit := do
  let now ← readClock
  let last ← look StateDir.checkedAt
  if last.any fun last => decide (last ≤ now) && decide (now - last < checkIntervalSeconds) then
    pure ()
  else
    match ← (integrityCheck engine).attempt with
    | .error (.integrity failures) =>
      markRequired (StoreError.integrity failures).text
      Procedure.fail (.integrity failures)
    | .error (.message text) => Procedure.fail (.message text)
    | .ok () => change fun w => { w with checkedAt := some now }

/-- What `open_blocking` does once it has its locks; returns the migration that was deferred. -/
def openWithLocks (migrations : List AgentMigration) : RegistryProgram File (Option Nat) := do
  effort
  checkClean
  let missing ← look fun w => w.snapshot.isSome && w.bundle.db.isNone
  Procedure.whenever missing do
    markRequired
      "The agent database is missing but its external registry snapshot still exists"
    checkRequired
  let pending ← blockOn engine false (openDatabase engine migrations false)
  blockOn engine true (checkHealthIfDue engine)
  let unexported ← look fun w => w.snapshot.isNone
  Procedure.whenever unexported (blockOn engine true (exportSnapshot engine))
  pure pending

end

end Clt
