import Clt.Registry.GitRetirement
import Clt.Recovery.Update

/-!
# Exclusive recovery

How the registry is recovered (`recover_registry_with_policy`) once its bundle is in
quarantine: the original database is opened and checked again, or it is rebuilt from the
external snapshot; and the repair that only exports the snapshot again
(`recovery/interrupted_snapshot.rs`). The partial copies that a failed quarantine leaves are
not modelled.
-/

namespace Clt

open Durable

/-! ## Damaged indexes -/

/-- `WORKER_INDEXES`. -/
def workerIndexes : List String :=
  ["agent_workers_active_project_unique", "sqlite_autoindex_agent_workers_1",
    "sqlite_autoindex_agent_workers_2", "sqlite_autoindex_agent_workers_3"]

/-- `message.strip_prefix(head)`. -/
def dropHead (head text : List Char) : Option (List Char) :=
  if head.isPrefixOf text then some (text.drop head.length) else none

/-- `text.split_once(separator)`. -/
def splitOnceAt (separator : List Char) : List Char → Option (List Char × List Char)
  | [] => if separator.isEmpty then some ([], []) else none
  | c :: rest =>
    if separator.isPrefixOf (c :: rest) then some ([], (c :: rest).drop separator.length)
    else (splitOnceAt separator rest).map fun (before, after) => (c :: before, after)

/-- `worker_index_failure`. -/
def workerIndexFailure (message : String) : Bool :=
  let named := (dropHead "wrong # of entries in index ".toList message.toList).orElse fun _ => do
    let row ← dropHead "row ".toList message.toList
    let (row, name) ← splitOnceAt " missing from index ".toList row
    let _ ← Registry.parseU64 (String.ofList row)
    some name
  named.any fun name => workerIndexes.contains (String.ofList name)

section

variable {File : Type} (engine : StorageEngine File)

/-- `repair_worker_indexes_if_needed`. -/
def repairWorkerIndexesIfNeeded : RegistryProgram File Unit := do
  match ← (integrityCheck engine).attempt with
  | .ok () => pure ()
  | .error (.message text) => Procedure.fail (.message text)
  | .error (.integrity failures) =>
    if failures.all workerIndexFailure then
      effort
      change fun w => { w with bundle := engine.reindex w.bundle }
      integrityCheck engine
    else Procedure.fail (.integrity failures)

/-! ## Quarantine -/

/-- `quarantine_bundle`; returns the name of the archive. -/
def quarantineBundle : RegistryProgram File Nat := do
  effort
  let bundle ← query fun w => some w.bundle
  let snapshot ← query fun w => some w.snapshot
  let dirty ← query fun w => some w.dirty
  let required ← query fun w => some w.required
  effort
  let name ← look StateDir.archives
  change fun w =>
    { w with
      quarantine := Function.update w.quarantine name (some ⟨bundle, snapshot, dirty, required⟩)
      archives := name + 1 }
  effort
  pure name

/-- `restore_bundle`, one file after the other. -/
def restoreBundle (archive : Nat) : RegistryProgram File Unit := do
  let original ← query fun w => w.quarantine archive
  change fun w => { w with bundle := { w.bundle with db := original.bundle.db } }
  change fun w => { w with bundle := { w.bundle with wal := original.bundle.wal } }
  change fun w => { w with bundle := { w.bundle with tshm := original.bundle.tshm } }
  change fun w => { w with bundle := { w.bundle with shm := original.bundle.shm } }
  effort

/-- `remove_if_exists` of the files of the bundle. -/
def removeBundle : RegistryProgram File Unit := do
  change fun w => { w with bundle := { w.bundle with db := none } }
  change fun w => { w with bundle := { w.bundle with wal := none } }
  change fun w => { w with bundle := { w.bundle with tshm := none } }
  change fun w => { w with bundle := { w.bundle with shm := none } }

/-- The quarantine of a recovery that begins. -/
def beginArchive : RegistryProgram File Nat := do
  let name ← quarantineBundle
  change fun w => { w with progress := some name }
  pure name

/-- The quarantine of a recovery that is resumed. -/
def resumeArchive (automatic : Bool) : RegistryProgram File Nat := do
  let name ← query StateDir.progress
  demand (fun w => (w.quarantine name).isSome) "Invalid recovery quarantine path"
  Procedure.whenever automatic <|
    demand (fun w => (w.quarantine name).any fun archive => archive.bundle.db.isSome)
      "The original quarantined agent database is missing or empty; run clt agent recover"
  -- A crash after snapshot publication may have cleared the dirty marker.
  let interrupted ← look fun w => (w.quarantine name).any Archive.dirty
  Procedure.whenever interrupted (change fun w => { w with dirty := true })
  restoreBundle name
  pure name

/-- The quarantine of a recovery. -/
def takeArchive (resuming automatic : Bool) : RegistryProgram File Nat :=
  if resuming then resumeArchive automatic else beginArchive

/-! ## Recovery -/

/-- `open_for_recovery`. -/
def openForRecovery (migrations : List AgentMigration) : RegistryProgram File Unit := do
  let _ ← blockOnRecovery (openDatabase engine migrations true)

/-- `checkpoint_exclusive_registry`. -/
def checkpointExclusiveRegistry : RegistryProgram File Unit := do
  blockOnRecovery (repairWorkerIndexesIfNeeded engine)
  blockOnRecovery do
    effort
    walCheckpoint engine
    integrityCheck engine

/-- `verify_recovery_teardown`. -/
def verifyRecoveryTeardown : RegistryProgram File Unit := do
  effort
  demand (fun w => w.required = some recoveringReason)
    "Turso failed while closing the recovered registry; recovery is still required"

/-- The tables with their constraints, which `integrity_check` asks for. -/
def checkedDatabase (tables : AgentTables) : Option AgentDatabase :=
  if h : tables.foreignKeysHold = true ∧
      (tables.sessionModesMigrated = true → tables.sessionGitModes.isSome = true) then
    some ⟨tables, h.1, h.2⟩
  else none

/-- What a rebuild from `snapshot` commits over the rows of the new database. -/
def rebuiltRows (now : String) (snapshot : RegistrySnapshot) (rows : AgentRows) :
    Except StoreError AgentRows :=
  match restoreSnapshot now snapshot with
  | .error text => .error (.message text)
  | .ok tables =>
    (checkedDatabase tables).elim (.error (.integrity ["broken foreign keys"]))
      fun database => .ok ⟨database, rows.versions⟩

/-- `restore_snapshot`. -/
def restoreFromSnapshot (snapshot : RegistrySnapshot) : RegistryProgram File Unit := do
  let rows ← readRows engine
  let now ← readClock
  match rebuiltRows (toString now) snapshot rows with
  | .error e => Procedure.fail e
  | .ok rebuilt =>
    commitRows engine rebuilt
    integrityCheck engine

/-- `read_snapshot` of the state directory. -/
def readManifest : RegistryProgram File (Option RegistrySnapshot) := do
  match ← look StateDir.snapshot with
  | none => pure none
  | some snapshot =>
    effort
    match readSnapshot snapshot with
    | .ok manifest => pure (some manifest)
    | .error text => Procedure.fail (.message text)

/-- `attempt`: the original database is opened, checked and exported. -/
def coordinationAttempt (migrations : List AgentMigration) (automatic hasDatabase : Bool) :
    RegistryProgram File Unit := do
  demand (fun _ => hasDatabase) "The original agent database is missing or empty"
  openForRecovery engine migrations
  Procedure.whenever automatic do
    let _ ← blockOnRecovery (readCommittedSnapshot engine)
    effort
  checkpointExclusiveRegistry engine
  blockOnRecovery (exportSnapshot engine)
  verifyRecoveryTeardown

/-- The rebuild of a registry whose original database is of no use. -/
def rebuildRegistry (migrations : List AgentMigration) (automatic dirty : Bool) (archive : Nat)
    (manifest : Option RegistrySnapshot) : RegistryProgram File Unit := do
  restoreBundle archive
  demand (fun _ => !automatic) "Automatic coordination repair failed; original DB/WAL restored"
  demand (fun _ => !dirty)
    "The last external snapshot may predate an interrupted Git transition"
  match manifest with
  | none => Procedure.fail (.message "no external registry snapshot is available")
  | some snapshot =>
    removeBundle
    markRequired recoveringReason
    let result ← Procedure.attempt do
      openForRecovery engine migrations
      blockOnRecovery do
        restoreFromSnapshot engine snapshot
        exportSnapshot engine
      verifyRecoveryTeardown
    match result with
    | .ok () => pure ()
    | .error e =>
      restoreBundle archive
      Procedure.fail e

/-- The end of a recovery: it stops being in progress, and its rows count. -/
def finishRecovery : RegistryProgram File Unit := do
  finishUpdate
  change fun w => { w with progress := none, latest := engine.rows w.bundle }
  change fun w => { w with required := none, failureFound := false }
  effort

/-- `RecoveryReport`. -/
structure RecoveryReport where
  quarantine : Nat
  rebuiltRegistry : Bool

/-- `recover_registry_with_policy`. -/
def recoverRegistryWithPolicy (migrations : List AgentMigration) (automatic maintenance : Bool) :
    RegistryProgram File RecoveryReport := do
  let drained ← readManifest
  Procedure.whenever drained.isSome effort
  effort
  effort
  let manifest ← readManifest
  Procedure.whenever automatic do
    demand (fun w => maintenance || w.required.isSome || w.progress.isSome)
      "Registry already recovered"
    demand (fun _ => manifest.isSome)
      "Automatic recovery requires an external registry snapshot; run clt agent recover"
  effort
  Procedure.whenever manifest.isSome effort
  let resuming ← look fun w => w.progress.isSome
  let archive ← takeArchive resuming automatic
  let dirty ← look StateDir.dirty
  let hasDatabase ← look fun w => w.bundle.db.isSome
  markRequired recoveringReason
  change fun w => { w with bundle := { w.bundle with tshm := none } }
  change fun w => { w with bundle := { w.bundle with shm := none } }
  effort
  let attempted ← (coordinationAttempt engine migrations automatic hasDatabase).attempt
  let rebuiltRegistry := !attempted.isOk
  Procedure.whenever rebuiltRegistry
    (rebuildRegistry engine migrations automatic dirty archive manifest)
  finishRecovery engine
  -- Routine maintenance keeps no archive.
  Procedure.whenever (maintenance ∧ resuming = false) do
    change fun w => { w with quarantine := Function.update w.quarantine archive none }
    effort
  pure ⟨archive, rebuiltRegistry⟩

/-- Another opener may have finished the recovery: an error counts only while it is required.
The error of a repair that was tried before is its context. -/
def whileRequired (context : Option StoreError) (p : RegistryProgram File RecoveryReport) :
    RegistryProgram File Unit := do
  match ← p.attempt with
  | .ok _ => pure ()
  | .error e =>
    let required ← look fun w => w.required.isSome || w.progress.isSome
    Procedure.whenever required <| Procedure.fail <| context.elim e fun snapshotError =>
      .message ("Could not refresh the interrupted registry snapshot: " ++ snapshotError.text)

/-- `maintain_registry_if_idle_above`, above `WAL_MAINTENANCE_BYTES`. -/
def maintainRegistryIfIdle (migrations : List AgentMigration) : RegistryProgram File Unit := do
  let deferred ← look fun w => decide (walSize engine w < walMaintenanceBytes) ||
    w.snapshot.isNone || w.dirty || w.required.isSome || w.progress.isSome
  Procedure.whenever (deferred = false)
    (whileRequired none (recoverRegistryWithPolicy engine migrations true true))

/-! ## The repair of an interrupted snapshot -/

/-- `eligible`. -/
def StateDir.eligible (w : StateDir File) : Bool :=
  w.dirty && w.progress.isNone && w.required == some interruptedUpdateReason

/-- `publish_verified_snapshot`. -/
def publishVerifiedSnapshot (snapshot : RegistrySnapshot) : RegistryProgram File Unit :=
  withMarkerLock do
    demand StateDir.eligible "Registry recovery reason changed during snapshot verification"
    change fun w => { w with snapshot := some snapshot }
    change fun w => { w with required := none }
    -- A crash here leaves a dirty marker that can safely take this same path again.
    effort
    finishUpdate

/-- `try_repair`. -/
def tryRepair : RegistryProgram File Bool := do
  let eligible ← look StateDir.eligible
  if !eligible then pure false
  else
    effort
    effort
    let eligible ← look StateDir.eligible
    if !eligible then pure false
    else
      let manifest ← readManifest
      demand (fun _ => manifest.isSome) "Registry snapshot is missing"
      demand (fun w => w.bundle.db.isSome) "The original agent database is missing or empty"
      let snapshot ← blockOnRecovery do
        effort
        openCheckpointPin engine
        integrityCheck engine
        let snapshot ← readCommittedSnapshot engine
        effort
        pure snapshot
      publishVerifiedSnapshot snapshot
      pure true

/-- The error of an attempt. -/
def attemptError {α : Type} : Except StoreError α → Option StoreError
  | .ok _ => none
  | .error e => some e

/-- `recover_registry_automatically`. -/
def recoverRegistryAutomatically (migrations : List AgentMigration) : RegistryProgram File Unit := do
  let required ← look fun w => w.required.isSome || w.progress.isSome
  Procedure.whenever required do
    let repaired ← (tryRepair engine).attempt
    Procedure.whenever (repaired.toOption ≠ some true)
      (whileRequired (attemptError repaired)
        (recoverRegistryWithPolicy engine migrations true false))

end

end Clt
