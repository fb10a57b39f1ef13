import Clt.Registry.SessionRuns

/-!
# Workers and leases

The writes of `agent/repositories/workers_leases.rs`: the project lease, the lease
of a Git finalizer, and the transactions of a worker generation (reservation,
claim, heartbeat, abandonment, supersession and finalization).
-/

namespace Clt

open Relational

/-- `AgentWorkerReservation`. -/
structure AgentWorkerReservation where
  projectId : Int
  workerToken : String
  expectedLeaseHolder : String
  maxActiveWorkers : Nat
  protocolVersion : Int
  serviceLabel : String
  binaryPath : String
  commandArguments : String
  pathEnv : String
  codexPath : Option String
  taskSelection : String
  resumeSessionId : Option String
  createdAt : String

/-- The `dispatching` row of a fresh worker. -/
def AgentWorkerReservation.toRow (r : AgentWorkerReservation) : AgentWorker where
  workerToken := r.workerToken
  projectId := r.projectId
  state := .dispatching
  protocolVersion := r.protocolVersion
  leaseHolder := workerLeaseHolder r.workerToken
  serviceLabel := r.serviceLabel
  binaryPath := r.binaryPath
  commandArguments := r.commandArguments
  pathEnv := r.pathEnv
  codexPath := r.codexPath
  taskSelection := r.taskSelection
  resumeSessionId := r.resumeSessionId
  workerPid := none
  createdAt := r.createdAt
  startedAt := none
  heartbeatAt := some r.createdAt
  finishedAt := none
  runId := none
  error := none
  serviceCleanedAt := none

/-- `AgentWorkerAbandonment`. -/
structure AgentWorkerAbandonment where
  workerToken : String
  expectedState : AgentWorkerState
  expectedWorkerPid : Option Nat
  expectedHeartbeatAt : Option String
  finishedAt : String
  error : String
  permittedSuccessorHolder : Option String

/-- `AgentWorkerFinalization`. -/
structure AgentWorkerFinalization where
  workerToken : String
  expectedWorkerPid : Option Nat
  expectedLeaseHolder : String
  status : String
  finishedAt : String
  exitCode : Option Int
  logDir : Option String
  stdoutPath : Option String
  stderrPath : Option String
  summary : Option String
  codexSessionId : Option String
  error : Option String

/-- An update that keeps a worker's identity and never makes an idle worker active
keeps the worker table's constraints. -/
theorem AgentWorker.compatible_of_inactive {p : AgentWorker → Bool} {f : AgentWorker → AgentWorker}
    (hkeys : ∀ w, (f w).workerToken = w.workerToken ∧ (f w).leaseHolder = w.leaseHolder ∧
      (f w).serviceLabel = w.serviceLabel ∧ (f w).projectId = w.projectId)
    (hactive : ∀ w, p w = true → (f w).state.isActive = true → w.state.isActive = true) :
    Compatible p f := by
  intro a b hp h
  obtain ⟨htoken, hholder, hlabel, hproject⟩ := hkeys a
  simp only [Keyed.conflict, htoken, hholder, hlabel, hproject, Bool.or_eq_true,
    Bool.and_eq_true] at h ⊢
  rcases h with h | ⟨⟨h, ha⟩, hb⟩
  · exact .inl h
  · exact .inr ⟨⟨h, hactive a hp ha⟩, hb⟩

namespace AgentWorker

/-- The columns a claim writes. -/
def claim (workerPid : Nat) (startedAt : String) (w : AgentWorker) : AgentWorker :=
  { w with
    state := .running, workerPid := some workerPid, startedAt := some startedAt,
    heartbeatAt := some startedAt, error := none }

/-- An abandoned worker gives way to its successor. -/
def supersede (w : AgentWorker) : AgentWorker := { w with state := .superseded }

/-- The columns an abandonment writes. -/
def abandon (finishedAt error : String) (runId : Int) (w : AgentWorker) : AgentWorker :=
  { w with
    state := .abandoned, finishedAt := some finishedAt, error := some error,
    runId := some runId }

/-- The columns a finalization writes. -/
def complete (finishedAt : String) (runId : Int) (error : Option String) (w : AgentWorker) :
    AgentWorker :=
  { w with
    state := .completed, finishedAt := some finishedAt, runId := some runId, error := error }

theorem supersede_compatible (p : AgentWorker → Bool) : Compatible p supersede :=
  compatible_of_inactive (fun _ => ⟨rfl, rfl, rfl, rfl⟩) fun _ _ h => nomatch h

end AgentWorker

namespace Registry

/-! ## The project lease -/

/-- `holder LIKE 'clt-reattached-%'`. -/
def isReattachedHolder (holder : String) : Bool := likePrefix "clt-reattached-" holder

/-- The lease is that of a worker that is still active. -/
def leaseOfActiveWorker (db : Registry) (l : Lease) : Bool :=
  db.agentWorkers.any fun w => w.activeIn l.projectId && w.leaseHolder == l.holder

/-- The lease that `try_acquire_lease` clears: expired by the order of its text, and
neither a reattached supervisor's nor an active worker's. -/
def clearableLease (db : Registry) (projectId : Int) (acquiredAt : String) (l : Lease) : Bool :=
  l.projectId == projectId && decide (l.expiresAt ≤ acquiredAt) &&
    !(isReattachedHolder l.holder) && !(db.leaseOfActiveWorker l)

/-- `try_acquire_lease`: two statements, each its own transaction. -/
def tryAcquireLease (projectId : Int) (holder acquiredAt expiresAt : String) (db : Registry) :
    Outcome Bool :=
  let leases := db.leases.delete (db.clearableLease projectId acquiredAt)
  match db.insertOrIgnoreInto projectId leases
      { projectId := projectId, holder := holder, acquiredAt := acquiredAt,
        expiresAt := expiresAt } with
  | some (leases, inserted) => ⟨.ok (decide (0 < inserted)), { db with leases := leases }⟩
  | none =>
    ⟨.error ("Failed to acquire lease for project " ++ castText projectId),
      { db with leases := leases }⟩

/-- `renew_lease`. -/
def renewLease (projectId : Int) (holder expiresAt : String) (db : Registry) : Outcome Bool :=
  let owned := fun l : Lease => l.projectId == projectId && l.holder == holder
  ⟨.ok (decide (0 < db.leases.count owned)),
    { db with leases := db.leases.update owned fun l => { l with expiresAt := expiresAt } }⟩

/-- `release_lease`. -/
def releaseLease (projectId : Int) (holder : String) (db : Registry) : Outcome Bool :=
  let owned := fun l : Lease => l.projectId == projectId && l.holder == holder
  ⟨.ok (decide (0 < db.leases.count owned)), { db with leases := db.leases.delete owned }⟩

/-! ## The lease of a Git finalizer -/

/-- A shared interactive holder. -/
def isSharedInteractiveHolder (holder : String) : Bool :=
  likePrefix "clt-shared-interactive-" holder ||
    likePrefix "clt-stopped-shared-interactive-" holder ||
    likePrefix "clt-readonly-interactive-" holder ||
    likePrefix "clt-stopped-readonly-interactive-" holder

/-- `GIT_FINALIZATION_NONBLOCKING_CONTROL`. -/
def gitFinalizationNonblockingControl (db : Registry) (sc : SessionControl) : Bool :=
  sc.state = .stopped ||
  (sc.state = .resumeRequested && sc.isIdle && db.gitFinalizations.any fun g =>
    g.is sc.projectId sc.codexSessionId && g.state.isUnfinished &&
      sqlEq sc.runToken (some (recoveryToken g.generation))) ||
  ((sc.state = .readyInteractive || sc.state = .interactive || sc.state = .stopRequested) &&
    sc.interactiveHolder.any isSharedInteractiveHolder &&
    ((sc.state = .readyInteractive && sc.childPid.isNone && sc.interactiveLaunchToken.isNone) ||
      ((sc.state = .interactive || sc.state = .stopRequested) &&
        sqlEq sc.interactiveLaunchToken sc.interactiveHolder)) &&
    !(db.gitFinalizations.any fun g => g.is sc.projectId sc.codexSessionId &&
      !(g.state = .completed || g.state = .cancelled)))

/-- A worker or a control of the project holds a finalizer back. -/
def blocksFinalizer (db : Registry) (projectId : Int) : Bool :=
  db.hasActiveWorker projectId ||
    db.sessionControls.any fun sc =>
      sc.projectId == projectId && !(db.gitFinalizationNonblockingControl sc)

/-- The first statement of `try_acquire_git_finalization_lease`: idle controls that
wait under an old generation move to the current one. -/
def repairRecoveryFences (projectId : Int) (acquiredAt : String) (db : Registry) : Registry :=
  let pending := fun sc : SessionControl =>
    db.gitFinalizations.find? fun g =>
      g.is sc.projectId sc.codexSessionId && g.state.isUnfinished
  { db with
    sessionControls := db.sessionControls.update
      (fun sc => sc.projectId == projectId && sc.state = .resumeRequested && sc.isIdle &&
        sc.runToken.any (likePrefix agentGitFinalizationResumeTokenPrefix) &&
        (pending sc).isSome)
      (fun sc =>
        { sc with
          runToken := (pending sc).map fun g => recoveryToken g.generation
          updatedAt := acquiredAt }) }

/-- The lease that a Git finalizer clears: expired as a number and not a reattached
supervisor's, or the very holder it was told to reclaim. -/
def reclaimableLease (db : Registry) (projectId : Int) (acquiredAt : String)
    (reclaimHolder : Option String) (l : Lease) : Bool :=
  l.projectId == projectId &&
    ((!(isReattachedHolder l.holder) && castInteger l.expiresAt ≤ castInteger acquiredAt) ||
      sqlEq (some l.holder) reclaimHolder) &&
    !(db.blocksFinalizer projectId)

theorem reclaimableLease_iff {db : Registry} {projectId : Int} {acquiredAt : String}
    {reclaimHolder : Option String} {l : Lease} :
    db.reclaimableLease projectId acquiredAt reclaimHolder l = true ↔
      l.projectId = projectId ∧
        (isReattachedHolder l.holder = false ∧ castInteger l.expiresAt ≤ castInteger acquiredAt ∨
          reclaimHolder = some l.holder) ∧ db.blocksFinalizer projectId = false := by
  simp only [reclaimableLease, Bool.and_eq_true, Bool.or_eq_true, Bool.not_eq_true', beq_iff_eq,
    decide_eq_true_eq, sqlEq_some_left, and_assoc]

/-- The lease that a Git finalizer takes while the project has an unfinished
journal and nothing blocks it. -/
def insertFinalizerLease (projectId : Int) (holder acquiredAt expiresAt : String)
    (leases : Table Lease) (db : Registry) : Step Bool (Table Lease × Nat) :=
  if (db.gitFinalizations.any fun g => g.projectId == projectId && g.state.isUnfinished) &&
      !(db.blocksFinalizer projectId) then
    fetch (db.insertOrIgnoreInto projectId leases
        { projectId := projectId, holder := holder, acquiredAt := acquiredAt,
          expiresAt := expiresAt })
      (.error ("Failed to acquire the guarded Git finalization lease for project " ++
        castText projectId))
  else .ok (leases, 0)

/-- `try_acquire_git_finalization_lease`. -/
def tryAcquireGitFinalizationLease (projectId : Int) (holder acquiredAt expiresAt : String)
    (reclaimHolder : Option String) (db : Registry) : Outcome Bool :=
  let db' := db.repairRecoveryFences projectId acquiredAt
  db.transaction do
    let leases := db'.leases.delete
      (db'.reclaimableLease projectId acquiredAt reclaimHolder)
    let (leases, inserted) ←
      db'.insertFinalizerLease projectId holder acquiredAt expiresAt leases
    return (decide (inserted = 1), { db' with leases := leases })

/-- `renew_git_finalization_lease_blocking`. -/
def renewGitFinalizationLease (projectId : Int) (holder expiresAt : String) (db : Registry) :
    Outcome Bool :=
  let owned := fun l : Lease =>
    l.projectId == projectId && l.holder == holder && !(db.blocksFinalizer projectId)
  ⟨.ok (decide (db.leases.count owned = 1)),
    { db with leases := db.leases.update owned fun l => { l with expiresAt := expiresAt } }⟩

/-! ## Worker generations -/

/-- A dispatched worker whose lease is still its own. -/
def claimable (db : Registry) (workerToken : String) (w : AgentWorker) : Bool :=
  w.workerToken == workerToken && w.state = .dispatching && db.holdsLease w

theorem claim_compatible (db : Registry) (workerToken : String) (workerPid : Nat)
    (startedAt : String) :
    Compatible (db.claimable workerToken) (AgentWorker.claim workerPid startedAt) := by
  refine AgentWorker.compatible_of_inactive (fun _ => ⟨rfl, rfl, rfl, rfl⟩) fun w hw _ => ?_
  simp only [claimable, Bool.and_eq_true, decide_eq_true_eq] at hw
  rw [hw.1.2]
  rfl

/-- Claim a worker whose lease is still its own. -/
def claimed (db : Registry) (workerToken : String) (workerPid : Nat) (startedAt : String) :
    Registry :=
  { db with
    agentWorkers := db.agentWorkers.update (db.claimable workerToken)
      (AgentWorker.claim workerPid startedAt)
      (db.claim_compatible workerToken workerPid startedAt) }

/-- The registry after a reservation, over the workers among which its row is:
abandoned workers of the project give way, and the lease goes to the new one. -/
def reserved (r : AgentWorkerReservation) (workers : Table AgentWorker) (db : Registry) :
    Registry :=
  { db with
    agentWorkers := workers.update
      (fun w => w.projectId == r.projectId && w.state = .abandoned &&
        w.workerToken != r.workerToken)
      AgentWorker.supersede (AgentWorker.supersede_compatible _)
    leases := db.leases.update
      (fun l => l.projectId == r.projectId && l.holder == r.expectedLeaseHolder)
      fun l => { l with holder := workerLeaseHolder r.workerToken } }

/-- `reserve_worker`; `initialClaim` is the pid and start of an inline worker. -/
def reserveWorker (r : AgentWorkerReservation) (initialClaim : Option (Nat × String))
    (db : Registry) : Outcome Bool :=
  db.transaction do
    require (decide ((r.maxActiveWorkers : Int) ≤ maxInteger))
      (.error "Maximum active worker count is outside the supported range")
    require (decide (0 < r.maxActiveWorkers) &&
        decide (db.agentWorkers.count (fun w => w.state.isActive) < r.maxActiveWorkers))
      (.ok false)
    let (workers, inserted) ← fetch (db.insertOrIgnoreInto r.projectId db.agentWorkers r.toRow)
      (.error ("Failed to reserve worker " ++ r.workerToken ++ " for project " ++
        castText r.projectId))
    require (decide (inserted = 1)) (.ok false)
    require (decide (db.leases.count (fun l =>
      l.projectId == r.projectId && l.holder == r.expectedLeaseHolder) = 1)) (.ok false)
    let reserved := db.reserved r workers
    match initialClaim with
    | none => return (true, reserved)
    | some (workerPid, startedAt) => do
      require (decide (reserved.agentWorkers.count (reserved.claimable r.workerToken) = 1))
        (.ok false)
      return (true, reserved.claimed r.workerToken workerPid startedAt)

/-- A worker that runs under this pid. -/
def runningAs (workerToken : String) (workerPid : Nat) (w : AgentWorker) : Bool :=
  w.workerToken == workerToken && w.state = .running && sqlEq w.workerPid (some workerPid)

/-- `claim_worker`. -/
def claimWorker (workerToken : String) (workerPid : Nat) (startedAt : String) (db : Registry) :
    Outcome Bool :=
  if db.agentWorkers.count (db.claimable workerToken) = 1 then
    ⟨.ok true, db.claimed workerToken workerPid startedAt⟩
  else
    ⟨.ok (decide (db.agentWorkers.count (fun w =>
      runningAs workerToken workerPid w && db.holdsLease w) = 1)), db⟩

/-- `renew_worker`. -/
def renewWorker (workerToken : String) (workerPid : Nat) (heartbeatAt leaseExpiresAt : String)
    (db : Registry) : Outcome Bool :=
  db.transaction do
    let worker ← fetch
      (db.agentWorkers.find? fun w => runningAs workerToken workerPid w && db.holdsLease w)
      (.ok false)
    let workers := db.agentWorkers.update (runningAs workerToken workerPid) fun w =>
      { w with heartbeatAt := some heartbeatAt }
    require (decide (db.agentWorkers.count (runningAs workerToken workerPid) = 1)) (.ok false)
    let owned := fun l : Lease =>
      l.projectId == worker.projectId && l.holder == worker.leaseHolder
    require (decide (db.leases.count owned = 1)) (.ok false)
    return (true, { db with
      agentWorkers := workers
      leases := db.leases.update owned fun l => { l with expiresAt := leaseExpiresAt } })

/-- `supersede_abandoned_workers_for_lease_blocking`. -/
def supersedeAbandonedWorkersForLease (projectId : Int) (expectedLeaseHolder : String)
    (db : Registry) : Outcome Nat :=
  let where_ := fun w : AgentWorker =>
    w.projectId == projectId && w.state = .abandoned &&
      db.leases.any fun l => l.projectId == projectId && l.holder == expectedLeaseHolder
  ⟨.ok (db.agentWorkers.count where_),
    { db with
      agentWorkers := db.agentWorkers.update where_ AgentWorker.supersede
        (AgentWorker.supersede_compatible _) }⟩

/-- `mark_worker_service_cleaned_blocking`. -/
def markWorkerServiceCleaned (workerToken cleanedAt : String) (db : Registry) : Outcome Bool :=
  let where_ := fun w : AgentWorker => w.workerToken == workerToken && !w.state.isActive
  ⟨.ok (decide (db.agentWorkers.count where_ = 1)),
    { db with
      agentWorkers := db.agentWorkers.update where_ fun w =>
        { w with serviceCleanedAt := some cleanedAt } }⟩

/-- Record the run of a worker: the run that its token already has is reused, and
the project's statistics change only with a run that is inserted. -/
def recordWorkerRun (outcome : AgentRunOutcome) (workerToken context : String) (db : Registry) :
    Except String (Registry × Int) :=
  match db.insertOrIgnoreInto outcome.projectId db.runs
      (outcome.toRun db.nextRunId (some workerToken)) with
  | none => .error context
  | some (runs, inserted) =>
    if inserted = 1 then
      .ok ({ db with runs := runs }.updateProjectAfterRun outcome, db.nextRunId)
    else
      match db.runIdOfToken outcome.projectId (some workerToken) with
      | some runId => .ok (db, runId)
      | none => .error ("Agent database query returned no rows: " ++
          "SELECT id FROM runs WHERE worker_token = ?1 AND project_id = ?2")

/-- `abandon_worker`. -/
def abandonWorker (q : AgentWorkerAbandonment) (db : Registry) : Outcome Bool :=
  db.transaction do
    let where_ := fun w : AgentWorker =>
      w.workerToken == q.workerToken && w.state = q.expectedState &&
        sqlSame w.workerPid q.expectedWorkerPid && sqlSame w.heartbeatAt q.expectedHeartbeatAt
    let worker ← fetch (db.agentWorkers.find? where_) (.ok false)
    let observed := (db.lease? worker.projectId).map Lease.holder
    require (observed.all fun holder =>
      holder == worker.leaseHolder || q.permittedSuccessorHolder == some holder) (.ok false)
    let (recorded, runId) ← attempt (db.recordWorkerRun
      { projectId := worker.projectId, status := "failure",
        startedAt := worker.startedAt.getD worker.createdAt,
        finishedAt := some q.finishedAt, exitCode := none, logDir := none, stdoutPath := none,
        stderrPath := none, summary := some q.error, codexSessionId := none }
      q.workerToken ("Failed to record abandoned worker " ++ q.workerToken))
    require (decide (db.agentWorkers.count where_ = 1)) (.ok false)
    let own := fun l : Lease =>
      l.projectId == worker.projectId && l.holder == worker.leaseHolder
    let releases := observed == some worker.leaseHolder
    require (!releases || decide (db.leases.count own = 1)) (.ok false)
    return (true, { recorded with
      agentWorkers := db.agentWorkers.update where_
        (AgentWorker.abandon q.finishedAt q.error runId)
        (AgentWorker.compatible_of_inactive (fun _ => ⟨rfl, rfl, rfl, rfl⟩)
          fun _ _ h => nomatch h)
      leases := if releases then db.leases.delete own else db.leases })

/-- `finalize_worker`. -/
def finalizeWorker (q : AgentWorkerFinalization) (db : Registry) : Outcome (Option Int) :=
  db.transaction do
    let worker ← fetch (db.worker? q.workerToken) (.ok none)
    if worker.state = .completed then do
      let runId ← fetch worker.runId (.error "Completed agent worker is missing its run ID")
      return (some runId, db)
    else do
      require (worker.state.isActive && worker.workerPid == q.expectedWorkerPid) (.ok none)
      require (decide (db.leases.count (fun l =>
        l.projectId == worker.projectId && l.holder == q.expectedLeaseHolder) = 1)) (.ok none)
      let where_ := fun w : AgentWorker => w.workerToken == q.workerToken &&
        w.state = worker.state && sqlSame w.workerPid q.expectedWorkerPid
      require (decide (db.agentWorkers.count where_ = 1)) (.ok none)
      let finalizing ← fetch
        (db.agentWorkers.update? where_ fun w => { w with state := .finalizing })
        (.error ("Failed to claim worker " ++ q.workerToken ++ " finalization"))
      let (recorded, runId) ← attempt (db.recordWorkerRun
        { projectId := worker.projectId, status := q.status,
          startedAt := worker.startedAt.getD worker.createdAt,
          finishedAt := some q.finishedAt, exitCode := q.exitCode, logDir := q.logDir,
          stdoutPath := q.stdoutPath, stderrPath := q.stderrPath, summary := q.summary,
          codexSessionId := q.codexSessionId }
        q.workerToken ("Failed to record run for worker " ++ q.workerToken))
      let isFinalizing := fun w : AgentWorker =>
        w.workerToken == q.workerToken && w.state = .finalizing
      require (decide (finalizing.count isFinalizing = 1)) (.ok none)
      return (some runId, { recorded with
        agentWorkers := finalizing.update isFinalizing
          (AgentWorker.complete q.finishedAt runId q.error)
          (AgentWorker.compatible_of_inactive (fun _ => ⟨rfl, rfl, rfl, rfl⟩)
            fun _ _ h => nomatch h)
        leases := db.leases.delete fun l =>
          l.projectId == worker.projectId && l.holder == worker.leaseHolder })

end Registry

end Clt
