import Clt.Coordination.ReadyTasks
import Clt.Durable.Procedure
import Clt.Registry.WorkersLeases
import Clt.Session.Reconciliation
import Clt.Supervisor.Calls
import Clt.Task.Attachment

/-!
# The scheduler pass

A pass goes through the registered projects, decides for each of them what it needs, and takes the
lease of the project for a job that is not started before the pass is over. The leases are those
of the registry. What the pass has others find out or do before (the boards, Git, the gate of the
supervisor, recoveries) is part of the reply to the step, and what that does to the registry
is done by the others.
-/

namespace Clt.Scheduler

open Relational Durable

/-! ## Steps -/

/-- The task that a session is linked to, as far as the pass looks at it. -/
structure LinkedTask where
  status : TaskStatus
  isStopped : Bool
  isBlocked : Bool

/-- How a step turns out, and what it is told. A write that fails may have been made. -/
structure Reply where
  fails : Bool := false
  late : Bool := false
  error : String := ""
  now : Nat := 0
  acquiredAt : String := ""
  expiresAt : String := ""
  durableWorkers : List Int := []
  leasedProjects : List Int := []
  unacknowledged : List (Int × String) := []
  abandonedProjects : List Int := []
  successCooldown : Nat := 0
  failureBackoff : Nat := 0
  scan : Int → AgentProjectScan := fun _ => AgentProjectScan.fromCounts 0 0 0 0 0
  retiredJournals : Int → Nat := fun _ => 0
  writerConflict : Int → Option String := fun _ => none
  failedActivation : Int → Option String := fun _ => none
  gate : Int → Bool → Supervisor.Gate := fun _ _ => .normal
  ensuredResume : Int → String → Bool := fun _ _ => true
  finalizationLease : Int → Bool := fun _ => true
  reconciled : Int → Option String × List GitFinalization := fun _ => (none, [])
  branchRecovery : Int → String → Option String := fun _ _ => none
  terminalTask : Int → String → Option LinkedTask := fun _ _ => none
  queuedTask : Int → String → Option LinkedTask := fun _ _ => none
  queuedBlockersCanWait : Int → Bool := fun _ => false
  resumable : Int → Option String := fun _ => none
  interrupted : Int → Option String := fun _ => none
  resumableDoing : Int → Bool := fun _ => false
  manualSession : Int → String → Bool := fun _ _ => false
  sessionWaiting : Int → String → Bool := fun _ _ => false
  hasReadyTasks : Int → Bool := fun _ => true
  hasBlockedTasks : Int → Bool := fun _ => false
  doneContents : Int → List Text := fun _ => []
  blockedSnapshots : Int → List BlockedTaskSnapshot := fun _ => []

/-- What happened to leases, and what was found before a lease was taken. -/
inductive Event where
  | claimed (projectId : Int)
  | manual (session : String) (answer : Bool)
  | waiting (session : String) (answer : Bool)
  | ready (projectId : Int) (answer : Bool)
  | gate (projectId : Int) (answer : Supervisor.Gate)
  | acquired (projectId : Int)
  | released (projectId : Int)
  | unsure (projectId : Int)

/-- The registry, and what happened. -/
structure World where
  db : Registry
  log : List Event

abbrev Scheduled (α : Type) := Procedure Reply World String α

section

variable {α : Type}

/-- The world with one more event. -/
def noted (event : Event) (w : World) : World := { w with log := event :: w.log }

/-- Something is found out or done elsewhere. -/
def ask (f : Reply → α) : Scheduled α :=
  Procedure.step fun i w => if i.fails then (.error i.error, w) else (.ok (f i), w)

/-- Something is found out that cannot fail. -/
def consult (f : Reply → α) : Scheduled α := Procedure.step fun i w => (.ok (f i), w)

/-- An answer that is noted. -/
def asked (f : Reply → α) (seen : α → Event) : Scheduled α :=
  Procedure.step fun i w =>
    if i.fails then (.error i.error, w) else (.ok (f i), noted (seen (f i)) w)

/-- A reading of the registry. -/
def read (f : Registry → α) : Scheduled α :=
  Procedure.step fun i w => if i.fails then (.error i.error, w) else (.ok (f w.db), w)

/-- The lock on the board is taken, and the acquisition of a lease begins. -/
def claim (projectId : Int) : Scheduled Unit := asked (fun _ => ()) fun _ => .claimed projectId

/-- `try_acquire_lease`. -/
def tryAcquire (projectId : Int) (holder : String) : Scheduled (Bool × String × String) :=
  Procedure.step fun i w =>
    let outcome := w.db.tryAcquireLease projectId holder i.acquiredAt i.expiresAt
    if i.fails then
      (.error i.error, if i.late then noted (.unsure projectId) { w with db := outcome.db } else w)
    else match outcome.result with
      | .error e => (.error e, { w with db := outcome.db })
      | .ok true => (.ok (true, i.acquiredAt, i.expiresAt),
          noted (.acquired projectId) { w with db := outcome.db })
      | .ok false => (.ok (false, i.acquiredAt, i.expiresAt), { w with db := outcome.db })

/-- `release_lease`. -/
def release (projectId : Int) (holder : String) : Scheduled Unit :=
  Procedure.step fun i w =>
    let db := (w.db.releaseLease projectId holder).db
    if i.fails then (.error i.error, noted (.unsure projectId) (if i.late then { w with db } else w))
    else (.ok (), noted (.released projectId) { w with db })

/-- `AgentUnstartedLeaseGuard::drop`. -/
def dropGuard : List (Int × String) → Scheduled Unit
  | [] => pure ()
  | (projectId, holder) :: rest => do
    let _ ← (release projectId holder).attempt
    dropGuard rest

/-- What runs under an `AgentUnstartedLeaseGuard`, which is disarmed when it returns. -/
def underGuard (leases : List (Int × String)) (body : Scheduled α) : Scheduled α := do
  match ← body.attempt with
  | .ok a => pure a
  | .error e => do
    dropGuard leases
    Procedure.fail e

end

/-! ## Decisions -/

/-- `AgentSchedulingDecisionRequest`. -/
structure AgentSchedulingDecisionRequest where
  hasResumeSession : Bool
  resumeInterruptedTask : Bool
  hasBlockedTask : Bool
  blockedRecoveryBackoffActive : Bool
  hasPendingTask : Bool

/-- `decide_agent_scheduling_stage`. -/
def decideAgentSchedulingStage (request : AgentSchedulingDecisionRequest) :
    Option AgentTaskSelection :=
  if request.hasResumeSession then some .resumeSession
  else if request.resumeInterruptedTask then some .resumeDoing
  else if request.hasBlockedTask && !request.blockedRecoveryBackoffActive then some .recoverBlocked
  else if request.hasPendingTask then some .nextTodo
  else if request.hasBlockedTask then some .recoverBlocked
  else none

/-- `remaining_agent_delay`. -/
def remainingAgentDelay (lastAt : Option String) (now delay : Nat) : Option Nat := do
  let lastAt ← parseUnsigned 64 (← lastAt).toList
  let readyAt := min (lastAt + delay) (2 ^ 64 - 1)
  if now < readyAt then some (readyAt - now) else none

/-- `blocked_recovery_backoff_reason`. -/
def blockedRecoveryBackoffReason (project : Project) (now failureBackoff : Nat) : Option String :=
  (remainingAgentDelay project.lastBlockedRecoveryAt now failureBackoff).map fun remaining =>
    "blocked-task recovery backoff active for " ++ toString remaining ++ "s"

/-- `agent_project_cooldown_reason`. -/
def agentProjectCooldownReason (project : Project) (now successCooldown failureBackoff : Nat) :
    Option String :=
  let failed := if 0 < project.failureCount then
    remainingAgentDelay project.lastFailureAt now failureBackoff else none
  match failed with
  | some remaining => some ("failure backoff active for " ++ toString remaining ++ "s")
  | none => (remainingAgentDelay project.lastSuccessAt now successCooldown).map fun remaining =>
      "success cooldown active for " ++ toString remaining ++ "s"

/-- `agent_task_cooldown_reason`. -/
def agentTaskCooldownReason (project : Project) (selection : AgentTaskSelection)
    (now successCooldown failureBackoff : Nat) : Option String :=
  if selection = .resumeDoing || selection = .resumeSession then
    (if 0 < project.failureCount then
      remainingAgentDelay project.lastFailureAt now failureBackoff else none).map fun remaining =>
        "failure backoff active for " ++ toString remaining ++ "s"
  else
    (agentProjectCooldownReason project now successCooldown failureBackoff).orElse fun _ =>
      if selection = .recoverBlocked then blockedRecoveryBackoffReason project now failureBackoff
      else none

/-- `session_controls_suspend_project`. -/
def sessionControlsSuspendProject (controls : List SessionControl) : Bool :=
  controls.any fun control => control.state ≠ .stopped

/-- `control_allows_review`. -/
def controlAllowsReview (control : SessionControl) : Bool := control.isParked && control.isIdle

section

variable (projectId : Int)

/-- `queued_resume_can_wait`. -/
def queuedResumeCanWait (control : SessionControl) : Scheduled Bool :=
  if control.state ≠ .resumeRequested || !control.isIdle then pure false
  else do
    match ← ask fun i => i.queuedTask projectId control.codexSessionId with
    | none => pure false
    | some task => do
      let held ← (if task.status = .done then pure false
        else if task.isStopped then pure true
        else ask fun i => i.sessionWaiting projectId control.codexSessionId)
      if held then pure true
      else if task.status = .todo && task.isBlocked then
        ask fun i => i.queuedBlockersCanWait projectId
      else pure false

/-- The loop of `controls_suspend_ready_work`. -/
def anySuspends : List SessionControl → Scheduled Bool
  | [] => pure false
  | control :: rest => do
    let waits ← (if control.state = .stopped then pure true
      else queuedResumeCanWait projectId control)
    if waits then anySuspends rest else pure true

/-- `controls_suspend_ready_work`. -/
def controlsSuspendReadyWork (controls : List SessionControl) : Scheduled Bool :=
  if sessionControlsSuspendProject controls then anySuspends projectId controls else pure false

/-- `session_controls_for_project`. -/
def readControls : Scheduled (List SessionControl) :=
  read fun db => db.sessionControls.rows.filter fun control => control.projectId = projectId

/-- `lease_for_project`. -/
def readLease : Scheduled (Option Lease) := read fun db => db.lease? projectId

/-- `list_pending_git_finalizations`. -/
def readFinalizations : Scheduled (List GitFinalization) :=
  read fun db => db.gitFinalizations.rows.filter fun g =>
    g.projectId = projectId && g.state.isUnfinished

end

/-! ## The acquisition of a job -/

/-- What a pass is given: its holder, the jobs and settings of the daemon, and the processes of the
system. -/
structure PassRequest where
  holder : String
  reclaimCurrentProcessLeases : Bool
  activeProjectIds : List Int
  maxGlobalJobs : Nat
  hasCheckin : Bool
  now : Nat
  os : Processes
  nameOrder : Project → Project → Bool

/-- `AgentRunJob`. -/
structure AgentRunJob where
  project : Project
  holder : String
  maxGlobalJobs : Nat
  taskSelection : AgentTaskSelection
  resumeSessionId : Option String
  blockedTaskCountBefore : Nat
  doneTaskContentsBefore : List Text
  blockedTaskSnapshotsBefore : List BlockedTaskSnapshot

/-- `AgentJobAcquisitionResult`. -/
inductive AgentJobAcquisitionResult where
  | acquired (job : AgentRunJob) (acquiredAt expiresAt : String)
  | activeLease (lease : Option Lease)
  | sessionSuspended

section

variable (request : PassRequest) (project : Project)

/-- What a lease is reclaimed with: a pass without controls. -/
def reclaiming (lease : Lease) (now : Nat) : Pass where
  projectId := project.id
  lease := some lease
  reclaimCurrentProcessLeases := request.reclaimCurrentProcessLeases
  now
  os := request.os
  taskIsDone _ := false
  attaches _ := false
  updatedAt := ""
  acquiredAt := ""
  expiresAt := ""

/-- `try_reclaim_inactive_agent_lease`. -/
def tryReclaim (lease : Lease) : Scheduled Bool :=
  Procedure.step fun i w =>
    let outcome := (reclaiming request project lease i.now).tryReclaimInactiveAgentLease lease
      request.reclaimCurrentProcessLeases w.db
    if i.fails then (.error i.error, if i.late then { w with db := outcome.db } else w)
    else match outcome.result with
      | .ok reclaimed => (.ok reclaimed, { w with db := outcome.db })
      | .error e => (.error e, { w with db := outcome.db })

/-- The session may be taken, and there is work for the selection: the checks under the board lock. -/
def recheck (selection : AgentTaskSelection) (session : Option String) : Scheduled Bool := do
  let manual ← (match session with
    | some session => asked (fun i => i.manualSession project.id session) (.manual session)
    | none => pure false)
  if manual then pure false
  else do
    let waiting ← (match session with
      | some session => asked (fun i => i.sessionWaiting project.id session) (.waiting session)
      | none => pure false)
    if waiting then pure false
    else do
      let ready ← (if selection = .nextTodo then
          asked (fun i => i.hasReadyTasks project.id) (.ready project.id)
        else pure true)
      if !ready then pure false
      else if selection = .supervisorReview || selection = .supervisorRetry then do
        let blocked ← ask fun i => i.hasBlockedTasks project.id
        let gate ← asked (fun i => i.gate project.id blocked) (.gate project.id)
        pure (match gate with
          | .review => selection = .supervisorReview
          | .retry approved => selection = .supervisorRetry && session = some (String.ofList approved)
          | _ => false)
      else pure true

/-- The lease is tried again when the one that is there can be reclaimed. -/
def acquireLease : Scheduled (Bool × String × String) := do
  let first ← tryAcquire project.id request.holder
  if first.1 then pure first
  else do
    match ← readLease project.id with
    | none => pure first
    | some lease => do
      let reclaimed ← tryReclaim request project lease
      if reclaimed then tryAcquire project.id request.holder else pure first

/-- Another session of the project is in the way. -/
def isSuspended (selection : AgentTaskSelection) (session : Option String) : Scheduled Bool :=
  if session.isSome then pure false
  else do
    let controls ← readControls project.id
    if selection = .supervisorReview then pure (controls.any fun control => !controlAllowsReview control)
    else controlsSuspendReadyWork project.id controls

/-- What is done with a lease that was acquired. -/
def useLease (scan : AgentProjectScan) (selection : AgentTaskSelection) (session : Option String)
    (acquiredAt expiresAt : String) : Scheduled AgentJobAcquisitionResult := do
  let suspended ← isSuspended project selection session
  if suspended then do
    release project.id request.holder
    pure .sessionSuspended
  else do
    let done ← (ask fun i => i.doneContents project.id).attempt
    let blocked ← (ask fun i => i.blockedSnapshots project.id).attempt
    pure (.acquired
      { project, holder := request.holder, maxGlobalJobs := request.maxGlobalJobs
        taskSelection := selection, resumeSessionId := session
        blockedTaskCountBefore := scan.blockedTodoCount + scan.blockedDoingCount
        doneTaskContentsBefore := done.toOption.getD []
        blockedTaskSnapshotsBefore := blocked.toOption.getD [] } acquiredAt expiresAt)

/-- `acquire_agent_job_stage`. -/
def acquireAgentJobStage (scan : AgentProjectScan) (selection : AgentTaskSelection)
    (session : Option String) : Scheduled AgentJobAcquisitionResult := do
  claim project.id
  let selected ← recheck project selection session
  if !selected then pure .sessionSuspended
  else do
    let lease ← acquireLease request project
    if !lease.1 then do
      let current ← readLease project.id
      pure (.activeLease current)
    else do
      underGuard [(project.id, request.holder)]
        (useLease request project scan selection session lease.2.1 lease.2.2)

end

/-! ## One project -/

/-- `AgentSchedulerPass`, the jobs, and the leases that the pass holds for them. -/
structure Progress where
  scannedProjects : Nat := 0
  pendingProjects : Nat := 0
  activeAgentJobs : Nat := 0
  skippedActiveLease : Nat := 0
  deferredProjects : Nat := 0
  runsStarted : Nat := 0
  jobs : List AgentRunJob := []
  unstartedLeases : List (Int × String) := []

/-- The job is pushed and its lease tracked. -/
def Progress.start (s : Progress) (job : AgentRunJob) : Progress :=
  { s with
    runsStarted := s.runsStarted + 1, jobs := s.jobs ++ [job]
    unstartedLeases := s.unstartedLeases ++ [(job.project.id, job.holder)] }

section

variable (request : PassRequest) (s : Progress) (project : Project) (scan : AgentProjectScan)

/-- A project with work takes one of the jobs, when one is left. -/
def startJob (selection : AgentTaskSelection) (session : Option String)
    (skipsActiveLease : Bool) : Scheduled Progress :=
  let pending := { s with pendingProjects := s.pendingProjects + 1 }
  if request.maxGlobalJobs ≤ s.activeAgentJobs + s.jobs.length then
    pure { pending with deferredProjects := s.deferredProjects + 1 }
  else do
    match ← acquireAgentJobStage request project scan selection session with
    | .acquired job _ _ => pure (pending.start job)
    | .activeLease _ =>
      pure (if skipsActiveLease then
        { pending with skippedActiveLease := s.skippedActiveLease + 1 } else pending)
    | .sessionSuspended => pure pending

/-- The gate of the supervisor: the project is done with, or ordinary work goes on. -/
def supervise : Scheduled (Option Progress) := do
  match ← ask fun i => i.gate project.id (0 < scan.blockedTodoCount + scan.blockedDoingCount) with
  | .normal => pure none
  | .hold _ => pure (some s)
  | .review => some <$> startJob request s project scan .supervisorReview none false
  | .retry session =>
    some <$> startJob request s project scan .supervisorRetry (some (String.ofList session)) false

/-- The first journal that is worked on and whose task may go on. -/
def eligibleWorking (backoff : Bool) : List GitFinalization → Scheduled (Option GitFinalization)
  | [] => pure none
  | finalization :: rest => do
    match ← ask fun i => i.terminalTask project.id finalization.codexSessionId with
    | none => eligibleWorking backoff rest
    | some task => do
      let waits ← (if task.status = .todo && task.isBlocked then
          ask fun i => i.queuedBlockersCanWait project.id
        else pure false)
      if (task.status = .todo || task.status = .doing) && !waits && !task.isStopped &&
          (!task.isBlocked || !backoff) then
        pure (some finalization)
      else eligibleWorking backoff rest

end

/-- What Git leaves to do in a project. -/
inductive Settled where
  | done (s : Progress)
  | goOn (project : Project) (existing : Option Lease) (finalizations : List GitFinalization)

section

variable (request : PassRequest) (s : Progress) (project : Project)

/-- The project as the registry has it now. -/
def rereadProject (message : String) : Scheduled Project := do
  match ← read fun db => db.projects.rows.find? fun p => p.id = project.id with
  | some p => pure p
  | none => Procedure.fail message

/-- One of the automatic recoveries: the project is done with when it recovered something, or failed. -/
def recovered (f : Reply → Option String) : Scheduled Bool := do
  match ← (ask f).attempt with
  | .ok none => pure false
  | .ok (some _) => pure true
  | .error _ => pure true

/-- Every one of them, in order. -/
def eachOf {β : Type} (f : β → Scheduled Unit) : List β → Scheduled Unit
  | [] => pure ()
  | b :: rest => do
    f b
    eachOf f rest

/-- The journals are reconciled under the lease of their finalizer. -/
def settleFinalizations (existing : Option Lease) : Scheduled Settled := do
  let before ← readFinalizations project.id
  eachOf (fun g => do let _ ← ask fun i => i.ensuredResume project.id g.codexSessionId)
    (before.filter fun g => g.state ≠ .pushPending && !(g.state = .working && g.taskIdentity.isNone))
  eachOf (fun _ => ask fun _ => ()) (before.filter fun g => g.state = .pushPending)
  if before.isEmpty then pure (.goOn project existing [])
  else if !(← ask fun i => i.finalizationLease project.id) then do
    let _ ← readLease project.id
    pure (.done { s with skippedActiveLease := s.skippedActiveLease + 1 })
  else do
    let result ← (ask fun i => i.reconciled project.id).attempt
    let releasing ← (ask fun _ => ()).attempt
    let (branch, finalizations) ← Procedure.rethrow result
    Procedure.rethrow releasing
    let existing ← readLease project.id
    match branch with
    | some session => do
      let _ ← (ask fun i => i.branchRecovery project.id session).attempt
      pure (.done s)
    | none => do
      let completed := finalizations.filter fun g => g.state = .completed
      let project ← (if completed.isEmpty then pure project
        else do
          eachOf (fun _ => ask fun _ => ()) completed
          rereadProject project "Acknowledged Git finalization project disappeared")
      if finalizations.any fun g => g.state = .pushPending then do
        ask fun _ => ()
        pure (.done s)
      else pure (.goOn project existing finalizations)

/-- The session that goes on, when there is one; `none` when the project has to wait. -/
def sessionToResume (backoff : Bool) (finalizations : List GitFinalization) :
    Scheduled (Option (Option String)) := do
  let working ← eligibleWorking project backoff (finalizations.filter fun g => g.state = .working)
  match (finalizations.find? fun g => g.state.isFinalizing).orElse fun _ => working with
  | some g => do
    let ready ← ask fun i => i.ensuredResume project.id g.codexSessionId
    pure (if ready then some (some g.codexSessionId) else none)
  | none => do
    match ← ask fun i => i.resumable project.id with
    | some session => pure (some (some session))
    | none => do
      let controls ← readControls project.id
      let suspended ← controlsSuspendReadyWork project.id controls
      pure (if suspended then none else some none)

/-- The ordinary work of a project. -/
def ordinaryWork (abandoned : List Int) (cooldowns : Nat × Nat) (existing : Option Lease)
    (scan : AgentProjectScan) (finalizations : List GitFinalization) : Scheduled Progress := do
  let hasBlocked : Bool := 0 < scan.blockedTodoCount + scan.blockedDoingCount
  let backoff := hasBlocked &&
    (blockedRecoveryBackoffReason project request.now cooldowns.2).isSome
  match ← sessionToResume project backoff finalizations with
  | none => pure s
  | some resume => do
    let interrupted ← (if resume.isNone then ask fun i => i.interrupted project.id else pure none)
    let resumableDoing ← (if 0 < scan.doingCount then ask fun i => i.resumableDoing project.id
      else pure false)
    let canWait ← (if hasBlocked then ask fun i => i.queuedBlockersCanWait project.id
      else pure false)
    let resumeInterrupted := interrupted.isSome || resumableDoing &&
      (abandoned.contains project.id || existing.any fun lease =>
        request.os.agentLeaseIsReclaimable lease request.reclaimCurrentProcessLeases request.now)
    match decideAgentSchedulingStage
        { hasResumeSession := resume.isSome, resumeInterruptedTask := resumeInterrupted
          hasBlockedTask := hasBlocked && !canWait, blockedRecoveryBackoffActive := backoff
          hasPendingTask := scan.status = .pending } with
    | none => pure s
    | some selection =>
      let rolledForward := finalizations.any fun g => g.state = .completed
      let cooldown := if rolledForward then none
        else agentTaskCooldownReason project selection request.now cooldowns.1 cooldowns.2
      if cooldown.isSome then pure s
      else startJob request s project scan selection (resume.orElse fun _ => interrupted) true

/-- An enabled project whose board can be read. -/
def visitBoard (abandoned : List Int) (cooldowns : Nat × Nat) : Scheduled Progress := do
  let _ ← readLease project.id
  ask fun _ => ()
  let existing ← readLease project.id
  let scan ← consult fun i => i.scan project.id
  let retired ← ask fun i => i.retiredJournals project.id
  let project ← (if retired = 0 then pure project
    else rereadProject project "Project disappeared after retiring its obsolete attempt")
  if ← recovered fun i => i.writerConflict project.id then pure s
  else if ← recovered fun i => i.failedActivation project.id then pure s
  else do
    let pending ← readFinalizations project.id
    let supervised ← (if pending.all fun g => g.state = .working then
        supervise request s project scan
      else pure none)
    match supervised with
    | some s' => pure s'
    | none => do
      match ← settleFinalizations s project existing with
      | .done s' => pure s'
      | .goOn project existing finalizations => do
        let supervised ← (if finalizations.any fun g =>
            g.state = .completed || g.state.isFinalizing then supervise request s project scan
          else pure none)
        match supervised with
        | some s' => pure s'
        | none => ordinaryWork request s project abandoned cooldowns existing scan finalizations

/-- The body of the loop over the projects. -/
def visit (durable abandoned : List Int) (cooldowns : Nat × Nat) : Scheduled Progress :=
  let scanned := if project.enabled then { s with scannedProjects := s.scannedProjects + 1 } else s
  if durable.contains project.id then pure scanned
  else if !project.enabled then do
    let existing ← readLease project.id
    ask fun _ => ()
    match existing with
    | some lease => do
      let _ ← tryReclaim request project lease
      pure s
    | none => pure s
  else do
    let scan ← consult fun i => i.scan project.id
    ask fun _ => ()
    if scan.status = .missing || scan.status = .uninitialized || scan.status = .unavailable then
      pure scanned
    else visitBoard request scanned project abandoned cooldowns

end

/-! ## The pass -/

section

variable (request : PassRequest)

/-- The loop over the projects: the guard holds the leases of the jobs so far. -/
def visitAll (durable abandoned : List Int) (cooldowns : Nat × Nat) :
    List Project → Progress → Scheduled Progress
  | [], s => pure s
  | project :: rest, s => do
    let s' ← underGuard s.unstartedLeases (visit request s project durable abandoned cooldowns)
    visitAll durable abandoned cooldowns rest s'

/-- `run_agent_scheduler_pass_with_max_global_jobs`. -/
def runAgentSchedulerPass : Scheduled Progress :=
  if request.maxGlobalJobs = 0 then
    Procedure.fail "CLT_AGENT_MAX_GLOBAL_JOBS must be greater than zero"
  else do
    Procedure.whenever (request.hasCheckin = true) (ask fun _ => ())
    let workers ← ask fun i => i.durableWorkers
    let leased ← ask fun i => i.leasedProjects
    let completed ← ask fun i => i.unacknowledged
    eachOf (fun _ => ask fun _ => ()) (completed.filter fun found =>
      !(workers.contains found.1 || request.activeProjectIds.contains found.1 ||
        leased.contains found.1))
    let abandoned ← ask fun i => i.abandonedProjects
    let durable := (workers ++ request.activeProjectIds).dedup
    let cooldowns ← ask fun i => (i.successCooldown, i.failureBackoff)
    let projects ← read fun db => db.projects.rows.mergeSort request.nameOrder
    visitAll request durable abandoned cooldowns projects { activeAgentJobs := durable.length }

end

end Clt.Scheduler
