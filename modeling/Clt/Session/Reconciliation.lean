import Clt.Session.Liveness

/-!
# Reconciliation of stale controls

Before it starts work for a project, the scheduler goes through the controls of the project's
sessions and takes back those that nobody stands behind any more
(`reconcile_stale_agent_session_controls`). What a control is to become is decided from the row
that was read at the start of the pass (`recovery`); the registry changes it only while it still
has what was read.
-/

namespace Clt

open Relational Registry

/-- What a pass is given, and what it reads besides the registry: the lease that the scheduler saw,
the time, the processes of the system, whether the only task of a session is done, whether the
process of a control can still be attached, and the clock as the registry writes it. -/
structure Pass where
  projectId : Int
  lease : Option Lease
  reclaimCurrentProcessLeases : Bool
  now : Nat
  os : Processes
  taskIsDone : String → Bool
  attaches : SessionControl → Bool
  updatedAt : String
  acquiredAt : String
  expiresAt : String

namespace Pass

variable (q : Pass)

/-! ## Reservations and guardians -/

/-- `matching_active_lease`. -/
def matchingActiveLease (holder : String) : Bool :=
  q.lease.any fun lease => lease.holder == holder &&
    !(q.os.agentLeaseIsReclaimable lease q.reclaimCurrentProcessLeases q.now) &&
    !(q.os.interactiveLeaseHolderIsProvenDead holder)

/-- `requester_alive`. -/
def requesterAlive (holder : String) : Bool :=
  q.os.agentLeaseHolderLiveness holder ≠ .dead && !(q.os.interactiveLeaseHolderIsProvenDead holder)

/-- `recently_updated`: within `TUI_SESSION_HANDOFF_TIMEOUT_SECONDS` and five more. -/
def recentlyUpdated (control : SessionControl) : Bool :=
  (parseUnsigned 64 control.updatedAt.toList).any fun updatedAt => q.now - updatedAt ≤ 20

/-- `lease_is_active`. -/
def leaseIsActive : Bool :=
  q.lease.any fun lease =>
    !(q.os.agentLeaseIsReclaimable lease q.reclaimCurrentProcessLeases q.now)

/-- A holder of a reservation that an idle or a stopped session was taken with. -/
def isIdleOrStoppedHolder (holder : String) : Bool :=
  startsWith holder "clt-idle-interactive-" || startsWith holder "clt-stopped-interactive-"

/-- A holder of a guardian that `Interactive` rows are kept for. -/
def isFencedWorkerHolder (holder : String) : Bool :=
  startsWith holder "clt-interactive-worker-" || startsWith holder "clt-idle-interactive-worker-" ||
    startsWith holder "clt-stopped-interactive-worker-"

/-- The reservation of an idle or stopped session that nobody stands behind any more. -/
def cancelledReservation (control : SessionControl) : Option String :=
  if control.state = .readyInteractive then
    control.interactiveHolder.filter fun holder => isIdleOrStoppedHolder holder &&
      !(q.matchingActiveLease holder) &&
      (q.os.interactiveLeaseHolderIsProvenDead holder || !(q.recentlyUpdated control))
  else none

/-- The guardian that owns the control, with its disposition. -/
def guardian (control : SessionControl) : Option (String × InteractiveGuardianDisposition) := do
  let holder ← control.interactiveHolder
  let disposition ← InteractiveGuardianDisposition.fromGuardianHolder holder
  if (control.state = .interactive ∨ control.state = .stopRequested) ∧
      control.interactiveLaunchToken = some holder then
    some (holder, disposition)
  else none

/-- The hand-off to a guardian has been abandoned. -/
def guardianIsAbandoned (control : SessionControl) (holder : String) : Bool :=
  q.os.guardianProcessIsProvenDead holder ||
    (!(q.matchingActiveLease holder) &&
      (!(q.requesterAlive holder) || !(q.recentlyUpdated control)))

/-- `handoff_is_abandoned`. -/
def handoffIsAbandoned (control : SessionControl) : Bool :=
  !(control.interactiveHolder.any q.matchingActiveLease) &&
    (!(control.interactiveHolder.any q.requesterAlive) || !(q.recentlyUpdated control))

/-- `recorded_child_is_gone`. -/
def recordedChildIsGone (control : SessionControl) : Bool :=
  control.childPid.any fun pid => q.os.groupRunning pid == some false

/-! ## What a control becomes -/

/-- The call that the pass makes for a control. -/
inductive Recovery where
  | leave
  | cancelReservation (holder : String)
  | recoverGuardian (holder : String) (disposition : InteractiveGuardianDisposition)
  | finalizeReaped (runToken : String)
  | recoverAutomated (target : AgentSessionControlState)
  | recoverInteractive

/-- What the pass decides for a control that has no guardian. -/
def unguardedRecovery (control : SessionControl) : Recovery :=
  let gone := !q.leaseIsActive && q.recordedChildIsGone control
  match control.state with
  | .running => if gone then .recoverAutomated .resumeRequested else .leave
  | .stopRequested => if gone then .recoverAutomated .stopped else .leave
  | .interruptRequested =>
    -- A row without a generation stays as it is.
    if gone then (control.runToken.map Recovery.finalizeReaped).getD .leave else .leave
  | .readyInteractive | .interactive =>
    if q.handoffIsAbandoned control &&
        !(control.state = .interactive && control.interactiveHolder.any isFencedWorkerHolder) &&
        control.childPid.all (fun pid => q.os.running pid == some false) then
      .recoverInteractive
    else .leave
  | .stopped | .resumeRequested => .leave

/-- What the pass decides for a control. -/
def recovery (control : SessionControl) : Recovery :=
  match q.cancelledReservation control with
  | some holder => .cancelReservation holder
  | none =>
    match guardian control with
    | some (holder, disposition) =>
      if q.guardianIsAbandoned control holder &&
          q.os.interactiveGuardianChildIsProvenAbsent control.childPid then
        .recoverGuardian holder disposition
      else .leave
    | none => q.unguardedRecovery control

/-- Does the pass look for a supervisor of the control's process? -/
def seeksSupervision (control : SessionControl) : Bool :=
  (q.cancelledReservation control).isNone && (guardian control).isNone && !q.leaseIsActive &&
    !(q.recordedChildIsGone control) &&
    (control.state = .running || control.state = .stopRequested ||
      control.state = .interruptRequested)

/-! ## What is done with the registry -/

/-- `retire_completed_resume_request`. -/
def retireCompletedResumeRequest (session : String) (db : Registry) : Outcome Bool :=
  match db.control? q.projectId session with
  | none => ⟨.ok false, db⟩
  | some control =>
    if control.state ≠ .resumeRequested || !control.isIdle ||
        control.runToken.any (fun token => startsWith token "clt-git-finalization:") ||
        !(q.taskIsDone session) then ⟨.ok false, db⟩
    else db.retireCompletedResumeRequest control q.now

/-- `try_reclaim_inactive_agent_lease`. -/
def tryReclaimInactiveAgentLease (lease : Lease) (reclaimCurrentProcessLeases : Bool)
    (db : Registry) : Outcome Bool :=
  let reclaimable := q.os.agentLeaseIsReclaimable lease reclaimCurrentProcessLeases q.now
  let orphaned := !reclaimable &&
    q.os.interactiveLeaseHolderLiveness lease.holder = some .dead &&
    !(db.sessionControls.any fun sc =>
      sc.projectId == q.projectId && sc.interactiveHolder == some lease.holder)
  if !reclaimable && !orphaned then ⟨.ok false, db⟩
  else if db.agentWorkers.any fun w =>
      w.state.isActive && w.projectId == q.projectId && w.leaseHolder == lease.holder then
    ⟨.ok false, db⟩
  else db.releaseLease q.projectId lease.holder

/-- `recoverable_control`. -/
def isRecoverable (control : SessionControl) : Bool :=
  (control.state = .running || control.state = .stopRequested ||
    control.state = .interruptRequested) && control.interactiveLaunchToken.isNone &&
    control.childPid.isSome && control.runToken.isSome

/-- `ensure_orphaned_session_supervision`: the registry after it. The supervisor that it starts is
a process of its own. -/
def ensureOrphanedSessionSupervision (session : String) (db : Registry) : Registry :=
  match (db.control? q.projectId session).filter isRecoverable with
  | none => db
  | some control =>
    let lease := db.lease? q.projectId
    if db.hasActiveWorker q.projectId || !(db.hasProject q.projectId) ||
        lease.any (fun lease => q.os.agentLeaseHolderLiveness lease.holder ≠ .dead) ||
        !(q.attaches control) then db
    else
      match lease with
      | none => db
      | some lease => (q.tryReclaimInactiveAgentLease lease false db).db

/-- The call that was decided on. -/
def recover (control : SessionControl) (db : Registry) : Registry :=
  let session := control.codexSessionId
  match q.recovery control with
  | .leave => db
  | .cancelReservation holder =>
    (db.cancelIdleSessionInteractive q.projectId session holder q.updatedAt).db
  | .recoverGuardian holder disposition =>
    (db.recoverStaleInteractiveGuardian q.projectId session holder control.childPid disposition
      q.updatedAt).db
  | .finalizeReaped runToken =>
    (db.finalizeReapedAutomatedSession q.projectId (control.childPid.getD 0) runToken
      ((q.lease.map Lease.holder).getD "") q.acquiredAt q.expiresAt q.updatedAt).db
  | .recoverAutomated target =>
    (db.recoverStaleAutomatedSessionControl q.projectId session control.state target
      (control.childPid.getD 0) control.runToken q.updatedAt).db
  | .recoverInteractive =>
    (db.recoverStaleInteractiveSessionControl q.projectId session control.state .resumeRequested
      control.interactiveHolder q.updatedAt).db

/-- The body of the loop. -/
def reconcileControl (db : Registry) (control : SessionControl) : Registry :=
  let retired := q.retireCompletedResumeRequest control.codexSessionId db
  match control.state, retired.result with
  | .resumeRequested, .ok true => retired.db
  | _, _ =>
    let supervised :=
      if q.seeksSupervision control then
        q.ensureOrphanedSessionSupervision control.codexSessionId db
      else db
    q.recover control supervised

/-- The controls that a pass gets to. It reads those of the project first, and ends with the first
error; without its project there is an error before the first one. -/
def reached (count : Nat) (db : Registry) : List SessionControl :=
  if db.hasProject q.projectId then
    (db.sessionControls.rows.filter fun sc => sc.projectId == q.projectId).take count
  else []

/-- `reconcile_stale_agent_session_controls`, with so many controls before it ends. -/
def reconcileStaleAgentSessionControls (count : Nat) (db : Registry) : Registry :=
  (q.reached count db).foldl q.reconcileControl db

end Pass

end Clt
