import Clt.Registry.GitRetirement

/-!
# Session controls

The calls of `agent/repositories/sessions_runs.rs` that are one statement over
`session_controls`: requests to stop, interrupt or resume, the completion of a
stop, the recovery of stale controls, and the reservation of a session for
interactive use. Each is its `WHERE` clause and its `SET` clause; the pid and the
tokens a caller passes are the ones it last saw.
-/

namespace Clt

open Relational

/-- `is_stopped_shared_interactive_holder`. -/
def isStoppedSharedInteractiveHolder (holder : String) : Bool :=
  startsWith holder "clt-stopped-shared-interactive-" ||
    startsWith holder "clt-stopped-readonly-interactive-"

/-- A fresh control without a process or an owner. -/
def SessionControl.fresh (projectId : Int) (codexSessionId : String)
    (state : AgentSessionControlState) (updatedAt : String) : SessionControl where
  projectId := projectId
  codexSessionId := codexSessionId
  state := state
  childPid := none
  runToken := none
  interactiveHolder := none
  interactiveLaunchToken := none
  stdoutPath := none
  stderrPath := none
  updatedAt := updatedAt

/-- The control with its process and both interactive columns cleared. -/
def SessionControl.settle (state : AgentSessionControlState) (updatedAt : String)
    (sc : SessionControl) : SessionControl :=
  { sc with
    state := state, childPid := none, interactiveHolder := none,
    interactiveLaunchToken := none, updatedAt := updatedAt }

namespace Registry

/-! ## Requests -/

/-- `request_session_interrupt_blocking`. -/
def requestSessionInterrupt (projectId : Int) (codexSessionId : String) (expectedChildPid : Nat)
    (expectedRunToken interactiveHolder now : String) (db : Registry) : Outcome Bool :=
  db.updateControls
    (fun sc => sc.is projectId codexSessionId && sc.state = .running &&
      sqlEq sc.childPid (some expectedChildPid) && sqlEq sc.runToken (some expectedRunToken))
    (fun sc =>
      { sc with
        state := .interruptRequested, interactiveHolder := some interactiveHolder,
        updatedAt := now })

/-- `cancel_session_interrupt_handoff_blocking`. -/
def cancelSessionInterruptHandoff (projectId : Int) (codexSessionId interactiveHolder now : String)
    (db : Registry) : Outcome Bool :=
  db.updateControls
    (fun sc => sc.is projectId codexSessionId &&
      (sc.state = .interruptRequested || sc.state = .readyInteractive) &&
      sqlEq sc.interactiveHolder (some interactiveHolder))
    (fun sc =>
      { sc with
        state := if sc.state = .interruptRequested then .running else .resumeRequested
        childPid := if sc.state = .interruptRequested then sc.childPid else none
        interactiveHolder := none, interactiveLaunchToken := none, updatedAt := now })

/-- `request_session_stop_blocking`. -/
def requestSessionStop (projectId : Int) (codexSessionId : String) (expectedChildPid : Nat)
    (expectedRunToken now : String) (db : Registry) : Outcome Bool :=
  db.updateControls
    (fun sc => sc.is projectId codexSessionId && sc.state = .running &&
      sqlEq sc.childPid (some expectedChildPid) && sqlEq sc.runToken (some expectedRunToken))
    (fun sc => { sc with state := .stopRequested, updatedAt := now })

/-- `request_interactive_session_stop_blocking`. -/
def requestInteractiveSessionStop (projectId : Int) (codexSessionId : String)
    (expectedChildPid : Nat) (expectedInteractiveHolder now : String) (db : Registry) :
    Outcome Bool :=
  db.updateControls
    (fun sc => sc.is projectId codexSessionId && sc.state = .interactive &&
      sqlEq sc.childPid (some expectedChildPid) &&
      sqlEq sc.interactiveHolder (some expectedInteractiveHolder) &&
      sqlEq sc.interactiveLaunchToken (some expectedInteractiveHolder))
    (fun sc => { sc with state := .stopRequested, updatedAt := now })

/-- `request_stopped_session_resume_blocking`. -/
def requestStoppedSessionResume (projectId : Int) (codexSessionId : String)
    (expectedRunToken : Option String) (now : String) (db : Registry) : Outcome Bool :=
  db.updateControls
    (fun sc => sc.is projectId codexSessionId && sc.state = .stopped &&
      sqlSame sc.runToken expectedRunToken)
    (SessionControl.settle .resumeRequested now)

/-- `complete_session_stop_blocking`. -/
def completeSessionStop (projectId : Int) (codexSessionId runToken now : String)
    (db : Registry) : Outcome Bool :=
  db.updateControls
    (fun sc => sc.is projectId codexSessionId && sc.state = .stopRequested &&
      sqlEq sc.runToken (some runToken) &&
      (!(db.knownWorker runToken) || db.fencedWorker runToken projectId))
    (SessionControl.settle .stopped now)

/-! ## Recovery of stale controls -/

/-- The state to which the scheduler's reconciliation moves a control whose owner is
gone (`recovery_state`). -/
def recoveryState : AgentSessionControlState → Option AgentSessionControlState
  | .running => some .resumeRequested
  | .stopRequested => some .stopped
  | .interruptRequested => some .readyInteractive
  | .readyInteractive | .interactive => some .resumeRequested
  | .stopped | .resumeRequested => none

/-- `transition_session_control_state_blocking`. -/
def transitionSessionControlState (projectId : Int) (codexSessionId : String)
    (source target : AgentSessionControlState) (now : String) (db : Registry) : Outcome Bool :=
  db.updateControls
    (fun sc => sc.is projectId codexSessionId && sc.state = source)
    (fun sc =>
      { sc with
        state := target
        childPid := if target = .running then sc.childPid else none
        interactiveLaunchToken := none, updatedAt := now })

/-- `recover_stale_automated_session_control_blocking`. -/
def recoverStaleAutomatedSessionControl (projectId : Int) (codexSessionId : String)
    (source target : AgentSessionControlState) (expectedChildPid : Nat)
    (expectedRunToken : Option String) (now : String) (db : Registry) : Outcome Bool :=
  db.updateControls
    (fun sc => sc.is projectId codexSessionId && sc.state = source &&
      sqlEq sc.childPid (some expectedChildPid) && sqlSame sc.runToken expectedRunToken)
    (SessionControl.settle target now)

/-- `recover_stale_interactive_session_control_blocking`. -/
def recoverStaleInteractiveSessionControl (projectId : Int) (codexSessionId : String)
    (source target : AgentSessionControlState) (expectedInteractiveHolder : Option String)
    (now : String) (db : Registry) : Outcome Bool :=
  db.updateControls
    (fun sc => sc.is projectId codexSessionId && sc.state = source &&
      sqlSame sc.interactiveHolder expectedInteractiveHolder)
    (SessionControl.settle target now)

/-! ## Interactive reservations -/

/-- The columns a reservation of a parked session writes. -/
def reserveInteractive (interactiveHolder updatedAt : String) (sc : SessionControl) :
    SessionControl :=
  { sc with
    state := .readyInteractive, childPid := none, interactiveHolder := some interactiveHolder,
    interactiveLaunchToken := none, updatedAt := updatedAt }

/-- `register_planning_session_blocking`. -/
def registerPlanningSession (projectId : Int) (sessionId leaseHolder now : String)
    (db : Registry) : Outcome Bool :=
  db.insertControl
    ((db.leases.any fun l => l.projectId == projectId && l.holder == leaseHolder &&
        castInteger now < castInteger l.expiresAt) &&
      !(db.hasActiveWorker projectId) && !(db.hasBusyControl projectId))
    (SessionControl.fresh projectId sessionId .stopped now)
    "Failed to record the new planning session"

/-- `register_shared_planning_session_blocking`. -/
def registerSharedPlanningSession (projectId : Int) (sessionId now : String) (db : Registry) :
    Outcome Bool :=
  db.insertControl true (SessionControl.fresh projectId sessionId .stopped now)
    "Failed to record the new shared planning session"

/-- Another session of the project is not parked, or records an owner. -/
def otherControlBusy (db : Registry) (projectId : Int) (codexSessionId : String) : Bool :=
  db.sessionControls.any fun sc =>
    sc.projectId == projectId && sc.codexSessionId != codexSessionId &&
      (!sc.isParked || !sc.isIdle)

/-- `reserve_idle_session_interactive_for_state_blocking`. -/
def reserveIdleSessionInteractiveForState (projectId : Int)
    (codexSessionId interactiveHolder : String) (expectedStoppedRunToken : Option String)
    (expectedState : Option AgentSessionControlState) (now : String) (db : Registry) :
    Outcome Bool :=
  if startsWith interactiveHolder "clt-stopped-interactive-" then
    db.updateControls
      (fun sc => sc.is projectId codexSessionId && sc.isParked &&
        sqlEq (some sc.state) expectedState && sc.isIdle &&
        (db.leases.any fun l => l.projectId == projectId && l.holder == interactiveHolder &&
          castInteger now < castInteger l.expiresAt) &&
        !(db.hasActiveWorker projectId) && sqlSame sc.runToken expectedStoppedRunToken &&
        !(db.otherControlBusy projectId codexSessionId))
      (reserveInteractive interactiveHolder now)
  else
    db.insertControl
      (!(db.sessionControls.any (SessionControl.is projectId codexSessionId)) &&
        !(db.sessionControls.any fun sc => sc.projectId == projectId && sc.state != .stopped))
      (reserveInteractive interactiveHolder now
        (SessionControl.fresh projectId codexSessionId .readyInteractive now))
      ("Failed to reserve idle Codex session " ++ codexSessionId ++ " for interactive use")

/-- The project is in use by someone else, so that sharing it is meaningful. -/
def sharesProject (db : Registry) (projectId : Int) (codexSessionId : String)
    (hasManualOwner : Bool) : Bool :=
  hasManualOwner || db.leases.any (Lease.of projectId) ||
    db.sessionControls.any fun sc =>
      sc.projectId == projectId && sc.codexSessionId != codexSessionId && sc.state != .stopped

/-- `reserve_shared_session_interactive_blocking`. -/
def reserveSharedSessionInteractive (projectId : Int)
    (codexSessionId interactiveHolder : String) (expectedStoppedRunToken : Option String)
    (hasManualOwner : Bool) (now : String) (db : Registry) : Outcome Bool :=
  if isStoppedSharedInteractiveHolder interactiveHolder then
    db.updateControls
      (fun sc => sc.is projectId codexSessionId &&
        (sc.state = .stopped ||
          (sc.state = .resumeRequested && sc.childPid.isNone && sc.interactiveHolder.isNone &&
            !(db.agentWorkers.any fun w => w.activeIn projectId &&
              (sqlEq (some w.workerToken) expectedStoppedRunToken ||
                sqlEq w.resumeSessionId (some codexSessionId))))) &&
        sqlSame sc.runToken expectedStoppedRunToken &&
        db.sharesProject projectId codexSessionId hasManualOwner)
      (reserveInteractive interactiveHolder now)
  else
    db.insertControl
      (!(db.sessionControls.any (SessionControl.is projectId codexSessionId)) &&
        db.sharesProject projectId codexSessionId hasManualOwner)
      (reserveInteractive interactiveHolder now
        (SessionControl.fresh projectId codexSessionId .readyInteractive now))
      ("Failed to reserve Codex session " ++ codexSessionId ++ " for shared interactive use")

/-- `cancel_idle_session_interactive_blocking`. -/
def cancelIdleSessionInteractive (projectId : Int)
    (codexSessionId interactiveHolder now : String) (db : Registry) : Outcome Bool :=
  let where_ := fun sc : SessionControl => sc.is projectId codexSessionId &&
    sc.state = .readyInteractive && sqlEq sc.interactiveHolder (some interactiveHolder)
  if startsWith interactiveHolder "clt-stopped-interactive-" ||
      isStoppedSharedInteractiveHolder interactiveHolder then
    db.updateControls where_ (SessionControl.settle .stopped now)
  else db.deleteControls where_

/-- `begin_stopped_session_interactive_blocking`. -/
def beginStoppedSessionInteractive (projectId : Int)
    (codexSessionId interactiveHolder : String) (expectedRunToken : Option String)
    (now : String) (db : Registry) : Outcome Bool :=
  db.updateControls
    (fun sc => sc.is projectId codexSessionId && sc.state = .stopped &&
      sqlSame sc.runToken expectedRunToken)
    (reserveInteractive interactiveHolder now)

/-! ## Controls of Git recovery -/

/-- `ensure_pending_git_finalization_resume_requested_blocking`. -/
def ensurePendingGitFinalizationResumeRequested (projectId : Int) (codexSessionId : String)
    (now : String) (db : Registry) : Outcome Bool :=
  db.transaction do
    let journal ← fetch
      (db.gitFinalizations.find? fun g => g.is projectId codexSessionId && g.state.isUnfinished)
      (.ok false)
    let journal ← attempt journal.recordFromRow
    let waiting := fun sc : SessionControl => sc.is projectId codexSessionId &&
      sc.state = .resumeRequested && sc.childPid.isNone && sc.interactiveHolder.isNone
    let token := some (recoveryToken journal.generation)
    let tagged := db.sessionControls.update waiting fun sc =>
      { sc with runToken := token, updatedAt := now }
    let (controls, _) ← fetch
      (db.insertOrIgnoreInto projectId tagged
        { SessionControl.fresh projectId codexSessionId .resumeRequested now with
          runToken := token })
      (.error ("Failed to restore Git finalization session " ++ codexSessionId))
    return (decide (controls.count waiting = 1), { db with sessionControls := controls })

/-- `retire_completed_resume_request_blocking`. -/
def retireCompletedResumeRequest (expected : SessionControl) (now : Nat) (db : Registry) :
    Outcome Bool :=
  db.transaction do
    require (expected.state = .resumeRequested && expected.isIdle) (.ok false)
    let where_ := fun sc : SessionControl =>
      sc.is expected.projectId expected.codexSessionId && sc.state = .resumeRequested &&
      sc.isIdle && sc.runToken == expected.runToken && sc.updatedAt == expected.updatedAt &&
      !(db.hasActiveWorker expected.projectId) &&
      !(db.hasUnexpiredLease expected.projectId (castText now)) &&
      !(db.hasGitLaunchState expected.projectId) &&
      !(db.gitFinalizations.any fun g =>
        g.is expected.projectId expected.codexSessionId &&
          !(g.state = .completed || g.state = .cancelled)) &&
      (db.gitFinalizations.any
          (GitFinalization.is expected.projectId expected.codexSessionId) ||
        ((db.sessionGitModes.find?
            (SessionGitMode.is expected.projectId expected.codexSessionId)).map
              SessionGitMode.gitMode).or
          ((db.projects.find? fun p => p.id == expected.projectId).map Project.gitMode) ==
            some .off)
    return (decide (db.sessionControls.count where_ = 1),
      { db with sessionControls := db.sessionControls.update where_ fun sc =>
          { sc with state := .stopped, updatedAt := castText now } })

/-- `clear_orphaned_resume_requested_session_blocking`. -/
def clearOrphanedResumeRequestedSession (projectId : Int) (codexSessionId : String) (now : Nat)
    (db : Registry) : Outcome Bool :=
  if db.hasActiveWorker projectId || db.hasUnexpiredLease projectId (castText now) then
    ⟨.ok false, db⟩
  else
    db.deleteControls fun sc => sc.is projectId codexSessionId &&
      sc.state = .resumeRequested && sc.childPid.isNone && sc.interactiveHolder.isNone

/-- `clear_autonomous_push_resume_request_blocking`. -/
def clearAutonomousPushResumeRequest (projectId : Int) (codexSessionId : String)
    (db : Registry) : Outcome Bool :=
  db.deleteControls fun sc => sc.is projectId codexSessionId &&
    sc.state = .resumeRequested && sc.childPid.isNone &&
    (db.gitFinalizations.any fun g => g.is projectId codexSessionId && g.state = .pushPending) &&
    !(db.hasActiveWorker projectId)

/-- `clear_running_session_control_blocking`. -/
def clearRunningSessionControl (projectId : Int) (codexSessionId : String)
    (runToken : Option String) (db : Registry) : Outcome Bool :=
  if runToken.isNone && db.hasActiveWorker projectId then ⟨.ok false, db⟩
  else if runToken.any fun t => db.knownWorker t && !(db.fencedWorker t projectId) then
    ⟨.ok false, db⟩
  else
    db.deleteControls fun sc => sc.is projectId codexSessionId && sc.state = .running &&
      (runToken.isNone || sqlEq sc.runToken runToken)

end Registry

end Clt
