import Clt.Registry.SessionControls

/-!
# Session registration and hand-off

The calls of `agent/repositories/sessions_runs.rs` that change a session's control
together with leases, Git rows or runs: the registration of an automated run, of a
known session and of an interactive child, the hand-off between an automated run
and an interactive guardian, and the end of either. `now`, `acquiredAt` and
`expiresAt` are the call's readings of the clock.
-/

namespace Clt

open Relational

/-- `InteractiveGuardianDisposition`. -/
inductive InteractiveGuardianDisposition where
  | resumeExec
  | preserveIdleSession
  | restoreStopped
  | preserveSharedSession
  | restoreStoppedShared
  deriving DecidableEq, Repr

namespace InteractiveGuardianDisposition

/-- `holds_project_lease`. -/
def holdsProjectLease : InteractiveGuardianDisposition → Bool
  | preserveSharedSession | restoreStoppedShared => false
  | _ => true

/-- `guardian_holder_prefix`. -/
def guardianHolderPrefix : InteractiveGuardianDisposition → String
  | resumeExec => "clt-interactive-worker"
  | preserveIdleSession => "clt-idle-interactive-worker"
  | restoreStopped => "clt-stopped-interactive-worker"
  | preserveSharedSession => "clt-shared-interactive-worker"
  | restoreStoppedShared => "clt-stopped-shared-interactive-worker"

/-- `from_guardian_holder`. -/
def fromGuardianHolder (holder : String) : Option InteractiveGuardianDisposition :=
  if startsWith holder "clt-stopped-readonly-interactive-worker-" then
    some restoreStoppedShared
  else if startsWith holder "clt-readonly-interactive-worker-" then
    some preserveSharedSession
  else
    [resumeExec, preserveIdleSession, restoreStopped, preserveSharedSession,
      restoreStoppedShared].find? fun d => startsWith holder d.guardianHolderPrefix

end InteractiveGuardianDisposition

namespace Registry

/-! ## Registration of an automated run -/

/-- The journal that a session takes over from its run's launch boundary. -/
def createLaunchJournal (projectId : Int) (codexSessionId runToken : String)
    (mode : AgentGitMode) (createdAt : String) (db : Registry) :
    Step Unit (Table GitFinalization × Nat) :=
  match db.gitLaunchStates.find? fun l => l.is projectId runToken && l.gitMode = mode with
  | none => .ok (db.gitFinalizations, 0)
  | some launch =>
    let journal : NewGitFinalization :=
      { projectId := launch.projectId, codexSessionId := codexSessionId,
        gitMode := launch.gitMode, startingHead := some launch.startingHead,
        branchRef := launch.branchRef, upstreamRef := launch.upstreamRef,
        worktreeBaseline := launch.worktreeBaseline, taskIdentity := none,
        ownerRunToken := some launch.runToken, createdAt := createdAt }
    fetch (db.insertOrIgnoreInto projectId db.gitFinalizations journal.toRow)
      (.error ("Failed to atomically create the Git journal for Codex session " ++
        codexSessionId))

/-- The Git part of `mark_session_running`: the session keeps its first Git mode,
and a managed session takes over the launch boundary of its run. -/
def registerGitMode (projectId : Int) (codexSessionId runToken : String)
    (gitMode : Option AgentGitMode) (createdAt : String) (db : Registry) : Step Unit Registry :=
  match gitMode with
  | none => .ok db
  | some mode => do
    let (modes, _) ← fetch
      (db.insertOrIgnoreInto projectId db.sessionGitModes
        { projectId := projectId, codexSessionId := codexSessionId, gitMode := mode })
      (.error "constraint failed")
    require (decide (modes.count (fun m =>
        m.is projectId codexSessionId && m.gitMode = mode) = 1))
      (.error ("Codex session " ++ codexSessionId ++ " cannot change its original Git mode"))
    if mode = .off then do
      require (!(db.gitFinalizations.any (GitFinalization.is projectId codexSessionId)) &&
          !(db.gitLaunchStates.any (GitLaunchState.is projectId runToken)))
        (.error ("Codex session " ++ codexSessionId ++
          " has managed Git evidence and cannot register with Git off"))
      .ok { db with sessionGitModes := modes }
    else do
      let (journals, inserted) ←
        db.createLaunchJournal projectId codexSessionId runToken mode createdAt
      let owned := fun g : GitFinalization => g.is projectId codexSessionId &&
        g.state = .working && g.gitMode = mode && sqlEq g.ownerRunToken (some runToken)
      -- A journal that was there before must agree with a launch row that still is.
      let agrees := fun g : GitFinalization => !(db.gitLaunchStates.any fun launch =>
        launch.is projectId runToken &&
          !(g.gitMode = launch.gitMode && sqlEq g.startingHead (some launch.startingHead) &&
            g.branchRef == launch.branchRef && g.upstreamRef == launch.upstreamRef &&
            g.worktreeBaseline == launch.worktreeBaseline))
      require (decide (journals.count owned = 1) &&
          (decide (inserted ≠ 0) ||
            decide (journals.count (fun g => owned g && agrees g) = 1)))
        (.error ("Automated run " ++ runToken ++ " has no compatible scheduler-owned Git " ++
          "launch state for Codex session " ++ codexSessionId))
      if inserted = 1 then do
        require (decide (db.gitLaunchStates.count (GitLaunchState.is projectId runToken) = 1))
          (.error ("Automated run " ++ runToken ++
            " lost its Git launch state while registering Codex session " ++ codexSessionId))
        .ok { db with
          sessionGitModes := modes, gitFinalizations := journals
          gitLaunchStates := db.gitLaunchStates.delete (GitLaunchState.is projectId runToken) }
      else
        .ok { db with sessionGitModes := modes, gitFinalizations := journals }

/-- The columns the upsert of `mark_session_running` writes over a stored control:
a request that reached the same run stays. -/
def markRunning (childPid : Nat) (runToken stdoutPath stderrPath now : String)
    (sc : SessionControl) : SessionControl :=
  { sc with
    state :=
      if sqlEq sc.runToken (some runToken) &&
          (sc.state = .stopRequested || sc.state = .interruptRequested) then sc.state
      else .running
    childPid := some childPid
    runToken := some runToken
    interactiveHolder :=
      if sqlEq sc.runToken (some runToken) && sc.state = .interruptRequested then
        sc.interactiveHolder
      else none
    stdoutPath := some stdoutPath
    stderrPath := some stderrPath
    updatedAt := now }

/-- The control that the registration of a run inserts. -/
def runningControl (projectId : Int) (codexSessionId : String) (childPid : Nat)
    (runToken stdoutPath stderrPath now : String) : SessionControl :=
  { SessionControl.fresh projectId codexSessionId .running now with
    childPid := some childPid, runToken := some runToken, stdoutPath := some stdoutPath,
    stderrPath := some stderrPath }

/-- `mark_session_running`. -/
def markSessionRunning (projectId : Int) (codexSessionId : String) (childPid : Nat)
    (runToken stdoutPath stderrPath : String) (gitMode : Option AgentGitMode)
    (now createdAt : String) (db : Registry) : Outcome Unit :=
  db.transaction do
    require (!(db.knownWorker runToken && !(db.fencedWorker runToken projectId)))
      (.error ("Codex session " ++ codexSessionId ++
        " worker generation no longer owns its lease"))
    require (!(db.fencedWorker runToken projectId && db.sessionControls.any fun sc =>
        sc.is projectId codexSessionId && sqlNe sc.runToken (some runToken)))
      (.error ("Codex session " ++ codexSessionId ++
        " belongs to a different active run generation"))
    require (db.sessionControls.any (SessionControl.is projectId codexSessionId) ||
        db.hasProject projectId)
      (.error ("Failed to mark Codex session " ++ codexSessionId ++ " running for project " ++
        castText projectId))
    let controls := (db.sessionControls.upsert
      (runningControl projectId codexSessionId childPid runToken stdoutPath stderrPath now)
      (fun _ => true)
      (markRunning childPid runToken stdoutPath stderrPath now)).1
    let registered ← db.registerGitMode projectId codexSessionId runToken gitMode createdAt
    return ((), { registered with sessionControls := controls })

/-! ## Registration of a known session -/

/-- A lease of the holder that is unexpired by the order of its text. -/
def textuallyUnexpired (projectId : Int) (holder now : String) (l : Lease) : Bool :=
  l.projectId == projectId && l.holder == holder && decide (now < l.expiresAt)

/-- `planning_session_can_start`. -/
def planningSessionCanStart (db : Registry) (projectId : Int) (sessionId : String) : Bool :=
  !(db.sessionControls.any fun sc => sc.is projectId sessionId &&
    (sc.state != .stopped || sc.runToken.isSome || !sc.isIdle)) &&
  !(db.runs.any fun r =>
    r.projectId == projectId && sqlEq r.codexSessionId (some sessionId)) &&
  !(db.sessionGitModes.any (SessionGitMode.is projectId sessionId)) &&
  !(db.gitFinalizations.any (GitFinalization.is projectId sessionId))

/-- `AgentKnownSessionRegistration`. -/
structure AgentKnownSessionRegistration where
  projectId : Int
  codexSessionId : String
  childPid : Nat
  runToken : String
  stdoutPath : String
  stderrPath : String
  leaseHolder : String
  claimRequestedResume : Bool
  claimPlanningSession : Bool

/-- The columns the registration of a known session writes. -/
def claimRunning (q : AgentKnownSessionRegistration) (now : String) (sc : SessionControl) :
    SessionControl :=
  { sc with
    state := .running, childPid := some q.childPid, runToken := some q.runToken,
    stdoutPath := some q.stdoutPath, stderrPath := some q.stderrPath, updatedAt := now }

/-- `register_known_session_with_child_blocking`. -/
def registerKnownSessionWithChild (q : AgentKnownSessionRegistration)
    (now freshExpiry : String) (db : Registry) : Outcome Bool :=
  db.transaction do
    let renewable := textuallyUnexpired q.projectId q.leaseHolder now
    require (decide (db.leases.count renewable = 1)) (.ok false)
    require (!(q.claimPlanningSession && (q.claimRequestedResume ||
        !(db.planningSessionCanStart q.projectId q.codexSessionId)))) (.ok false)
    let leases := db.leases.update renewable fun l => { l with expiresAt := freshExpiry }
    if q.claimRequestedResume then do
      let waiting := fun sc : SessionControl =>
        sc.is q.projectId q.codexSessionId && sc.state = .resumeRequested
      require (decide (db.sessionControls.count waiting = 1)) (.ok false)
      return (true, { db with
        leases := leases
        sessionControls := db.sessionControls.update waiting fun sc =>
          { claimRunning q now sc with
            interactiveHolder := none, interactiveLaunchToken := none } })
    else do
      let (controls, changed) := db.sessionControls.upsert
        (runningControl q.projectId q.codexSessionId q.childPid q.runToken q.stdoutPath
          q.stderrPath now)
        (fun sc => q.claimPlanningSession && sc.state = .stopped && sc.runToken.isNone &&
          sc.isIdle)
        (claimRunning q now)
      require (decide (changed = 1)) (.ok false)
      return (true, { db with leases := leases, sessionControls := controls })

/-! ## The end of an automated run -/

/-- `claim_orphaned_session_supervision_blocking`. -/
def claimOrphanedSessionSupervision (expected : SessionControl)
    (holder acquiredAt expiresAt : String) (db : Registry) : Outcome Bool :=
  let supervised := fun s : AgentSessionControlState =>
    s = .running || s = .stopRequested || s = .interruptRequested
  db.transaction do
    let childPid ← fetch expected.childPid (.ok false)
    let runToken ← fetch expected.runToken (.ok false)
    require (childPid != 0 && runToken != "" && holder != "" &&
        expected.interactiveLaunchToken.isNone && supervised expected.state) (.ok false)
    require ((db.sessionControls.any fun sc =>
          sc.is expected.projectId expected.codexSessionId &&
          sqlEq sc.childPid (some childPid) && sqlEq sc.runToken (some runToken) &&
          supervised sc.state && sc.interactiveLaunchToken.isNone) &&
        !(db.leases.any (Lease.of expected.projectId)) &&
        !(db.hasActiveWorker expected.projectId) &&
        !(db.sessionControls.any fun sc => sc.projectId == expected.projectId &&
          sc.codexSessionId != expected.codexSessionId && sc.state != .stopped)) (.ok false)
    let (leases, claimed) ← fetch
      (db.insertOrIgnoreInto expected.projectId db.leases
        { projectId := expected.projectId, holder := holder, acquiredAt := acquiredAt,
          expiresAt := expiresAt })
      (.error "Failed to claim orphaned Codex supervision")
    require (decide (claimed = 1)) (.ok false)
    return (true, { db with leases := leases })

/-- `AutomatedSessionFinalization`. -/
structure AutomatedSessionFinalization where
  projectId : Int
  expectedChildPid : Nat
  expectedRunToken : String
  leaseHolder : String
  reattachedSessionId : Option String

/-- The state in which a control is left when its process has exited. -/
def stateAfterExit : AgentSessionControlState → Option AgentSessionControlState
  | .running => some .resumeRequested
  | .stopRequested => some .stopped
  | .interruptRequested => some .readyInteractive
  | _ => none

/-- Hand the project's lease from one holder to another: the statements that
`finalize_automated_session_after_exit` runs for an interactive hand-off. -/
def handOffLease (projectId : Int) (fromHolder toHolder acquiredAt expiresAt : String)
    (db : Registry) : Step Bool (Table Lease) :=
  let owned := fun l : Lease => l.projectId == projectId && l.holder == fromHolder
  if db.leases.count owned ≠ 0 then
    .ok (db.leases.update owned fun l =>
      { l with holder := toHolder, acquiredAt := acquiredAt, expiresAt := expiresAt })
  else do
    let (leases, inserted) ← fetch
      (db.insertOrIgnoreInto projectId db.leases
        { projectId := projectId, holder := toHolder, acquiredAt := acquiredAt,
          expiresAt := expiresAt })
      (.error ("Failed to acquire the reaped project " ++ castText projectId ++
        " lease for interactive handoff"))
    require (decide (inserted ≠ 0) ||
      decide ((leases.find? (Lease.of projectId)).map Lease.holder = some toHolder)) (.ok false)
    .ok leases

/-- `finalize_automated_session_after_exit`. -/
def finalizeAutomatedSessionAfterExit (q : AutomatedSessionFinalization)
    (acquiredAt expiresAt now : String) (db : Registry) : Outcome Bool :=
  db.transaction do
    require (q.reattachedSessionId.isNone || decide (db.leases.count (fun l =>
        l.projectId == q.projectId && l.holder == q.leaseHolder) = 1)) (.ok false)
    let control ← fetch
      (db.sessionControls.find? fun sc =>
        sc.projectId == q.projectId && sqlEq sc.childPid (some q.expectedChildPid) &&
        sqlEq sc.runToken (some q.expectedRunToken) &&
        (q.reattachedSessionId.isNone ||
          (sqlEq (some sc.codexSessionId) q.reattachedSessionId &&
            sc.interactiveLaunchToken.isNone)))
      (.ok false)
    let terminalState ← fetch (stateAfterExit control.state) (.ok false)
    let where_ := fun sc : SessionControl =>
      sc.is q.projectId control.codexSessionId && sc.state = control.state &&
      sqlEq sc.childPid (some q.expectedChildPid) &&
      sqlEq sc.runToken (some q.expectedRunToken)
    let controls := db.sessionControls.update where_ fun sc =>
      { sc with
        state := terminalState, childPid := none
        interactiveHolder :=
          if terminalState = .readyInteractive then sc.interactiveHolder else none
        updatedAt := now }
    if terminalState = .readyInteractive then do
      let interactiveHolder ← fetch control.interactiveHolder (.ok false)
      let leases ← db.handOffLease q.projectId q.leaseHolder interactiveHolder acquiredAt
        expiresAt
      require (decide (db.sessionControls.count where_ = 1)) (.ok false)
      return (true, { db with leases := leases, sessionControls := controls })
    else do
      require (decide (db.sessionControls.count where_ = 1)) (.ok false)
      return (true, { db with
        leases := db.leases.delete fun l =>
          l.projectId == q.projectId && l.holder == q.leaseHolder
        sessionControls := controls })

/-- `finalize_reattached_automated_session_blocking`. -/
def finalizeReattachedAutomatedSession (expected : SessionControl)
    (holder acquiredAt expiresAt now : String) (db : Registry) : Outcome Bool :=
  match expected.childPid, expected.runToken with
  | some childPid, some runToken =>
    db.finalizeAutomatedSessionAfterExit
      { projectId := expected.projectId, expectedChildPid := childPid,
        expectedRunToken := runToken, leaseHolder := holder,
        reattachedSessionId := some expected.codexSessionId }
      acquiredAt expiresAt now
  | _, _ => ⟨.ok false, db⟩

/-- `finalize_reaped_automated_session_blocking`. -/
def finalizeReapedAutomatedSession (projectId : Int) (expectedChildPid : Nat)
    (expectedRunToken leaseHolder acquiredAt expiresAt now : String) (db : Registry) :
    Outcome Bool :=
  db.finalizeAutomatedSessionAfterExit
    { projectId := projectId, expectedChildPid := expectedChildPid,
      expectedRunToken := expectedRunToken, leaseHolder := leaseHolder,
      reattachedSessionId := none }
    acquiredAt expiresAt now

/-- `complete_session_interrupt_handoff_blocking`. -/
def completeSessionInterruptHandoff (projectId : Int)
    (codexSessionId runToken fromHolder acquiredAt expiresAt now : String) (db : Registry) :
    Outcome (Option String) :=
  db.transaction do
    let where_ := fun sc : SessionControl => sc.is projectId codexSessionId &&
      sc.state = .interruptRequested && sqlEq sc.runToken (some runToken)
    let control ← fetch (db.sessionControls.find? where_) (.ok none)
    let interactiveHolder ← fetch control.interactiveHolder (.ok none)
    let owned := fun l : Lease => l.projectId == projectId && l.holder == fromHolder
    require (decide (db.leases.count owned ≠ 0)) (.ok none)
    require (decide (db.sessionControls.count where_ ≠ 0))
      (.error ("Codex session " ++ codexSessionId ++ " changed during interactive handoff"))
    return (some interactiveHolder, { db with
      leases := db.leases.update owned fun l =>
        { l with
          holder := interactiveHolder, acquiredAt := acquiredAt, expiresAt := expiresAt }
      sessionControls := db.sessionControls.update where_ fun sc =>
        { sc with
          state := .readyInteractive, childPid := none, interactiveLaunchToken := none,
          updatedAt := now } })

/-! ## Interactive guardians -/

/-- `adopt_interactive_guardian_blocking`. -/
def adoptInteractiveGuardian (projectId : Int) (codexSessionId : Option String)
    (fromHolder guardianHolder acquiredAt expiresAt now : String) (db : Registry) :
    Outcome Bool :=
  db.transaction do
    let disposition ← fetch (InteractiveGuardianDisposition.fromGuardianHolder guardianHolder)
      (.error "Invalid interactive guardian holder")
    let owned := fun l : Lease => l.projectId == projectId && l.holder == fromHolder
    require (!disposition.holdsProjectLease || decide (db.leases.count owned ≠ 0)) (.ok false)
    let leases :=
      if disposition.holdsProjectLease then
        db.leases.update owned fun l =>
          { l with holder := guardianHolder, acquiredAt := acquiredAt, expiresAt := expiresAt }
      else db.leases
    match codexSessionId with
    | none => return (true, { db with leases := leases })
    | some codexSessionId => do
      let where_ := fun sc : SessionControl => sc.is projectId codexSessionId &&
        sc.state = .readyInteractive && sqlEq sc.interactiveHolder (some fromHolder)
      require (decide (db.sessionControls.count where_ ≠ 0)) (.ok false)
      return (true, { db with
        leases := leases
        sessionControls := db.sessionControls.update where_ fun sc =>
          { sc with
            state := .interactive, interactiveHolder := some guardianHolder,
            interactiveLaunchToken := some guardianHolder, childPid := none,
            updatedAt := now } })

/-- The control of a guardian that has not launched its child. -/
def awaitsChild (projectId : Int) (codexSessionId guardianHolder : String)
    (sc : SessionControl) : Bool :=
  sc.is projectId codexSessionId && sc.state = .interactive &&
    sqlEq sc.interactiveHolder (some guardianHolder) &&
    sqlEq sc.interactiveLaunchToken (some guardianHolder) && sc.childPid.isNone

/-- `register_interactive_guardian_child_blocking`. -/
def registerInteractiveGuardianChild (projectId : Int) (codexSessionId guardianHolder : String)
    (childPid : Nat) (now freshExpiry : String) (db : Registry) : Outcome Bool :=
  db.transaction do
    let disposition ← fetch (InteractiveGuardianDisposition.fromGuardianHolder guardianHolder)
      (.error "Invalid interactive guardian holder")
    let renewable := textuallyUnexpired projectId guardianHolder now
    require (!disposition.holdsProjectLease || decide (db.leases.count renewable = 1)) (.ok false)
    let leases :=
      if disposition.holdsProjectLease then
        db.leases.update renewable fun l => { l with expiresAt := freshExpiry }
      else db.leases
    let where_ := awaitsChild projectId codexSessionId guardianHolder
    require (decide (db.sessionControls.count where_ = 1)) (.ok false)
    return (true, { db with
      leases := leases
      sessionControls := db.sessionControls.update where_ fun sc =>
        { sc with childPid := some childPid, updatedAt := now } })

/-- The columns that the end of a guardian writes: a requested stop is kept, and
only an interrupted run resumes. -/
def endInteractive (disposition : InteractiveGuardianDisposition) (now : String)
    (sc : SessionControl) : SessionControl :=
  SessionControl.settle
    (if disposition = .resumeExec && sc.state != .stopRequested then .resumeRequested
      else .stopped) now sc

/-- The control of a guardian's session, while the guardian is there or asked to stop. -/
def guardedControl (projectId : Int) (codexSessionId guardianHolder : String)
    (sc : SessionControl) : Bool :=
  sc.is projectId codexSessionId && (sc.state = .interactive || sc.state = .stopRequested) &&
    sqlEq sc.interactiveHolder (some guardianHolder)

/-- The lease that ends with a guardian. -/
def releaseGuardianLease (disposition : InteractiveGuardianDisposition) (projectId : Int)
    (guardianHolder : String) (leases : Table Lease) : Table Lease :=
  if disposition.holdsProjectLease then
    leases.delete fun l => l.projectId == projectId && l.holder == guardianHolder
  else leases

/-- `finish_interactive_guardian_blocking`. -/
def finishInteractiveGuardian (projectId : Int) (codexSessionId guardianHolder : String)
    (disposition : InteractiveGuardianDisposition) (now : String) (db : Registry) :
    Outcome Bool :=
  db.transaction do
    let where_ := guardedControl projectId codexSessionId guardianHolder
    require (decide (db.sessionControls.count where_ ≠ 0)) (.ok false)
    return (true, { db with
      leases := releaseGuardianLease disposition projectId guardianHolder db.leases
      sessionControls := db.sessionControls.update where_ (endInteractive disposition now) })

/-- `recover_stale_interactive_guardian_blocking`. -/
def recoverStaleInteractiveGuardian (projectId : Int) (codexSessionId guardianHolder : String)
    (expectedChildPid : Option Nat) (disposition : InteractiveGuardianDisposition)
    (now : String) (db : Registry) : Outcome Bool :=
  db.transaction do
    let where_ := fun sc : SessionControl =>
      guardedControl projectId codexSessionId guardianHolder sc &&
      sqlEq sc.interactiveLaunchToken (some guardianHolder) &&
      sqlSame sc.childPid expectedChildPid
    require (decide (db.sessionControls.count where_ = 1)) (.ok false)
    return (true, { db with
      leases := releaseGuardianLease disposition projectId guardianHolder db.leases
      sessionControls := db.sessionControls.update where_ (endInteractive disposition now) })

/-! ## Run history -/

/-- `record_run_outcome`. -/
def recordRunOutcome (outcome : AgentRunOutcome) (db : Registry) : Outcome Int :=
  db.transaction do
    let runs ← fetch (db.insertInto outcome.projectId db.runs (outcome.toRun db.nextRunId none))
      (.error ("Failed to record run for project " ++ castText outcome.projectId))
    return (db.nextRunId, { db with runs := runs }.updateProjectAfterRun outcome)

end Registry

end Clt
