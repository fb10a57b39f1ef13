import Clt.Relational.Table
import Clt.Relational.Value

/-!
# The agent registry

The rows of the agent database (`agent.rs`, `AGENT_MIGRATIONS`) and the states
their enumerated columns take. The unique constraints of a table are its
`Keyed` instance, so that a `Registry` in which two rows break one cannot be
built. Identifiers are SQL integers, times are decimal text, as stored.
-/

namespace Clt

open Relational

/-! ## Column types -/

/-- `AgentGitMode`. -/
inductive AgentGitMode where
  | off
  | commit
  | commitAndPush
  deriving DecidableEq, Repr

/-- `GitFinalizationState`. -/
inductive GitFinalizationState where
  | working
  | tracking
  | commitPending
  | pushPending
  | completed
  | cancelled
  deriving DecidableEq, Repr

namespace GitFinalizationState

/-- `GitFinalizationState::database_value`. -/
def databaseValue : GitFinalizationState → String
  | working => "working"
  | tracking => "tracking"
  | commitPending => "commit_pending"
  | pushPending => "push_pending"
  | completed => "completed"
  | cancelled => "cancelled"

/-- `GitFinalizationState::is_terminal`. -/
def isTerminal : GitFinalizationState → Bool
  | completed | cancelled => true
  | _ => false

/-- `GitFinalizationState::is_finalizing`. -/
def isFinalizing : GitFinalizationState → Bool
  | tracking | commitPending | pushPending => true
  | _ => false

/-- `GitFinalizationState::can_transition_to`. -/
def canTransitionTo : GitFinalizationState → GitFinalizationState → Bool
  | working, next => next = working || next = tracking || next = cancelled
  | tracking, next => next = tracking || next = commitPending
  | commitPending, next => next = commitPending || next = pushPending || next = completed
  | pushPending, next => next = pushPending || next = completed
  | completed, _ | cancelled, _ => false

/-- `state IN ('working', 'tracking', 'commit_pending', 'push_pending')`. -/
def isUnfinished (s : GitFinalizationState) : Bool :=
  s = working || s = tracking || s = commitPending || s = pushPending

end GitFinalizationState

/-- `AgentSessionControlState`. -/
inductive AgentSessionControlState where
  | running
  | stopRequested
  | stopped
  | interruptRequested
  | readyInteractive
  | interactive
  | resumeRequested
  deriving DecidableEq, Repr

/-- The states of an `agent_workers` row. -/
inductive AgentWorkerState where
  | dispatching
  | running
  | finalizing
  | completed
  | abandoned
  | superseded
  deriving DecidableEq, Repr

/-- `state IN ('dispatching', 'running', 'finalizing')`. -/
def AgentWorkerState.isActive : AgentWorkerState → Bool
  | dispatching | running | finalizing => true
  | _ => false

/-! ## Rows -/

/-- A `projects` row. -/
structure Project where
  id : Int
  path : String
  enabled : Bool
  gitMode : AgentGitMode
  lastRunAt : Option String
  lastSuccessAt : Option String
  lastFailureAt : Option String
  lastBlockedRecoveryAt : Option String
  failureCount : Int
  updatedAt : String
  deriving DecidableEq

/-- A `runs` row. -/
structure Run where
  id : Int
  projectId : Int
  status : String
  startedAt : String
  finishedAt : Option String
  exitCode : Option Int
  logDir : Option String
  stdoutPath : Option String
  stderrPath : Option String
  summary : Option String
  codexSessionId : Option String
  workerToken : Option String
  deriving DecidableEq

/-- A `leases` row. -/
structure Lease where
  projectId : Int
  holder : String
  acquiredAt : String
  expiresAt : String
  deriving DecidableEq

/-- A `session_controls` row. -/
structure SessionControl where
  projectId : Int
  codexSessionId : String
  state : AgentSessionControlState
  childPid : Option Nat
  runToken : Option String
  interactiveHolder : Option String
  interactiveLaunchToken : Option String
  stdoutPath : Option String
  stderrPath : Option String
  updatedAt : String
  deriving DecidableEq

/-- An `agent_workers` row. -/
structure AgentWorker where
  workerToken : String
  projectId : Int
  state : AgentWorkerState
  protocolVersion : Int
  leaseHolder : String
  serviceLabel : String
  binaryPath : String
  commandArguments : String
  pathEnv : String
  codexPath : Option String
  taskSelection : String
  resumeSessionId : Option String
  workerPid : Option Nat
  createdAt : String
  startedAt : Option String
  heartbeatAt : Option String
  finishedAt : Option String
  runId : Option Int
  error : Option String
  serviceCleanedAt : Option String
  deriving DecidableEq

/-- A `git_finalizations` row, also the `GitFinalizationRecord` read from it. -/
structure GitFinalization where
  projectId : Int
  codexSessionId : String
  state : GitFinalizationState
  gitMode : AgentGitMode
  startingHead : Option String
  branchRef : Option String
  upstreamRef : Option String
  worktreeBaseline : String
  taskIdentity : Option String
  ownerRunToken : Option String
  commitOid : Option String
  generation : Int
  lastError : Option String
  createdAt : String
  updatedAt : String
  completedAt : Option String
  acknowledgedAt : Option String
  acknowledgedRunId : Option Int
  deriving DecidableEq

/-- An `agent_git_launch_states` row. -/
structure GitLaunchState where
  projectId : Int
  runToken : String
  gitMode : AgentGitMode
  startingHead : String
  branchRef : Option String
  upstreamRef : Option String
  worktreeBaseline : String
  createdAt : String
  deriving DecidableEq

/-- A `session_git_modes` row. -/
structure SessionGitMode where
  projectId : Int
  codexSessionId : String
  gitMode : AgentGitMode
  deriving DecidableEq

/-- `worker_lease_holder`. -/
def workerLeaseHolder (workerToken : String) : String := "clt-worker-" ++ workerToken

/-- The row of one project. -/
def Lease.of (projectId : Int) (l : Lease) : Bool := l.projectId == projectId

namespace SessionControl

/-- The row of one session. -/
def is (projectId : Int) (codexSessionId : String) (sc : SessionControl) : Bool :=
  sc.projectId == projectId && sc.codexSessionId == codexSessionId

/-- No process and no interactive owner is recorded. -/
def isIdle (sc : SessionControl) : Bool :=
  sc.childPid.isNone && sc.interactiveHolder.isNone && sc.interactiveLaunchToken.isNone

/-- `state IN ('stopped', 'resume_requested')`. -/
def isParked (sc : SessionControl) : Bool :=
  sc.state = .stopped || sc.state = .resumeRequested

end SessionControl

/-- The row of one session. -/
def GitFinalization.is (projectId : Int) (codexSessionId : String) (g : GitFinalization) : Bool :=
  g.projectId == projectId && g.codexSessionId == codexSessionId

/-- The row of one session. -/
def SessionGitMode.is (projectId : Int) (codexSessionId : String) (m : SessionGitMode) : Bool :=
  m.projectId == projectId && m.codexSessionId == codexSessionId

/-- The row of one run. -/
def GitLaunchState.is (projectId : Int) (runToken : String) (l : GitLaunchState) : Bool :=
  l.projectId == projectId && l.runToken == runToken

/-- An active worker of one project. -/
def AgentWorker.activeIn (projectId : Int) (w : AgentWorker) : Bool :=
  w.projectId == projectId && w.state.isActive

/-! ## Unique constraints -/

instance : Keyed Project where
  conflict a b := a.id == b.id || a.path == b.path
  symm a b := by simp only [Bool.beq_comm]

/-- The primary key, and the partial index on `worker_token`. -/
instance : Keyed Run where
  conflict a b := a.id == b.id || sqlEq a.workerToken b.workerToken
  symm a b := by
    rw [Bool.beq_comm]
    cases a.workerToken <;> cases b.workerToken <;> simp [sqlEq, Bool.beq_comm]

instance : Keyed Lease where
  conflict a b := a.projectId == b.projectId
  symm _ _ := Bool.beq_comm

instance : Keyed SessionControl where
  conflict a b := a.projectId == b.projectId && a.codexSessionId == b.codexSessionId
  symm a b := by simp only [Bool.beq_comm]

/-- The three unique columns, and `agent_workers_active_project_unique`. -/
instance : Keyed AgentWorker where
  conflict a b := a.workerToken == b.workerToken || a.leaseHolder == b.leaseHolder ||
    a.serviceLabel == b.serviceLabel ||
    (a.projectId == b.projectId && a.state.isActive && b.state.isActive)
  symm a b := by
    rw [Bool.beq_comm, Bool.beq_comm (a := a.leaseHolder), Bool.beq_comm (a := a.serviceLabel),
      Bool.beq_comm (a := a.projectId), Bool.and_right_comm]

/-- The primary key, and `git_finalizations_pending_project_unique`. -/
instance : Keyed GitFinalization where
  conflict a b := (a.projectId == b.projectId && a.codexSessionId == b.codexSessionId) ||
    (a.projectId == b.projectId && a.state.isFinalizing && b.state.isFinalizing)
  symm a b := by
    rw [Bool.beq_comm, Bool.beq_comm (a := a.codexSessionId), Bool.and_assoc,
      Bool.and_comm a.state.isFinalizing, ← Bool.and_assoc]

instance : Keyed GitLaunchState where
  conflict a b := a.projectId == b.projectId && a.runToken == b.runToken
  symm a b := by simp only [Bool.beq_comm]

instance : Keyed SessionGitMode where
  conflict a b := a.projectId == b.projectId && a.codexSessionId == b.codexSessionId
  symm a b := by simp only [Bool.beq_comm]

/-- The tables of the agent database that its sessions, workers and Git journals
live in. -/
structure Registry where
  projects : Table Project
  runs : Table Run
  leases : Table Lease
  sessionControls : Table SessionControl
  agentWorkers : Table AgentWorker
  gitFinalizations : Table GitFinalization
  gitLaunchStates : Table GitLaunchState
  sessionGitModes : Table SessionGitMode
  deriving DecidableEq

/-- The tables as the migrations create them. -/
def Registry.empty : Registry where
  projects := .empty
  runs := .empty
  leases := .empty
  sessionControls := .empty
  agentWorkers := .empty
  gitFinalizations := .empty
  gitLaunchStates := .empty
  sessionGitModes := .empty

end Clt
