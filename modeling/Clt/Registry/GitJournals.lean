import Clt.Registry.Statement

/-!
# Git journals

The writes of `agent/repositories/git_journals.rs`: creating a journal, the
compare-and-set that moves it through its states and the wrappers around it, the
operations that retire a journal that will not finish, and its acknowledgement.
`now` stands for a reading of `agent_timestamp()`; every other argument is the
source's own.
-/

namespace Clt

open Relational

/-- `AGENT_GIT_FINALIZATION_RESUME_TOKEN_PREFIX`. -/
def agentGitFinalizationResumeTokenPrefix : String := "clt-git-finalization:"

/-- `AGENT_MISSING_GIT_RECOVERY_TOKEN_PREFIX`. -/
def agentMissingGitRecoveryTokenPrefix : String := "clt-git-recovery:"

/-- `AGENT_BRANCH_GIT_RECOVERY_REASON`. -/
def agentBranchGitRecoveryReason : String :=
  "User explicitly retired the previous Git attempt after changing checkout branches"

/-- `AGENT_EXTERNAL_COMPLETION_REASON`. -/
def agentExternalCompletionReason : String :=
  "Managed Git proof was cancelled because a user explicitly moved the task to Done " ++
    "as an external completion"

/-- `AGENT_TASK_DELETION_REASON`. -/
def agentTaskDeletionReason : String :=
  "Managed Git proof was cancelled because a user explicitly deleted the idle task"

/-- The token of the control that fences a journal's generation. -/
def recoveryToken (generation : Int) : String :=
  agentGitFinalizationResumeTokenPrefix ++ castText generation

/-- `GitTaskCancellation`. -/
inductive GitTaskCancellation where
  | externalCompletion
  | deletion
  deriving DecidableEq, Repr

/-- `GitTaskCancellation::reason`. -/
def GitTaskCancellation.reason : GitTaskCancellation → String
  | externalCompletion => agentExternalCompletionReason
  | deletion => agentTaskDeletionReason

/-- `GitTaskCancellation::action`. -/
def GitTaskCancellation.action : GitTaskCancellation → String
  | externalCompletion => "moving the task to Done as an external completion"
  | deletion => "deleting the task"

/-- `NewGitFinalization`. -/
structure NewGitFinalization where
  projectId : Int
  codexSessionId : String
  gitMode : AgentGitMode
  startingHead : Option String
  branchRef : Option String
  upstreamRef : Option String
  worktreeBaseline : String
  taskIdentity : Option String
  ownerRunToken : Option String
  createdAt : String

/-- The fresh `working` row of a journal. -/
def NewGitFinalization.toRow (n : NewGitFinalization) : GitFinalization where
  projectId := n.projectId
  codexSessionId := n.codexSessionId
  state := .working
  gitMode := n.gitMode
  startingHead := n.startingHead
  branchRef := n.branchRef
  upstreamRef := n.upstreamRef
  worktreeBaseline := n.worktreeBaseline
  taskIdentity := n.taskIdentity
  ownerRunToken := n.ownerRunToken
  commitOid := none
  generation := 0
  lastError := none
  createdAt := n.createdAt
  updatedAt := n.createdAt
  completedAt := none
  acknowledgedAt := none
  acknowledgedRunId := none

namespace GitFinalization

/-- `git_finalization_record_from_row`: a generation that has outgrown an integer
column cannot be read back. -/
def recordFromRow (g : GitFinalization) : Except String GitFinalization :=
  if g.generation ≤ maxInteger then .ok g
  else .error "Agent database column generation was not an integer"

@[simp] theorem recordFromRow_eq_ok {g r : GitFinalization} :
    g.recordFromRow = .ok r ↔ g.generation ≤ maxInteger ∧ g = r := by
  unfold recordFromRow
  split <;> simp_all

/-- The columns every cancellation writes. -/
def cancel (reason updatedAt : String) (g : GitFinalization) : GitFinalization :=
  { g with
    state := .cancelled, ownerRunToken := none, generation := g.generation + 1,
    lastError := some reason, updatedAt := updatedAt, completedAt := some updatedAt }

/-- A cancelled row leaves the index of pending journals. -/
theorem cancel_compatible (reason updatedAt : String) (p : GitFinalization → Bool) :
    Compatible p (cancel reason updatedAt) := by
  intro a b _ h
  simp only [Keyed.conflict, cancel, GitFinalizationState.isFinalizing, Bool.and_false,
    Bool.false_and, Bool.or_false] at h
  simp only [Keyed.conflict, h, Bool.true_or]

/-- The columns that `compare_and_set_git_finalization` writes. -/
def advance (nextState : GitFinalizationState)
    (taskIdentity worktreeBaseline ownerRunToken commitOid lastError : Option String)
    (updatedAt : String) (g : GitFinalization) : GitFinalization :=
  { g with
    state := nextState
    taskIdentity := g.taskIdentity.or taskIdentity
    worktreeBaseline := worktreeBaseline.getD g.worktreeBaseline
    ownerRunToken := ownerRunToken
    commitOid := commitOid.or g.commitOid
    generation := g.generation + 1
    lastError := lastError
    updatedAt := updatedAt
    completedAt := if nextState.isTerminal then some updatedAt else none }

end GitFinalization

namespace Registry

/-! ## Creating a journal -/

/-- A control in state `running` under the given run token. -/
def hasRunningOwner (db : Registry) (projectId : Int) (codexSessionId runToken : String) : Bool :=
  db.sessionControls.any fun sc =>
    sc.is projectId codexSessionId && sc.state = .running && sqlEq sc.runToken (some runToken)

/-- `create_git_finalization`. -/
def createGitFinalization (n : NewGitFinalization) (db : Registry) : Outcome Bool :=
  db.transaction do
    require (n.codexSessionId != "") (.error "Git finalization requires a Codex session ID")
    require (n.gitMode != .off)
      (.error "Git finalization cannot be created when Git automation is off")
    require (n.ownerRunToken.all fun owner => db.hasRunningOwner n.projectId n.codexSessionId owner)
      (.ok false)
    let (journals, inserted) ←
      fetch (db.insertOrIgnoreInto n.projectId db.gitFinalizations n.toRow)
        (.error ("Failed to create Git finalization for project " ++ castText n.projectId ++
          " and Codex session " ++ n.codexSessionId))
    return (decide (inserted = 1), { db with gitFinalizations := journals })

/-- `session_can_enable_git`. Both joined rows are named by their primary keys, so
the count is `1` exactly when both are there. -/
def sessionCanEnableGit (db : Registry) (projectId : Int) (sessionId leaseHolder now : String) :
    Bool :=
  (db.sessionGitModes.any fun m => m.is projectId sessionId && m.gitMode = .off) &&
  (db.leases.any fun l => l.projectId == projectId && l.holder == leaseHolder &&
    castInteger now < castInteger l.expiresAt) &&
  !(db.gitFinalizations.any (GitFinalization.is projectId sessionId)) &&
  !(db.hasGitLaunchState projectId) &&
  !(db.agentWorkers.any fun w => w.activeIn projectId && w.leaseHolder != leaseHolder) &&
  !(db.sessionControls.any fun sc => sc.projectId == projectId && (!sc.isParked || !sc.isIdle))

/-- `enable_session_git_blocking`. -/
def enableSessionGit (journal : NewGitFinalization) (leaseHolder now : String) (db : Registry) :
    Outcome Bool :=
  db.transaction do
    require (journal.gitMode != .off && journal.startingHead.isSome &&
        journal.taskIdentity.isSome && journal.ownerRunToken.isSome)
      (.error "Enabling session Git requires a complete boundary and owner")
    require (db.sessionCanEnableGit journal.projectId journal.codexSessionId leaseHolder now)
      (.ok false)
    let journals ← fetch (db.insertInto journal.projectId db.gitFinalizations journal.toRow)
      (.error "constraint failed")
    return (true,
      { db with
        gitFinalizations := journals
        sessionGitModes := db.sessionGitModes.update
          (SessionGitMode.is journal.projectId journal.codexSessionId)
          (fun m => { m with gitMode := journal.gitMode }) })

/-! ## The compare-and-set -/

/-- The control that an idle session waits under for this generation. -/
def isRecoveryFence (projectId : Int) (codexSessionId : String) (generation : Int)
    (sc : SessionControl) : Bool :=
  sc.is projectId codexSessionId && sc.state = .resumeRequested && sc.isIdle &&
    sqlEq sc.runToken (some (recoveryToken generation))

/-- `require_running_owner`: the caller's own run still owns the session. -/
def checkRunningOwner (db : Registry) (projectId : Int) (codexSessionId : String)
    (requireRunningOwner : Bool) (ownerRunToken : Option String) : Step Bool Unit :=
  if requireRunningOwner then do
    let owner ← fetch ownerRunToken
      (.error "Git completion intent requires a running owner token")
    require (db.hasRunningOwner projectId codexSessionId owner) (.ok false)
  else .ok ()

/-- The admission checks of `compare_and_set_git_finalization` on the row it read. -/
def checkTransition (current : GitFinalization) (nextState : GitFinalizationState)
    (taskIdentity commitOid : Option String) : Step Bool Unit := do
  require (current.state.canTransitionTo nextState)
    (.error ("Invalid Git finalization transition from " ++ current.state.databaseValue ++
      " to " ++ nextState.databaseValue))
  require (!(nextState = .pushPending && current.gitMode != .commitAndPush))
    (.error "Only commit-and-push finalizations may enter push_pending")
  require (!sqlNe current.taskIdentity taskIdentity)
    (.error ("Git finalization task identity cannot change after completion intent " ++
      "is recorded"))
  require (!(nextState.isFinalizing && (taskIdentity.or current.taskIdentity).isNone))
    (.error ("Git finalization cannot enter " ++ nextState.databaseValue ++
      " without a task identity"))
  require (!sqlNe current.commitOid commitOid)
    (.error "Git finalization commit OID cannot change once recorded")
  require (!((nextState = .pushPending || nextState = .completed) &&
      (commitOid.or current.commitOid).isNone))
    (.error ("Git finalization cannot enter " ++ nextState.databaseValue ++
      " without a commit OID"))
  require (!(nextState = .completed &&
      ((current.gitMode = .commit && current.state != .commitPending) ||
       (current.gitMode = .commitAndPush && current.state != .pushPending))))
    (.error "Git finalization cannot complete before its configured commit or push step")

/-- `compare_and_set_git_finalization`. -/
def compareAndSetGitFinalization (projectId : Int) (codexSessionId : String)
    (expectedGeneration : Int) (nextState : GitFinalizationState)
    (taskIdentity worktreeBaseline : Option String) (requireRunningOwner : Bool)
    (ownerRunToken commitOid lastError : Option String) (updatedAt : String) (db : Registry) :
    Outcome Bool :=
  db.transaction do
    let row ← fetch (db.journal? projectId codexSessionId) (.ok false)
    let current ← attempt row.recordFromRow
    require (current.generation == expectedGeneration) (.ok false)
    db.checkRunningOwner projectId codexSessionId requireRunningOwner ownerRunToken
    checkTransition current nextState taskIdentity commitOid
    let journals ←
      fetch (db.gitFinalizations.update?
          (fun g => g.is projectId codexSessionId && g.generation == expectedGeneration)
          (GitFinalization.advance nextState taskIdentity worktreeBaseline ownerRunToken
            commitOid lastError updatedAt))
        (.error ("Failed to update Git finalization for project " ++ castText projectId ++
          " and Codex session " ++ codexSessionId))
    require (decide (expectedGeneration < maxInteger))
      (.error "Git finalization generation overflowed")
    -- The control that fences the old generation ends with the journal, or moves on with it.
    let controls :=
      if nextState.isTerminal then
        db.sessionControls.delete (isRecoveryFence projectId codexSessionId expectedGeneration)
      else
        db.sessionControls.update (isRecoveryFence projectId codexSessionId expectedGeneration)
          fun sc =>
            { sc with
              runToken := some (recoveryToken (expectedGeneration + 1))
              updatedAt := updatedAt }
    return (true, { db with gitFinalizations := journals, sessionControls := controls })

/-- `compare_and_set_git_finalization_blocking`. -/
def compareAndSetGitFinalizationBlocking (projectId : Int) (codexSessionId : String)
    (expectedGeneration : Int) (nextState : GitFinalizationState)
    (ownerRunToken commitOid lastError : Option String) (updatedAt : String) (db : Registry) :
    Outcome Bool :=
  db.compareAndSetGitFinalization projectId codexSessionId expectedGeneration nextState
    none none false ownerRunToken commitOid lastError updatedAt

/-- `compare_and_set_owned_git_finalization_blocking`. -/
def compareAndSetOwnedGitFinalization (projectId : Int) (codexSessionId : String)
    (expectedGeneration : Int) (nextState : GitFinalizationState) (ownerRunToken : String)
    (commitOid lastError : Option String) (updatedAt : String) (db : Registry) : Outcome Bool :=
  db.compareAndSetGitFinalization projectId codexSessionId expectedGeneration nextState
    none none true (some ownerRunToken) commitOid lastError updatedAt

/-- `compare_and_set_git_finalization_with_identity_blocking`. -/
def compareAndSetGitFinalizationWithIdentity (projectId : Int) (codexSessionId : String)
    (expectedGeneration : Int) (nextState : GitFinalizationState) (taskIdentity : String)
    (ownerRunToken : Option String) (updatedAt : String) (db : Registry) : Outcome Bool :=
  db.compareAndSetGitFinalization projectId codexSessionId expectedGeneration nextState
    (some taskIdentity) none true ownerRunToken none none updatedAt

/-- `track_git_finalization_with_manifest_blocking`. -/
def trackGitFinalizationWithManifest (projectId : Int) (codexSessionId : String)
    (expectedGeneration : Int) (taskIdentity worktreeBaseline ownerRunToken updatedAt : String)
    (db : Registry) : Outcome Bool :=
  db.compareAndSetGitFinalization projectId codexSessionId expectedGeneration .tracking
    (some taskIdentity) (some worktreeBaseline) true (some ownerRunToken) none none updatedAt

/-- `reseal_git_finalization_manifest_blocking`. -/
def resealGitFinalizationManifest (projectId : Int) (codexSessionId : String)
    (expectedGeneration : Int) (taskIdentity worktreeBaseline ownerRunToken updatedAt : String)
    (db : Registry) : Outcome Bool :=
  db.compareAndSetGitFinalization projectId codexSessionId expectedGeneration .commitPending
    (some taskIdentity) (some worktreeBaseline) true (some ownerRunToken) none none updatedAt

/-- `recover_git_finalization_intent_blocking`. -/
def recoverGitFinalizationIntent (projectId : Int) (codexSessionId : String)
    (expectedGeneration : Int) (taskIdentity : String) (ownerRunToken : Option String)
    (updatedAt : String) (db : Registry) : Outcome Bool :=
  db.compareAndSetGitFinalization projectId codexSessionId expectedGeneration .tracking
    (some taskIdentity) none false ownerRunToken none none updatedAt

end Registry

end Clt
