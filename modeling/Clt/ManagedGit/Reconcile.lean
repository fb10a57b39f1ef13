import Clt.ManagedGit.TaskCommit
import Clt.Registry.GitRetirement
import Clt.Task.Status

/-!
# Reconciling a Git journal

`reconcile_agent_git_finalization` as a program on the registry, the checkout and the upstream
that other processes share with it: each of its reads and writes is a step, and the others
move before each step. It logs the reads that prove a commit and every write it makes to the
journal. `Surroundings` holds what the program calls and only its errors and results matter:
locks, the lease, the remote commands, the clock, and the amended commit of a board repair.
-/

namespace Clt

open Interleave Interleave.Program

/-- The task that carries a session as its terminal marker, as far as a proof reads it. -/
structure TerminalTask where
  status : TaskStatus
  hasCompletedNote : Bool
  durableIdentity : Option String

/-- The checkout at one moment. -/
structure Checkout where
  /-- `git symbolic-ref -q HEAD`. -/
  symbolicHead : Except String (Option String)
  /-- `resolve_git_commit`. -/
  resolve : String → Except String String
  /-- `terminal_task_for_codex_session_in_board`. -/
  terminalTask : String → Except String (Option TerminalTask)
  /-- `task_tree_contains_session_marker`. -/
  containsSessionMarker : String → Except String Bool
  /-- `collect_codex_session_tasks_in_board`: each status, and whether the task is stopped or
  claimed by hand. -/
  linkedTasks : String → Except String (List (TaskStatus × Bool))

/-- `git update-ref`: the branch, and `HEAD` when it names the branch. -/
def Checkout.updateRef (branch commit : String) (c : Checkout) : Checkout :=
  { c with
    resolve := fun reference =>
      if reference = branch ∨ (reference = "HEAD" ∧ c.symbolicHead.toOption = some (some branch))
      then .ok commit else c.resolve reference }

/-- What the program shares with the others. -/
structure World where
  registry : Registry
  checkout : Checkout
  upstreamTip : Option String

/-- `AgentGitFinalizationLease`. -/
structure AgentGitFinalizationLease where
  projectId : Int
  holder : String

/-- A write to the journal that the program holds. -/
inductive JournalWrite where
  | recoverIntent (taskIdentity : String) (owner : Option String)
  | advance (next : GitFinalizationState) (owner commitOid : Option String)
  | cancelOrphan (holder updatedAt : String)

/-- The reason of `cancel_orphaned_working_git_finalization`. -/
def orphanReason : String :=
  "Abandoned unbound Git journal: no task identity or board marker remains"

/-- The registry call of a write, computed from the record `held`. -/
def JournalWrite.run (write : JournalWrite) (held : GitFinalization) (now : String)
    (db : Registry) : Outcome Bool :=
  match write with
  | recoverIntent taskIdentity owner =>
    db.recoverGitFinalizationIntent held.projectId held.codexSessionId held.generation
      taskIdentity owner now
  | advance next owner commitOid =>
    db.compareAndSetGitFinalizationBlocking held.projectId held.codexSessionId held.generation
      next owner commitOid none now
  | cancelOrphan holder updatedAt =>
    db.cancelOrphanedWorkingGitFinalization held holder orphanReason updatedAt now

/-- What a run logs: the reads that prove a commit, and the writes to the journal. -/
inductive ReconcileEvent where
  | resolved (reference : String) (answer : Except String String)
  | readHead (answer : Except String (Option String))
  | readWorktreeIdentity (answer : Except String (Option String))
  | fetchedUpstream (answer : Except String (Option String))
  | wrote (held : GitFinalization) (write : JournalWrite) (before after : Registry)
      (changed : Except String Bool)

/-- How a run fails. -/
inductive ReconcileError where
  | message (text : String)
  | changedTooManyTimes (sessionId : String)

/-- What the program calls. -/
structure Surroundings where
  /-- `AgentGitWorktreeBaseline::from_json`. -/
  baselineFromJson : String → Except String AgentGitWorktreeBaseline
  /-- A baseline in which no sealed field is set. -/
  sealedFieldsAbsent : String → Except String Bool
  /-- `coordination::finalization::acquire`. -/
  acquireFinalization : World → String → Except String Unit
  /-- `AgentGitFinalizationLease::ensure_owned`. -/
  ensureOwned : World → AgentGitFinalizationLease → Except String Unit
  /-- The project is registered at this directory. -/
  checkRegisteredRoot : World → Int → Except String Unit
  /-- `acquire_board_mutation_lock`. -/
  acquireBoardLock : World → Except String Unit
  /-- `repair_tracking_agent_git_board`, which moves tasks of the checkout. -/
  repairTracking : World → String → String → Except String Bool × Checkout
  /-- `fetch_agent_git_upstream_tip`. -/
  fetchUpstream : World → GitFinalization → AgentGitWorktreeBaseline →
    Except String (Option String)
  /-- `push_agent_git_commit_to_frozen_destination`. -/
  push : World → GitFinalization → AgentGitWorktreeBaseline → String →
    Except String Unit × Option String
  /-- The standard checkout environment. -/
  checkEnvironment : Except String Unit
  /-- `require_unpublished`. -/
  requireUnpublished : World → String → String → AgentGitWorktreeBaseline → Except String Unit
  /-- The commit amended to the sealed tree, in an isolated checkout. -/
  amend : World → GitFinalization → String → String → Except String String
  /-- The corrected shared index, put in place. -/
  publishIndex : World → Except String Unit
  /-- `agent_git_finalization_diagnostic`. -/
  diagnostic : World → GitFinalization → Except String String
  /-- `agent_timestamp()`. -/
  timestamp : World → String

/-- A program of the supervisor. -/
abbrev Reconcile (α : Type) : Type := Program World ReconcileEvent ReconcileError α

/-- What a round ends with: the call's result, or the record of the next round. -/
inductive RoundEnd where
  | done (f : GitFinalization)
  | again (f : GitFinalization)

namespace Reconcile

/-- A result that is at hand. -/
def lift {α : Type} (x : Except String α) : Reconcile α := ofExcept (x.mapError .message)

/-- A read of the world. -/
def read {α : Type} (f : World → Except String α) : Reconcile α :=
  ask fun w => (f w).mapError .message

/-- A read of the world that the run logs. -/
def observe {α : Type} (f : World → Except String α) (event : Except String α → ReconcileEvent) :
    Reconcile α :=
  step fun w => ((f w).mapError .message, w, [event (f w)])

/-- `anyhow::ensure!`. -/
def check (c : Bool) (text : String) : Reconcile Unit :=
  if c then pure () else fail (.message text)

/-- `resolve_git_commit`. -/
def resolve (reference : String) : Reconcile String :=
  observe (fun w => w.checkout.resolve reference) (.resolved reference)

/-- The branch that the checkout is on. -/
def symbolicHead : Reconcile (Option String) :=
  observe (fun w => w.checkout.symbolicHead) .readHead

/-- `worktree_contains_completed_done_task`. -/
def worktreeContainsCompletedDoneTask (sessionId : String) : Reconcile Bool := do
  let task ← read fun w => w.checkout.terminalTask sessionId
  return task.any fun t => t.status = .done && t.hasCompletedNote

/-- `worktree_completed_task_identity` on what the board holds. -/
def completedTaskIdentity (task : Option TerminalTask) : Option String :=
  (task.filter fun t => t.status = .done && t.hasCompletedNote).bind TerminalTask.durableIdentity

/-- `worktree_completed_task_identity`. -/
def worktreeCompletedTaskIdentity (sessionId : String) : Reconcile (Option String) :=
  observe (fun w => (w.checkout.terminalTask sessionId).map completedTaskIdentity)
    .readWorktreeIdentity

/-- `git_finalization_blocking` of the journal that the program holds. -/
def reread (f : GitFinalization) (missing : String) : Reconcile GitFinalization := do
  match ← read fun w => w.registry.readJournal f.projectId f.codexSessionId with
  | some g => return g
  | none => fail (.message missing)

variable (objects : GitObjects) (around : Surroundings)

/-- One write to the journal. -/
def write (held : GitFinalization) (w : JournalWrite) : Reconcile Bool :=
  step fun world =>
    let outcome := w.run held (around.timestamp world) world.registry
    (outcome.result.mapError .message, { world with registry := outcome.db },
      [.wrote held w world.registry outcome.db outcome.result])

/-- `ensure_agent_git_finalization_fence`. -/
def fence (lease : Option AgentGitFinalizationLease) : Reconcile Unit :=
  match lease with
  | some lease => read fun w => around.ensureOwned w lease
  | none => pure ()

/-! ## Proofs -/

/-- `find_agent_git_task_commit_with_policy`. -/
def findTaskCommit (startingHead : String) (branchRef : Option String)
    (sessionId taskIdentity : String) (legacy : Bool) : Reconcile (Option String) := do
  let branchTip ← resolve (branchRef.getD "HEAD")
  match ← lift (objects.sealedCommit startingHead branchTip sessionId taskIdentity legacy) with
  | none => return none
  | some candidate => do
    let tip ← resolve (branchRef.getD "HEAD")
    return if tip = branchTip then some candidate else none

/-- The checks of `local_agent_git_task_commit_is_retained` on the tip of the branch. -/
def tipRetains (tip commit sessionId taskIdentity : String) : Except String Bool := do
  if !(← objects.isAncestor commit tip) then return false
  if (← objects.completedIdentity tip sessionId) != some taskIdentity then return false
  return !(← objects.containsActiveTaskIdentity tip taskIdentity)

/-- `local_agent_git_task_commit_is_retained`. -/
def commitIsRetained (branchRef : Option String) (commit sessionId taskIdentity : String) :
    Reconcile Bool := do
  match branchRef with
  | none => return false
  | some branchRef => do
    let head ← symbolicHead
    if head != some branchRef then return false
    let identity ← worktreeCompletedTaskIdentity sessionId
    if identity != some taskIdentity then return false
    let branchTip ← resolve branchRef
    let retains ← lift (tipRetains objects branchTip commit sessionId taskIdentity)
    if !retains then return false
    let tip ← resolve branchRef
    return tip == branchTip

/-- `agent_git_manifest_parent_is_current`. -/
def manifestParentIsCurrent (f : GitFinalization) : Reconcile Bool := do
  let head ← symbolicHead
  if head != f.branchRef then return false
  let currentHead ← resolve "HEAD"
  let baseline ← lift (around.baselineFromJson f.worktreeBaseline)
  if 2 ≤ baseline.version then return baseline.manifestParentHead == some currentHead
  match f.startingHead with
  | none => return false
  | some startingHead => lift (objects.isAncestor startingHead currentHead)

/-! ## The board-order repair -/

/-- The control that the finalizer of a generation holds the session under. -/
def heldForFinalization (f : GitFinalization) (sc : SessionControl) : Bool :=
  sc.state = .resumeRequested && sc.runToken == some (recoveryToken f.generation) && sc.isIdle

/-- `recheck` of `repair_board_order`: nothing the repair rests on has changed. -/
def recheck (lease : AgentGitFinalizationLease) (f : GitFinalization)
    (branch taskIdentity commit : String) : Reconcile Unit := do
  read fun w => around.ensureOwned w lease
  let enabled ← read fun w =>
    .ok (w.registry.projects.any fun p => p.id == f.projectId && p.enabled)
  check enabled "Project was paused during automatic board repair"
  let control ← read fun w => .ok (w.registry.control? f.projectId f.codexSessionId)
  check (control.any (heldForFinalization f))
    "Task session was stopped or acquired during automatic board repair"
  let linked ← read fun w => w.checkout.linkedTasks f.codexSessionId
  check (linked == [(.done, false)])
    "Task was stopped, claimed, or moved during automatic board repair"
  let current ← read fun w => w.registry.readJournal f.projectId f.codexSessionId
  check (current == some f) "Git journal changed during automatic board repair"
  let head ← symbolicHead
  check (head == f.branchRef) "Git task branch changed"
  let tip ← resolve "HEAD"
  check (tip == commit) "Automatic board-order repair requires the task commit to remain HEAD"
  let retained ← commitIsRetained objects (some branch) commit f.codexSessionId taskIdentity
  check retained "Task ownership changed during automatic board repair"

/-- What the amended commit must be before it is published. -/
def isSealedRepair (f : GitFinalization) (baseline : AgentGitWorktreeBaseline)
    (taskIdentity repaired : String) : Except String Bool := do
  if !(← objects.commitMatchesStagedManifest repaired f.codexSessionId taskIdentity baseline true)
  then return false
  if !(← objects.usesAgentIdentity repaired) then return false
  return (← objects.trailers repaired) == [taskTrailer f.codexSessionId]

/-- `git update-ref <branch> <repaired> <commit>`. -/
def updateRef (branch repaired commit : String) : Reconcile Unit :=
  step fun w =>
    match w.checkout.resolve branch with
    | .ok tip =>
      if tip = commit then
        (.ok (), { w with checkout := w.checkout.updateRef branch repaired }, [])
      else (.error (.message "publish the verified task repair"), w, [])
    | .error text => (.error (.message text), w, [])

/-- `repair_board_order` past its guards. -/
def publishRepair (lease : AgentGitFinalizationLease) (f : GitFinalization)
    (baseline : AgentGitWorktreeBaseline) (tree branch taskIdentity commit : String) :
    Reconcile Bool := do
  read around.acquireBoardLock
  recheck objects around lease f branch taskIdentity commit
  read fun w => around.requireUnpublished w branch commit baseline
  recheck objects around lease f branch taskIdentity commit
  let repaired ← read fun w => around.amend w f tree commit
  let isSealed ← lift (isSealedRepair objects f baseline taskIdentity repaired)
  check isSealed ("Repair hooks changed the sealed task payload or identity; preserve the " ++
    "original task commit")
  recheck objects around lease f branch taskIdentity commit
  read around.publishIndex
  updateRef branch repaired commit
  read fun w => around.ensureOwned w lease
  return true

/-- `repair_board_order`. -/
def repairBoardOrder (lease : Option AgentGitFinalizationLease) (f : GitFinalization)
    (commit : String) : Reconcile Bool := do
  match lease with
  | none => return false
  | some lease => do
    lift around.checkEnvironment
    let baseline ← lift (around.baselineFromJson f.worktreeBaseline)
    match baseline.stagedIndexTree, f.branchRef, f.taskIdentity with
    | some tree, some branch, some taskIdentity => do
      if baseline.version < 2 || f.state != .commitPending || f.commitOid.isSome then
        return false
      let onlyOrder ← lift (objects.isOnlySelectedOrder commit tree f.codexSessionId)
      if !onlyOrder then return false
      publishRepair objects around lease f baseline tree branch taskIdentity commit
    | _, _, _ => return false

/-! ## The rounds -/

/-- `cancel_orphaned_working_git_finalization`. -/
def cancelOrphaned (f : GitFinalization) (lease : AgentGitFinalizationLease) : Reconcile Bool := do
  if f.state != .working || f.taskIdentity.isSome || f.commitOid.isSome || f.ownerRunToken.isSome
  then return false
  if (around.baselineFromJson f.worktreeBaseline).toOption.isNone then return false
  let absent ← lift (around.sealedFieldsAbsent f.worktreeBaseline)
  if !absent then return false
  check (lease.projectId == f.projectId)
    "Orphan journal recovery requires the matching project lease"
  read fun w => around.checkRegisteredRoot w f.projectId
  read fun w => around.ensureOwned w lease
  read around.acquireBoardLock
  let marked ← read fun w => w.checkout.containsSessionMarker f.codexSessionId
  if marked then return false
  read fun w => around.ensureOwned w lease
  let updatedAt ← read fun w => .ok (around.timestamp w)
  write around f (.cancelOrphan lease.holder updatedAt)

/-- The round of a `working` journal, past the orphan check. -/
def recoverIntent (lease : Option AgentGitFinalizationLease) (owner : Option String)
    (f : GitFinalization) : Reconcile RoundEnd := do
  match f.taskIdentity with
  | none => return .done f
  | some taskIdentity => do
    let baseline ← lift (around.baselineFromJson f.worktreeBaseline)
    if 2 ≤ baseline.version && (baseline.stagedNonTaskPatchIds.isNone ||
        baseline.stagedIndexTree.isNone || baseline.manifestParentHead.isNone) then
      return .done f
    let completed ← worktreeContainsCompletedDoneTask f.codexSessionId
    if !completed then return .done f
    let current ← manifestParentIsCurrent objects around f
    if !current then return .done f
    fence around lease
    let _ ← write around f (.recoverIntent taskIdentity owner)
    return .again (← reread f "Git journal disappeared during completion-intent recovery")

/-- The round of a `working` journal. -/
def reconcileWorking (lease : Option AgentGitFinalizationLease) (owner : Option String)
    (f : GitFinalization) : Reconcile RoundEnd := do
  match lease with
  | none => recoverIntent objects around lease owner f
  | some held => do
    let cancelled ← cancelOrphaned around f held
    if cancelled then return .done (← reread f "Retired orphan Git journal disappeared")
    recoverIntent objects around lease owner f

/-- `repair_tracking_agent_git_board`. -/
def repairTrackingBoard (sessionId taskIdentity : String) : Reconcile Bool :=
  step fun w =>
    let (result, checkout) := around.repairTracking w sessionId taskIdentity
    (result.mapError .message, { w with checkout := checkout }, [])

/-- The round of a `tracking` journal. -/
def reconcileTracking (lease : Option AgentGitFinalizationLease) (owner : Option String)
    (f : GitFinalization) : Reconcile RoundEnd := do
  match f.taskIdentity with
  | none => return .done f
  | some taskIdentity => do
    let current ← manifestParentIsCurrent objects around f
    if !current then return .done f
    fence around lease
    let repaired ← repairTrackingBoard around f.codexSessionId taskIdentity
    if !repaired then return .done f
    fence around lease
    let completed ← worktreeContainsCompletedDoneTask f.codexSessionId
    if !completed then return .done f
    fence around lease
    let _ ← write around f (.advance .commitPending owner none)
    return .again (← reread f "Git finalization disappeared during task-move reconciliation")

/-- The head that the proof of a task commit starts from. -/
def proofStart (baseline : AgentGitWorktreeBaseline) (startingHead : String) : String :=
  if 2 ≤ baseline.version then baseline.manifestParentHead.getD startingHead else startingHead

/-- Where a proven task commit takes the journal. -/
def afterCommit : AgentGitMode → Reconcile GitFinalizationState
  | .off => fail (.message "Pending Git finalization unexpectedly has Git mode off")
  | .commit => pure .completed
  | .commitAndPush => pure .pushPending

/-- The round of a `commit_pending` journal, with the task commit that the search found. -/
def recordTaskCommit (lease : Option AgentGitFinalizationLease) (owner : Option String)
    (f : GitFinalization) (baseline : AgentGitWorktreeBaseline) (taskIdentity commit : String) :
    Reconcile RoundEnd := do
  let sealedAs ← lift
    (objects.commitMatchesStagedManifest commit f.codexSessionId taskIdentity baseline true)
  if !sealedAs then
    let repaired ← repairBoardOrder objects around lease f commit
    if repaired then return .again f
    fail (.message (← read fun w => around.diagnostic w f))
  else
    let retained ← commitIsRetained objects f.branchRef commit f.codexSessionId taskIdentity
    if !retained then fail (.message (← read fun w => around.diagnostic w f))
    else
      fence around lease
      let next ← afterCommit f.gitMode
      let _ ← write around f (.advance next owner (some commit))
      return .again (← reread f "Git finalization disappeared during commit reconciliation")

/-- The round of a `commit_pending` journal. -/
def reconcileCommitPending (lease : Option AgentGitFinalizationLease) (owner : Option String)
    (f : GitFinalization) : Reconcile RoundEnd := do
  match f.startingHead, f.taskIdentity with
  | some startingHead, some taskIdentity => do
    let baseline ← lift (around.baselineFromJson f.worktreeBaseline)
    let found ← findTaskCommit objects (proofStart baseline startingHead) f.branchRef
      f.codexSessionId taskIdentity (baseline.version == 1)
    match found with
    | none => return .done f
    | some commit => recordTaskCommit objects around lease owner f baseline taskIdentity commit
  | _, _ => return .done f

/-- `fetch_agent_git_upstream_tip`. -/
def fetchUpstreamTip (f : GitFinalization) (baseline : AgentGitWorktreeBaseline) :
    Reconcile (Option String) :=
  observe (fun w => around.fetchUpstream w f baseline) .fetchedUpstream

/-- `push_agent_git_commit_to_frozen_destination`. -/
def pushCommit (f : GitFinalization) (baseline : AgentGitWorktreeBaseline) (commit : String) :
    Reconcile Unit :=
  step fun w =>
    let (result, tip) := around.push w f baseline commit
    (result.mapError .message, { w with upstreamTip := tip }, [])

/-- The upstream's tip once the commit was pushed, unless it was there already. -/
def publishedTip (f : GitFinalization) (baseline : AgentGitWorktreeBaseline)
    (taskIdentity commit : String) : Reconcile (Option String) := do
  let tip ← fetchUpstreamTip around f baseline
  let published ← match tip with
    | some tip => lift (objects.upstreamTipProvesTaskCommit tip commit f.codexSessionId
        taskIdentity (baseline.version == 1))
    | none => pure false
  if published then return tip
  pushCommit around f baseline commit
  fetchUpstreamTip around f baseline

/-- The round of a `push_pending` journal, with the commit that it names. -/
def reconcilePublication (lease : Option AgentGitFinalizationLease) (owner : Option String)
    (f : GitFinalization) (baseline : AgentGitWorktreeBaseline) (taskIdentity commit : String) :
    Reconcile RoundEnd := do
  let sealedAs ← lift
    (objects.commitMatchesStagedManifest commit f.codexSessionId taskIdentity baseline true)
  if !sealedAs then return .done f
  let retained ← commitIsRetained objects f.branchRef commit f.codexSessionId taskIdentity
  if !retained then return .done f
  match ← publishedTip objects around f baseline taskIdentity commit with
  | none => return .done f
  | some tip => do
    let proved ← lift (objects.upstreamTipProvesTaskCommit tip commit f.codexSessionId
      taskIdentity (baseline.version == 1))
    if !proved then return .done f
    let retained ← commitIsRetained objects f.branchRef commit f.codexSessionId taskIdentity
    if !retained then return .done f
    fence around lease
    let _ ← write around f (.advance .completed owner (some commit))
    return .again (← reread f "Git finalization disappeared during push reconciliation")

/-- The round of a `push_pending` journal. -/
def reconcilePushPending (lease : Option AgentGitFinalizationLease) (owner : Option String)
    (f : GitFinalization) : Reconcile RoundEnd := do
  match f.taskIdentity with
  | none => return .done f
  | some taskIdentity => do
    let baseline ← lift (around.baselineFromJson f.worktreeBaseline)
    match f.commitOid with
    | none => return .done f
    | some commit => reconcilePublication objects around lease owner f baseline taskIdentity commit

/-- One round. -/
def reconcileRound (lease : Option AgentGitFinalizationLease) (ownerRunToken : Option String)
    (f : GitFinalization) : Reconcile RoundEnd :=
  let owner := ownerRunToken.or f.ownerRunToken
  match f.state with
  | .working => reconcileWorking objects around lease owner f
  | .tracking => reconcileTracking objects around lease owner f
  | .commitPending => reconcileCommitPending objects around lease owner f
  | .pushPending => reconcilePushPending objects around lease owner f
  | .completed | .cancelled => pure (.done f)

/-- The guard of the staging area, taken in the first round of a finalizing journal. -/
def acquireGuard (guarded : Bool) (f : GitFinalization) : Reconcile Bool := do
  if f.state.isFinalizing && !guarded then
    read fun w => around.acquireFinalization w f.codexSessionId
    return true
  else return guarded

/-- The loop of `reconcile_agent_git_finalization`, with the rounds that are left. -/
def reconcileRounds (lease : Option AgentGitFinalizationLease) (ownerRunToken : Option String) :
    Nat → Bool → GitFinalization → Reconcile GitFinalization
  | 0, _, f => fail (.changedTooManyTimes f.codexSessionId)
  | n + 1, guarded, f => do
    let guarded ← acquireGuard around guarded f
    fence around lease
    match ← reconcileRound objects around lease ownerRunToken f with
    | .done g => return g
    | .again g => reconcileRounds lease ownerRunToken n guarded g

/-- `reconcile_agent_git_finalization`. -/
def reconcileAgentGitFinalization (lease : Option AgentGitFinalizationLease)
    (ownerRunToken : Option String) (f : GitFinalization) : Reconcile GitFinalization :=
  reconcileRounds objects around lease ownerRunToken 6 false f

end Reconcile

end Clt
