import Mathlib.Algebra.Order.Ring.Int
import Mathlib.Data.Prod.Lex
import Mathlib.Data.String.Basic
import Clt.Coordination.ReadyTasks
import Clt.Registry.GitRetirement
import Clt.Task.Attachment
import Clt.Task.MarkdownBoard
import Clt.Task.Placement

/-!
# What the supervisor reads

The supervisor assesses the blocked work of a project. A review is made of evidence: the board, the
sealed Git journals, the sessions that failed twice, and which sessions may be resumed. A saved
review remembers the evidence it was made of, so that it counts for as long as nothing of that
has changed.
-/

namespace Clt.Supervisor

open Files Relational

/-! ## Reviews -/

/-- `MAX_REVIEWS`. -/
def maxReviews : Nat := 2

/-- `MAX_RETRIES`. -/
def maxRetries : Nat := 2

/-- `DecisionKind`. -/
inductive DecisionKind where
  | retry
  | wait
  | user
  | replan
  | repair
  deriving DecidableEq, Repr

/-- `Decision`; the task counts from one. -/
structure Decision where
  decision : DecisionKind
  task : Nat
  reason : Text
  nextAction : Text
  deriving DecidableEq

/-- A sealed journal, as `review_evidence` writes it down. -/
structure SealEvidence where
  session : Text
  generation : Int
  state : GitFinalizationState
  manifest : Text
  lastError : Option String
  head : Text
  diagnostic : Text
  deriving DecidableEq

/-- A session that failed twice, with its latest run. -/
structure FailureEvidence where
  session : Text
  run : Option (Int × String × Option String)
  deriving DecidableEq

/-- `review_evidence`. The JSON text that the source keeps is written from this record, and two
records are written alike only when they are the same. -/
structure Evidence where
  board : List (TaskStatus × Text)
  finalizations : List SealEvidence
  repeatedFailures : List FailureEvidence
  sessionEligibility : List (Text × Bool)
  deriving DecidableEq

/-- The states of a review. -/
inductive ReviewState where
  | pending
  | reviewing
  | held
  | retry
  deriving DecidableEq, Repr

/-- `SupervisorReview`. -/
structure SupervisorReview where
  evidence : Evidence
  state : ReviewState
  attempts : Nat
  retries : Nat
  decision : Option Decision
  retrySession : Option Text
  error : Option String
  deriving DecidableEq

/-- A decision as `Debug` writes it. -/
def DecisionKind.debug : DecisionKind → String
  | retry => "Retry"
  | wait => "Wait"
  | user => "User"
  | replan => "Replan"
  | repair => "Repair"

/-- `SupervisorReview::message`. -/
def SupervisorReview.message (review : SupervisorReview) : Text :=
  match review.error, review.decision with
  | some error, _ => s!"Supervisor needs attention: {error}. Press r to review again.".toList
  | none, some decision =>
    s!"Supervisor {decision.decision.debug}: ".toList ++ decision.reason ++ " Next: ".toList ++
      decision.nextAction
  | none, none => "Supervisor review pending; project work is waiting.".toList

/-! ## The site -/

/-- What is seen and done by the calls of the supervisor. -/
inductive Event where
  | began
  | enabled (enabled : Bool)
  | review (review : Option SupervisorReview)
  | evidence (evidence : Evidence)
  | candidates (candidates : List FoundTask)
  | control (session : Text) (control : Option SessionControl)
  | linked (session : Text) (tasks : List FoundTask)
  | decided (review : SupervisorReview)
  | saved (review : SupervisorReview)
  | cleared
  deriving DecidableEq

/-- What the supervisor of a project works on: its settings, the registry, the files, what Git and
the JSON reader answer, the decision that the reviewer has written, and the saved review. The log
is history, the newest event first. -/
structure Site where
  enabled : Bool
  db : Registry
  root : Folder
  admission : Admission
  lower : Char → Text
  head : Option Text
  manifest : String → Option Text
  diagnostic : GitFinalization → Option Text
  decisionFile : Option Decision
  review : Option SupervisorReview
  log : List Event

/-- `AgentProject`, as far as the supervisor reads it. -/
structure SupervisedProject where
  id : Int
  path : List Text

section

variable (project : SupervisedProject) (w : Site)

/-- The board of the project. -/
def board : Folder := (folderAtPath w.root (getTasksDir project.path)).getD []

/-- The entries of one status. -/
def entries (status : TaskStatus) : Option (List TaskEntry) :=
  readTaskEntries w.admission.toLowercase (board project w) status

/-- An entry of the project's own board. -/
def ownEntry (status : TaskStatus) (entry : TaskEntry) : FoundTask := ⟨[], status, entry⟩

/-- `evidence`. -/
def evidence : Option (List (TaskStatus × Text)) := do
  let lists ← [TaskStatus.todo, .doing, .done].mapM fun status =>
    (entries project w status).map fun tasks => tasks.map fun task => (status, task.content)
  some lists.flatten

/-- `list_pending_git_finalizations` of the project. -/
def listPendingGitFinalizations : List GitFinalization :=
  Listing.sortByKey (fun g => toLex (castInteger g.updatedAt, g.codexSessionId))
    (w.db.gitFinalizations.rows.filter fun g => g.state.isUnfinished && g.projectId == project.id)

/-- The pending journals that are sealed. -/
def sealedFinalizations : List GitFinalization :=
  (listPendingGitFinalizations project w).filter fun journal => journal.state.isFinalizing

/-- `has_sealed_finalization`. -/
def hasSealedFinalization : Bool := !(sealedFinalizations project w).isEmpty

/-- `session_control`. -/
def sessionControl (session : Text) : Option SessionControl :=
  w.db.control? project.id (String.ofList session)

/-- The session's journal. -/
def gitFinalization (session : Text) : Option GitFinalization :=
  w.db.journal? project.id (String.ofList session)

/-- A control that lets its session be resumed. -/
def isIdleControl (control : Option SessionControl) : Bool :=
  control.all fun c => c.state = .resumeRequested && c.isIdle

/-- `retry_session_is_idle`. -/
def retrySessionIsIdle (session : Text) : Bool := isIdleControl (sessionControl project w session)

/-- `latest_run_for_codex_session`, and `previous_run_for_codex_session` before a run. -/
def latestRun (session : Text) (before : Option Int) : Option Run :=
  w.db.runs.find? fun r => sqlEq (some r.id) (w.db.maxRunId fun r =>
    r.projectId == project.id && sqlEq r.codexSessionId (some (String.ofList session)) &&
      before.all fun id => decide (r.id < id))

/-- The run has ended without success. -/
def hasFailed (run : Run) : Bool :=
  run.finishedAt.isSome && (run.status == "failure" || run.status == "timeout")

/-- The last two runs of the session have failed. -/
def hasFailedTwice (session : Text) : Bool :=
  (latestRun project w session none).any fun latest =>
    hasFailed latest && (latestRun project w session (some latest.id)).any hasFailed

/-- `repeated_failure_candidates`. -/
def repeatedFailureCandidates : Option (List FoundTask) := do
  let lists ← [TaskStatus.todo, .doing].mapM fun status =>
    (entries project w status).map fun tasks =>
      (tasks.filter fun task =>
        !taskContentIsStopped task.content && !taskContentIsManual task.content &&
          !taskContentIsBlocked task.content &&
          (recoverableCodexSessionIdFromTaskContent task.content).any
            (hasFailedTwice project w)).map (ownEntry status)
  some lists.flatten

/-- `blocked_candidates`. -/
def blockedCandidates : Option (List FoundTask) :=
  (blockedTasks w.admission.toLowercase (board project w)).map fun tasks =>
    tasks.map fun task => ownEntry task.1 task.2

/-- `collect_codex_session_tasks_in_board`; the depth bounds how many boards lie inside each
other. -/
def collectCodexSessionTasks (toLowercase : Text → Text) (sessionId : Text) :
    Nat → Folder → Option (List FoundTask)
  | 0, _ => some []
  | depth + 1, board => do
    let lists ← TaskStatus.sessionSearchOrder.mapM fun status => do
      let tasks ← readTaskEntries toLowercase board status
      let found ← tasks.mapM fun task =>
        let own : List FoundTask :=
          if recoverableCodexSessionIdFromTaskContent task.content = some sessionId then
            [ownEntry status task]
          else []
        match task.hasSubtasks, task.source with
        | true, .path name true =>
          let folders := [status.dirName, name]
          (collectCodexSessionTasks toLowercase sessionId depth
            ((folderAtPath board folders).getD [])).map fun inner =>
              own ++ inner.map fun task => { task with folders := folders ++ task.folders }
        | _, _ => some own
      some found.flatten
    some lists.flatten

/-- The tasks of the board and of the boards inside it that are linked to a session. -/
def linkedTasks (session : Text) : Option (List FoundTask) :=
  collectCodexSessionTasks w.admission.toLowercase session (depth (board project w) + 1)
    (board project w)

/-- `TaskStatus::is_active`. -/
def isActive (status : TaskStatus) : Bool := status = .todo || status = .doing

/-- The one task that a sealed journal leaves to review, if there is just one. -/
def sealedCandidate : List FoundTask → List FoundTask
  | [found] =>
    if (isActive found.status || found.status = .done) &&
        !taskContentIsStopped found.entry.content && !taskContentIsManual found.entry.content then
      [found]
    else []
  | _ => []

/-- `review_candidates`. -/
def reviewCandidates : Option (List FoundTask) :=
  if hasSealedFinalization project w then do
    let lists ← (sealedFinalizations project w).mapM fun journal =>
      (linkedTasks project w journal.codexSessionId.toList).map sealedCandidate
    some lists.flatten
  else do
    let candidates ← blockedCandidates project w
    let repeated ← repeatedFailureCandidates project w
    some (repeated.foldl (fun candidates candidate =>
      if candidates.contains candidate then candidates else candidates ++ [candidate]) candidates)

/-- `retry_status_available`. -/
def retryStatusAvailable (status : TaskStatus) (session : Text) : Bool :=
  isActive status || (status = .done &&
    (gitFinalization project w session).any fun journal => journal.state.isFinalizing)

/-- `review_evidence`. -/
def reviewEvidence : Option Evidence := do
  let finalizations ← (sealedFinalizations project w).mapM fun journal => do
    let manifest ← w.manifest journal.worktreeBaseline
    let head ← w.head
    let diagnostic ← w.diagnostic journal
    some (⟨journal.codexSessionId.toList, journal.generation, journal.state, manifest,
      journal.lastError, head, diagnostic⟩ : SealEvidence)
  let repeated ← repeatedFailureCandidates project w
  let sessionsOf (tasks : List FoundTask) : List Text :=
    tasks.filterMap fun task => recoverableCodexSessionIdFromTaskContent task.entry.content
  let candidates ← reviewCandidates project w
  let board ← evidence project w
  some {
    board
    finalizations
    repeatedFailures := (sessionsOf repeated).map fun session =>
      ⟨session, (latestRun project w session none).map fun run => (run.id, run.status, run.summary)⟩
    sessionEligibility := (sessionsOf candidates).map fun session =>
      (session, retrySessionIsIdle project w session) }

/-- `queued_blockers_can_wait`. -/
def queuedBlockersCanWait : Option Bool := do
  let blocked ← blockedCandidates project w
  if blocked.any fun task => task.status = .doing then some false
  else (w.admission.readyTasks w.root project.path).map fun ready => !ready.isEmpty

/-! ## What it writes -/

/-- Change the folder that the names lead to. -/
def inFolderAt (f : Folder → Option Folder) (F : Folder) : List Text → Option Folder
  | [] => f F
  | name :: rest => do
    let G ← folderAt F name
    let changed ← inFolderAt f G rest
    some (setNode F name (.folder changed))

/-- `write_task_entry_content` of a task that was found. A line is looked for in the list of the
project's own board, also when it was found in a board inside it. -/
def writeTask (found : FoundTask) (content : Text) : Option Site :=
  let folders := match found.entry.source with
    | .markdownLine _ => []
    | .path _ _ => found.folders
  (inFolderAt (fun board => writeTaskEntryContent board found.status found.entry content) w.root
    (getTasksDir project.path ++ folders)).map fun root => { w with root }

/-- `str::rfind`. -/
def findLastText (pattern t : Text) : Option Nat :=
  (List.range (t.length + 1)).reverse.find? fun index => pattern.isPrefixOf (t.drop index)

/-- The text of a task with a note before the last link to the session. -/
def withNote (content session note : Text) : Option Text :=
  (findLastText ("codex:".toList ++ session) content).map fun split =>
    Text.trimEnd (content.take split) ++ "\n\n".toList ++ note ++ " ".toList ++ content.drop split

/-- The first part of `move_task_without_reordering_after_lock`, from Doing to Todo: the task is
put into its new place. A task that is a file or a folder is moved by that. -/
def placeDeferred (board : Folder) (entry : TaskEntry) : Option Folder := do
  let board ← ensureBoardStore board
  match entry.source, ← getStatusStore board .todo with
  | .path name _, .directory tasks =>
    let doing ← folderAt board TaskStatus.doing.dirName
    let node ← node? doing name
    let placed ← (movePathIntoDirectoryWithoutReordering w.admission.toLowercase name node false
      tasks false).toOption
    let left := setNode board TaskStatus.doing.dirName
      (.folder (doing.filter fun task => task.1 ≠ name))
    some (setNode left TaskStatus.todo.dirName (.folder placed.2))
  | .path _ _, .markdownFile _ => none
  | .markdownLine _, .directory tasks =>
    let placed ← (insertContentIntoDirectoryWithoutReorderingAt w.admission.toLowercase w.lower
      tasks entry.content false).toOption
    some (setNode board TaskStatus.todo.dirName (.folder placed.2))
  | .markdownLine _, .markdownFile _ => insertTaskContent board .todo none entry.content

/-- The second part: a line is taken from its list. -/
def takeDeferred (board : Folder) (entry : TaskEntry) : Option Folder :=
  match entry.source with
  | .path _ _ => some board
  | .markdownLine _ => removeTaskEntry board .doing entry

/-- A change of the project's board. -/
def changeBoard (f : Folder → Option Folder) : Option Site :=
  (inFolderAt f w.root (getTasksDir project.path)).map fun root => { w with root }

end

end Clt.Supervisor
