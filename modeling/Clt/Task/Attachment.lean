import Clt.Task.BoardWrite
import Clt.Task.Note

/-!
# Attaching the session of a run

While an agent runs, and again when it has ended, its session is linked to the task that it works
on: the one task that is new in Doing, or the one that is newly completed or blocked. The task is
found by what two listings differ in, and found again by its place in the store before it is
written. Reading a board makes the stores that it lacks; those hold no task and are left out here.
-/

namespace Clt

open Files

/-! ## Searching for a session -/

/-- `TaskStatus::SESSION_SEARCH_ORDER`. -/
def TaskStatus.sessionSearchOrder : List TaskStatus := [.doing, .todo, .backlog, .done]

/-- A task of a board or of a board inside it, by the names on the way to that board. -/
structure FoundTask where
  folders : List Text
  status : TaskStatus
  entry : TaskEntry
  deriving DecidableEq

/-- `codex_session_for_task`, or the link at the end of the task only. -/
def linkedSession (recoverDisplacedMarker : Bool) (content : Text) : Option Text :=
  if recoverDisplacedMarker then recoverableCodexSessionIdFromTaskContent content
  else codexSessionIdFromTaskContent content

section Search

variable (toLowercase : Text → Text) (recoverDisplacedMarker : Bool) (sessionId : Text)

/-- `task_for_codex_session_in_board_matching`; `none` is a store that cannot be read. The depth
bounds how many boards lie inside each other. -/
def taskForCodexSession : Nat → Folder → Option (Option FoundTask)
  | 0, _ => some none
  | depth + 1, board =>
    TaskStatus.sessionSearchOrder.findSomeM? fun status => do
      let tasks ← readTaskEntries toLowercase board status
      tasks.findSomeM? fun task =>
        if linkedSession recoverDisplacedMarker task.content = some sessionId then
          some (some ⟨[], status, task⟩)
        else
          match task.hasSubtasks, task.source with
          | true, .path name true =>
            let folders := [status.dirName, name]
            (taskForCodexSession depth ((folderAtPath board folders).getD [])).map <|
              Option.map fun found => { found with folders := folders ++ found.folders }
          | _, _ => some none

/-- `task_for_codex_session_in_board` and `terminal_task_for_codex_session_in_board`. -/
def taskForCodexSessionInBoard (board : Folder) : Option (Option FoundTask) :=
  taskForCodexSession toLowercase recoverDisplacedMarker sessionId (depth board + 1) board

end Search

/-- Do the sources agree? A line of a list is a number, in whatever list it is. -/
def FoundTask.sameSource (found : FoundTask) (status : TaskStatus) (source : TaskSource) : Bool :=
  match found.entry.source, source with
  | .markdownLine i, .markdownLine j => i == j
  | .path name isDir, .path name' isDir' =>
    found.folders == [] && found.status == status && name == name' && isDir == isDir'
  | _, _ => false

/-! ## What two listings differ in -/

/-- The items that are left when each of the others has taken its equal away. -/
def unmatched {α β : Type} [BEq β] (key : α → β) : List β → List α → List α
  | _, [] => []
  | remaining, x :: rest =>
    if remaining.contains (key x) then unmatched key (remaining.erase (key x)) rest
    else x :: unmatched key remaining rest

/-- The only item of a list. -/
def sole {α : Type} : List α → Option α
  | [x] => some x
  | _ => none

/-- `newly_added_task_entry`. -/
def newlyAddedTaskEntry (contentsBefore : List Text) (entriesAfter : List TaskEntry) :
    Option TaskEntry :=
  if entriesAfter.length ≤ contentsBefore.length then none
  else
    let candidates :=
      if entriesAfter.length = contentsBefore.length + 1 then
        (List.range entriesAfter.length).filter fun skipped =>
          (entriesAfter.eraseIdx skipped).map TaskEntry.content == contentsBefore
      else []
    match candidates with
    | [index] => entriesAfter[index]?
    | _ :: _ :: _ => none
    | [] => sole (unmatched TaskEntry.content contentsBefore entriesAfter)

/-- `BlockedTaskSnapshot`. -/
structure BlockedTaskSnapshot where
  status : TaskStatus
  content : Text
  deriving DecidableEq

/-- `AgentTaskSelection`. -/
inductive AgentTaskSelection where
  | nextTodo
  | resumeDoing
  | recoverBlocked
  | resumeSession
  | supervisorReview
  | supervisorRetry
  deriving DecidableEq, Repr

/-! ## The two stages -/

section Stages

variable (toLowercase : Text → Text) (board : Folder)

/-- `attach_codex_session_to_task_after_lock`: the board after it, and the text of the task. -/
def attachCodexSessionToTaskAfterLock (status : TaskStatus) (entry : TaskEntry)
    (sessionId : Text) : Folder × Option Text :=
  let write (current : TaskEntry) : Folder × Option Text :=
    let content := taskContentWithCodexSession current.content sessionId
    match writeTaskEntryContent board status current content with
    | some after => (after, some content)
    | none => (board, none)
  match taskForCodexSessionInBoard toLowercase true sessionId board with
  | none => (board, none)
  | some (some existing) =>
    if existing.sameSource status entry.source = false ∨
        codexSessionIdFromTaskContent existing.entry.content = some sessionId then
      (board, some existing.entry.content)
    else write existing.entry
  | some none =>
    match (readTaskEntries toLowercase board status).bind fun entries =>
      entries.find? fun current => current.source = entry.source with
    | none => (board, none)
    | some current =>
      if current.content ≠ entry.content then (board, none)
      else if (recoverableCodexSessionIdFromTaskContent current.content).any
          fun owner => owner ≠ sessionId then
        (board, none)
      else write current

/-- The task in Doing that the worker of a selection has. -/
def activeTask (taskSelection : AgentTaskSelection) (doingTaskContentsBefore : List Text)
    (blockedTaskSnapshotsBefore : List BlockedTaskSnapshot) (doing : List TaskEntry) :
    Option TaskEntry :=
  let tasks := doing.filter fun task => !taskContentIsManual task.content
  let before := doingTaskContentsBefore.filter fun content => !taskContentIsManual content
  let newlyStarted := newlyAddedTaskEntry before tasks
  match taskSelection with
  | .nextTodo => newlyStarted
  | .resumeDoing => sole tasks
  | .recoverBlocked =>
    newlyStarted.or <|
      match blockedTaskSnapshotsBefore with
      | [snapshot] =>
        if snapshot.status = .doing then
          sole (tasks.filter fun task => snapshot.content == Text.trimEnd task.content &&
            (recoverableCodexSessionIdFromTaskContent task.content).isNone)
        else none
      | _ => none
  | .resumeSession | .supervisorReview | .supervisorRetry => none

/-- `attach_codex_session_to_active_task`: the board after it, and whether the session is
attached. -/
def attachCodexSessionToActiveTask (taskSelection : AgentTaskSelection)
    (doingTaskContentsBefore : List Text)
    (blockedTaskSnapshotsBefore : List BlockedTaskSnapshot) (sessionId : Text)
    (selectedTaskIdentity : Option Text) : Folder × Option Bool :=
  if taskSelection = .supervisorReview then (board, some true)
  else
    match taskForCodexSessionInBoard toLowercase true sessionId board with
    | none => (board, none)
    | some (some _) => (board, some true)
    | some none =>
      match readTaskEntries toLowercase board .doing with
      | none => (board, none)
      | some doing =>
        match activeTask taskSelection doingTaskContentsBefore blockedTaskSnapshotsBefore
            doing with
        | none => (board, some false)
        | some task =>
          if (recoverableCodexSessionIdFromTaskContent task.content).any
                (fun owner => owner ≠ sessionId) ∨
              selectedTaskIdentity.any (fun identity =>
                durableTaskIdentity task.content ≠ some identity) then
            (board, some false)
          else
            let attached :=
              attachCodexSessionToTaskAfterLock toLowercase board .doing task sessionId
            (attached.1, attached.2.map fun _ => true)

/-- `newly_completed_task`. -/
def newlyCompletedTask (contentsBefore : List Text) : Option (Option TaskEntry) := do
  let entriesAfter ← readTaskEntries toLowercase board .done
  return newlyAddedTaskEntry (contentsBefore.filter fun content => !taskContentIsManual content)
    (entriesAfter.filter fun task => !taskContentIsManual task.content)

/-- `blocked_tasks`. -/
def blockedTasks : Option (List (TaskStatus × TaskEntry)) := do
  let todo ← readTaskEntries toLowercase board .todo
  let doing ← readTaskEntries toLowercase board .doing
  let blocked (entry : TaskEntry) : Bool := taskContentIsBlocked entry.content &&
    !taskContentIsStopped entry.content && !taskContentIsManual entry.content
  return (todo.filter blocked).map (Prod.mk .todo) ++ (doing.filter blocked).map (Prod.mk .doing)

/-- `blocked_task_after_run`. -/
def blockedTaskAfterRun (snapshotsBefore : List BlockedTaskSnapshot)
    (allowUnchangedSingleTask : Bool) : Option (Option (TaskStatus × TaskEntry)) := do
  let tasksAfter ← blockedTasks toLowercase board
  let changedTasks := unmatched (fun (task : TaskStatus × TaskEntry) =>
    (⟨task.1, Text.trimEnd task.2.content⟩ : BlockedTaskSnapshot)) snapshotsBefore tasksAfter
  return (sole changedTasks).or (if allowUnchangedSingleTask then sole tasksAfter else none)

/-- What `link_agent_session_after_run_stage` knows of the run. -/
structure AgentRunJob where
  taskSelection : AgentTaskSelection
  doneTaskContentsBefore : List Text
  blockedTaskSnapshotsBefore : List BlockedTaskSnapshot

/-- `AgentSessionLinkResult`. -/
inductive AgentSessionLinkResult where
  | alreadyLinked
  | exactResumePreserved
  | attached
  | noEligibleTask
  deriving DecidableEq, Repr

/-- The one task that the run completed or left blocked. -/
def finishedTask (job : AgentRunJob) : Option (Option (TaskStatus × TaskEntry)) := do
  let completed ← newlyCompletedTask toLowercase board job.doneTaskContentsBefore
  let blocked ← blockedTaskAfterRun toLowercase board job.blockedTaskSnapshotsBefore
    (completed.isNone && job.taskSelection ≠ .nextTodo)
  return match completed, blocked with
    | some task, none => some (.done, task)
    | none, some task => some task
    | _, _ => none

/-- `link_agent_session_after_run_stage`: the board after it, and what it reports. -/
def linkAgentSessionAfterRunStage (job : AgentRunJob) (sessionId : Text) (runStatus : String) :
    Folder × Option AgentSessionLinkResult :=
  if job.taskSelection = .supervisorReview then (board, some .exactResumePreserved)
  else
    match taskForCodexSessionInBoard toLowercase false sessionId board with
    | none => (board, none)
    | some (some _) => (board, some .alreadyLinked)
    | some none =>
      if job.taskSelection = .resumeSession then
        match taskForCodexSessionInBoard toLowercase true sessionId board with
        | some (some _) => (board, some .exactResumePreserved)
        | _ => (board, none)
      else
        match finishedTask toLowercase board job with
        | none => (board, none)
        | some (some (status, entry)) =>
          let attached :=
            attachCodexSessionToTaskAfterLock toLowercase board status entry sessionId
          (attached.1, attached.2.map fun _ => .attached)
        | some none =>
          if ["success", "blocked", "stopped", "handoff"].contains runStatus then (board, none)
          else (board, some .noEligibleTask)

end Stages

end Clt
