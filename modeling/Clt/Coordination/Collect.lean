import Clt.Coordination.Waits
import Clt.Registry.Schema
import Clt.Files.Rewrite
import Clt.Task.Board

/-!
# Loading a snapshot

A snapshot starts at the outermost board of the folders that a board lies in, and holds the tasks
of every board below it, each board of a task before the task itself. Whether an entry is ready is
asked of the first task with its source and text.
-/

namespace Clt

open Files

/-- `TaskSource` with the whole path. -/
inductive EntrySource where
  | markdownLine (lineIndex : Nat)
  | path (path : List Text) (isDir : Bool)
  deriving DecidableEq, Repr

/-- Where the entry of a list of the board lies. -/
def TaskEntry.sourceIn (store : List Text) (entry : TaskEntry) : EntrySource :=
  match entry.source with
  | .markdownLine lineIndex => .markdownLine lineIndex
  | .path name isDir => .path (store ++ [name]) isDir

/-- A path as it is written. -/
def pathString (path : List Text) : String := String.ofList (path.flatMap fun name => '/' :: name)

/-- A task of the snapshot with the source of its entry. -/
structure LoadedTask where
  task : Task
  source : EntrySource
  deriving DecidableEq

/-- `ARCHIVE_STATUS_CANDIDATES`. -/
def archiveStatusCandidates : List Text := ["archived".toList, "archive".toList]

/-- What the registry says of the sessions of a project. -/
structure CompletionProofs where
  journal : Text → Option GitFinalizationState
  pending : Text → Bool
  gitMode : Text → Option AgentGitMode

/-- What a snapshot is loaded with: the case table of names, the reader of the JSON metadata, the
stamp of a pair of tasks, what the registry says, and the files that Git reports. -/
structure Admission where
  toLowercase : Text → Text
  decode : Text → Except String Metadata
  evidence : Task → Task → String
  proofs : Option CompletionProofs
  changedFiles : List String

/-- `Metadata::default`. -/
def Metadata.default : Metadata :=
  { id := "", dependsOn := [], scope := ⟨"", [], [], [], [], []⟩, reviews := [] }

/-- `metadata::read`; `none` is the panic on a suffix that begins before the prefix has ended. -/
def readMetadata (decode : Text → Except String Metadata) (content : Text) :
    Option (Except String Metadata) :=
  match coordinationSpan content with
  | .error _ => some (.error "Unterminated or duplicate CLT coordination metadata")
  | .ok none => some (.ok .default)
  | .ok (some (start, stop)) =>
    if stop - coordinationSuffix.length < start + coordinationPrefix.length then none
    else some (decode ((content.take (stop - coordinationSuffix.length)).drop
      (start + coordinationPrefix.length)))

namespace Admission

variable (context : Admission)

/-! ## The tasks of a board -/

/-- The task that `collect` pushes for an entry. -/
def loadTask (path : List Text) (status : TaskStatus) (index : Nat) (source : EntrySource)
    (entry : TaskEntry) : Option LoadedTask :=
  (readMetadata context.decode entry.content).map fun metadata =>
    { task := { board := pathString path, status := status, index := index
                content := entry.content
                metadata := match metadata with
                  | .ok metadata => metadata
                  | .error _ => .default
                error := match metadata with
                  | .ok _ => none
                  | .error error => some error
                completionWait := none }
      source := source }

/-- The board of an entry, with its name. -/
def boardOfEntry (board : Folder) (status : TaskStatus) (entry : TaskEntry) :
    Option (Text × Folder) :=
  match entry.source with
  | .path name true =>
    if entry.hasSubtasks then
      ((folderAt board status.dirName).bind (folderAt · name)).map fun children => (name, children)
    else none
  | _ => none

/-- The tasks of the board of an entry. -/
def nestedTasks (collect : List Text → Folder → Option (List LoadedTask)) (path : List Text)
    (board : Folder) (status : TaskStatus) (entry : TaskEntry) : Option (List LoadedTask) :=
  match boardOfEntry board status entry with
  | some (name, children) => collect (path ++ [status.dirName, name]) children
  | none => some []

/-- What an entry adds to the tasks: those of its own board, and its task. -/
def collectEntry (collect : List Text → Folder → Option (List LoadedTask)) (path : List Text)
    (board : Folder) (status : TaskStatus) (numbered : TaskEntry × Nat) :
    Option (List LoadedTask) := do
  let nested ← nestedTasks collect path board status numbered.1
  let task ← context.loadTask path status (numbered.2 + 1)
    (numbered.1.sourceIn (path ++ [status.dirName])) numbered.1
  some (nested ++ [task])

def collectStatus (collect : List Text → Folder → Option (List LoadedTask)) (path : List Text)
    (board : Folder) (status : TaskStatus) : Option (List LoadedTask) := do
  let entries ← readTaskEntries context.toLowercase board status
  let tasks ← entries.zipIdx.mapM (context.collectEntry collect path board status)
  some tasks.flatten

/-- `read_archived_task_entries`, with the name of the store. -/
def readArchivedTaskEntries (board : Folder) : Text × List TaskEntry :=
  let store := archiveStatusCandidates.findSome? fun status =>
    match folderAt board status with
    | some tasks => some (status, readDirectoryEntries context.toLowercase tasks)
    | none => (fileAt board (status ++ ".md".toList)).map fun content =>
      (status, readMarkdownEntries content)
  store.getD ([], [])

/-- The archived tasks that others may name. -/
def collectArchived (path : List Text) (board : Folder) : Option (List LoadedTask) := do
  let (store, entries) := context.readArchivedTaskEntries board
  let tasks ← entries.mapM fun entry =>
    context.loadTask path .done 0 (entry.sourceIn (path ++ [store])) entry
  some ((tasks.filter fun loaded => loaded.task.metadata.id ≠ "").map fun loaded =>
    { loaded with task := { loaded.task with error := none } })

/-- `collect`; out of fuel it fails. -/
def collect : Nat → List Text → Folder → Option (List LoadedTask)
  | 0, _, _ => none
  | fuel + 1, path, board => do
    let tasks ← TaskStatus.all.mapM (context.collectStatus (collect fuel) path board)
    let archived ← context.collectArchived path board
    some (tasks.flatten ++ archived)

/-! ## The snapshot -/

/-- `load_runtime_from_store`: why the completion of a task is not proved. -/
def completionWait (proofs : CompletionProofs) (task : Task) : Option String :=
  match recoverableCodexSessionIdFromTaskContent task.content with
  | none => none
  | some session =>
    if task.status = .done ∧ (task.metadata.id ≠ "" ∨ proofs.pending session = true) then
      match proofs.journal session with
      | some state =>
        if state.isTerminal then none
        else if state = .pushPending then
          some "PUSH-PENDING: waiting for publication proof"
        else some "FINALIZING: waiting for task commit proof"
      | none =>
        if (proofs.gitMode session).any (· != .off) then
          some "missing Git journal: restore the prerequisite's completion proof"
        else none
    else none

/-- The tasks with what the registry says, where it is asked. -/
def loadRuntime (tasks : List LoadedTask) : Option (List LoadedTask) :=
  let needsProof := tasks.any fun loaded =>
    loaded.task.metadata.id ≠ "" || inferredSymbols loaded.task ≠ []
  let linked := tasks.any fun loaded =>
    (recoverableCodexSessionIdFromTaskContent loaded.task.content).isSome
  if needsProof && linked then
    context.proofs.map fun proofs => tasks.map fun loaded =>
      { loaded with
        task := { loaded.task with completionWait := completionWait proofs loaded.task } }
  else some tasks

/-- The outermost folder on the way to the board that has a store. -/
def outermost (root : Folder) (path : List Text) : List Text :=
  ((List.range (path.length + 1)).map path.take).find? (fun outer =>
    (folderAtPath root outer).any boardHasAnyStatusStore) |>.getD path

/-- `Snapshot::admission`: the loaded tasks. -/
def load (root : Folder) (path : List Text) : Option (List LoadedTask) :=
  if (folderAtPath root path).any boardHasAnyStatusStore then do
    let outer := outermost root path
    let board ← folderAtPath root outer
    let tasks ← context.collect (depth board + 1) outer board
    context.loadRuntime tasks
  else some []

/-- The snapshot that the loaded tasks are of. -/
def snapshot (tasks : List LoadedTask) : Snapshot :=
  { tasks := tasks.map LoadedTask.task, changedFiles := context.changedFiles }

/-- The task does not wait. -/
def isAdmitted (tasks : List LoadedTask) (task : Task) : Bool :=
  ((context.snapshot tasks).waits context.evidence task).isEmpty

/-- `task_entry_is_ready`. -/
def taskEntryIsReady (entry : TaskEntry) : Bool :=
  !taskContentIsStopped entry.content && !taskContentIsBlocked entry.content &&
    !taskContentIsManual entry.content

/-- The task that `Snapshot::ready` asks for an entry. -/
def foundTask (tasks : List LoadedTask) (source : EntrySource) (content : Text) :
    Option LoadedTask :=
  tasks.find? fun loaded => loaded.source == source && loaded.task.content == content

/-- `Snapshot::ready`, of an entry in the store. -/
def ready (tasks : List LoadedTask) (store : List Text) (entry : TaskEntry) : Bool :=
  taskEntryIsReady entry &&
    (foundTask tasks (entry.sourceIn store) entry.content).any fun loaded =>
      context.isAdmitted tasks loaded.task

end Admission

end Clt
