import Clt.Task.Board

/-!
# Reading a task board from a Git tree

The completion of a task is proved from the committed board, which is read from the paths
of a Git tree: there are no folders in it, only files whose paths go through them.
-/

namespace Clt

open Files

/-- `GitTaskProofEntry`. -/
structure GitTaskProofEntry where
  status : Text
  content : Text
  deriving DecidableEq, Repr

/-- A record of `git ls-tree -r`, with the content of its object. -/
structure GitTreeEntry where
  mode : Text
  objectType : Text
  path : Text
  content : Text
  deriving DecidableEq, Repr

/-- A regular file, which `git_ref_task_entries` keeps. -/
def GitTreeEntry.isRegular (entry : GitTreeEntry) : Bool :=
  "100".toList.isPrefixOf entry.mode && entry.objectType == "blob".toList

/-- The results of all items in turn, or the first failure. -/
def collectAll {α β : Type} (f : α → Option (List β)) : List α → Option (List β)
  | [] => some []
  | a :: rest => do
    let found ← f a
    let others ← collectAll f rest
    some (found ++ others)

/-- `git_tree_has_directory`. -/
def gitTreeHasDirectory (paths : List Text) (directory : Text) : Bool := paths.any (below directory)

/-- `git_tree_board_has_any_status_store`. -/
def gitTreeBoardHasAnyStatusStore (paths : List Text) (boardDir : Text) : Bool :=
  TaskStatus.all.any fun status =>
    paths.any (fun path => path == boardDir ++ '/' :: status.dirName ++ ".md".toList) ||
      gitTreeHasDirectory paths (boardDir ++ '/' :: status.dirName)

/-- `git_ref_blob_content`, with the trim of `git_stdout`. -/
def gitRefBlobContent (tree : List GitTreeEntry) (path : Text) : Option Text :=
  (tree.find? fun entry => entry.path == path).map fun entry => Text.trim entry.content

/-- The entry of a map, or a new one, takes note of a folder. -/
def noteChild (children : List (Text × Bool)) (child : Text) (isDirectory : Bool) :
    List (Text × Bool) :=
  if children.any fun known => known.1 == child then
    children.map fun known => if known.1 == child then (known.1, known.2 || isDirectory) else known
  else children ++ [(child, isDirectory)]

/-- The child of a store that a path goes to or through. -/
def childOf (statusDir path : Text) : Text × Bool :=
  let remainder := path.drop (statusDir.length + 1)
  let child := remainder.takeWhile (· ≠ '/')
  (child, child.length < remainder.length)

/-- One pass of the loop over the paths below a store. -/
def notePath (statusDir : Text) (children : List (Text × Bool)) (path : Text) :
    List (Text × Bool) :=
  let child := childOf statusDir path
  if child.1.isEmpty || isHidden child.1 then children else noteChild children child.1 child.2

/-- The children of a store, in the order of their names. -/
def gitTreeChildren (paths : List Text) (statusDir : Text) : List (Text × Bool) :=
  Listing.sortByKey Prod.fst ((paths.filter (below statusDir)).foldl (notePath statusDir) [])

/-- The text of a child of a store. -/
def gitTreeTaskContent (tree : List GitTreeEntry) (paths : List Text) (taskPath child : Text)
    (isDirectory : Bool) : Option Text :=
  if isDirectory then
    match (taskDetailFiles.map fun detail => taskPath ++ '/' :: detail).find? fun detailPath =>
        paths.any fun path => path == detailPath with
    | some detailPath => gitRefBlobContent tree detailPath
    | none => some (titleFromPath child)
  else gitRefBlobContent tree taskPath

/-- `collect_git_ref_board_task_entries`; the fuel bounds how deep boards lie inside boards. -/
def collectGitRefBoardTaskEntries (tree : List GitTreeEntry) (paths : List Text) :
    Nat → Text → Option (List GitTaskProofEntry)
  | 0, _ => none
  | fuel + 1, boardDir =>
    collectAll (fun status =>
      let statusDir := boardDir ++ '/' :: status.dirName
      if gitTreeHasDirectory paths statusDir then
        collectAll (fun (child, isDirectory) => do
          let taskPath := statusDir ++ '/' :: child
          let content ← gitTreeTaskContent tree paths taskPath child isDirectory
          let nested ←
            if isDirectory && gitTreeBoardHasAnyStatusStore paths taskPath then
              collectGitRefBoardTaskEntries tree paths fuel taskPath
            else some []
          some ({ status := status.dirName, content := content } :: nested))
          (gitTreeChildren paths statusDir)
      else
        let markdownPath := boardDir ++ '/' :: status.dirName ++ ".md".toList
        if paths.any fun path => path == markdownPath then do
          let content ← gitRefBlobContent tree markdownPath
          some ((Text.lines content).filterMap fun line =>
            (stripPrefix "- ".toList line).map fun content =>
              { status := status.dirName, content := content })
        else some []) TaskStatus.all

/-- `git_ref_task_entries`. -/
def gitRefTaskEntries (tree : List GitTreeEntry) : Option (List GitTaskProofEntry) :=
  let paths := (tree.filter GitTreeEntry.isRegular).map GitTreeEntry.path
  let longest := (paths.map List.length).foldr max 0
  collectGitRefBoardTaskEntries tree paths (longest + 1) "tasks".toList

/-! ## Reading the worktree -/

/-- One pass of the loop over the entries of a status, with the reader of a board inside a
task. -/
def collectTaskEntry (collect : Folder → Option (List GitTaskProofEntry)) (status : TaskStatus)
    (tasks : Folder) (entry : TaskEntry) : Option (List GitTaskProofEntry) := do
  let nested ←
    match entry.hasSubtasks, entry.source with
    | true, .path name true => (folderAt tasks name).bind collect
    | _, _ => some []
  some (nested ++ [{ status := status.dirName, content := entry.content }])

/-- The entries of a board and of the boards inside its tasks, read as
`collect_task_identity_entries` reads them. -/
def collectTaskEntries (toLowercase : Text → Text) : Nat → Folder → Option (List GitTaskProofEntry)
  | 0, _ => none
  | fuel + 1, board =>
    collectAll (fun status => do
      let entries ← readTaskEntries toLowercase board status
      let tasks := (folderAt board status.dirName).getD []
      collectAll (collectTaskEntry (collectTaskEntries toLowercase fuel) status tasks) entries)
      TaskStatus.all

/-- The entries of a worktree. -/
def worktreeTaskEntries (toLowercase : Text → Text) (board : Folder) :
    Option (List GitTaskProofEntry) :=
  collectTaskEntries toLowercase (depth board + 1) board

end Clt
