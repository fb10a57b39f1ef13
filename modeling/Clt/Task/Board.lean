import Mathlib.Algebra.Ring.Nat
import Mathlib.Data.Char
import Mathlib.Data.Prod.Lex
import Mathlib.Data.List.Lex
import Clt.Files.Tree
import Clt.Listing.SortByKey
import Clt.Task.Content
import Clt.Task.Status

/-!
# Reading a task board

A board is a folder with a store for each status: a folder of tasks, or a Markdown file with
a task on each line that begins with a dash. A task that is a folder has its text in a
write-up, and may hold a board of its own.
-/

namespace Clt

open Files

/-- `TASK_DETAIL_FILES`. -/
def taskDetailFiles : List Text := ["task.md".toList, "README.md".toList, "index.md".toList]

/-- The name of the folder of a status. -/
def TaskStatus.dirName (status : TaskStatus) : Text := status.asStr.toList

/-- `TaskStatus::filename`. -/
def TaskStatus.filename : TaskStatus → Text
  | todo => "todo.md".toList
  | doing => "doing.md".toList
  | done => "done.md".toList
  | backlog => "backlog.md".toList

/-- `TaskStatus::header`. -/
def TaskStatus.header : TaskStatus → Text
  | todo => "# To Do Tasks\n".toList
  | doing => "# Doing Tasks\n".toList
  | done => "# Done Tasks\n".toList
  | backlog => "# Backlog Tasks\n".toList

/-! ## Names -/

/-- The number that decimal digits spell. -/
def digitsNumber (digits : Text) : Nat := digits.foldl (fun n c => 10 * n + (c.toNat - '0'.toNat)) 0

/-- `front_order_rank`: the rank of a name that was put in front without renaming the others.
The twenty digits have to fit 64 bits. -/
def frontOrderRank (name : Text) : Option Nat :=
  let digits := (name.drop 5).take 20
  if 26 < name.length ∧ "0000-".toList <+: name ∧ digits.all Char.isDigit ∧
      (name.drop 25).head? = some '-' ∧ digitsNumber digits < 2 ^ 64 then
    some (digitsNumber digits)
  else none

/-- `strip_order_prefix`. -/
def stripOrderPrefix (name : Text) : Text :=
  if (frontOrderRank name).isSome then name.drop 26
  else if 5 < name.length ∧ (name.take 4).all Char.isDigit ∧ (name.drop 4).head? = some '-' then
    name.drop 5
  else name

/-- `Path::file_stem` of a name: without what follows its last dot, unless the dot comes first. -/
def fileStem (name : Text) : Option Text :=
  if name = [] ∨ name = ['.'] ∨ name = ['.', '.'] then none
  else
    let before := ((name.reverse.dropWhile (· ≠ '.')).drop 1).reverse
    if before = [] then some name else some before

/-- `title_from_path`. -/
def titleFromPath (name : Text) : Text :=
  let name := stripOrderPrefix name
  let title := ((fileStem name).getD name).map fun c => if c = '-' ∨ c = '_' then ' ' else c
  if Text.trim title = [] then "task".toList else title

/-! ## Stores -/

/-- `status_store_exists`. -/
def statusStoreExists (board : Folder) (status : TaskStatus) : Bool :=
  (folderAt board status.dirName).isSome || (fileAt board status.filename).isSome

/-- `board_has_any_status_store`. -/
def boardHasAnyStatusStore (board : Folder) : Bool := TaskStatus.all.any (statusStoreExists board)

/-- One pass of the loop of `ensure_board_store`. A file in the way of a folder is an error. -/
def ensureStatusStore (directoryMode : Bool) (board : Folder) (status : TaskStatus) :
    Option Folder :=
  if (folderAt board status.dirName).isSome || (node? board status.filename).isSome then some board
  else if directoryMode then
    if (node? board status.dirName).isSome then none
    else some (board ++ [(status.dirName, .folder [])])
  else some (board ++ [(status.filename, .file status.header)])

/-- `ensure_board_store`. -/
def ensureBoardStore (board : Folder) : Option Folder :=
  let directoryMode := TaskStatus.all.any fun status => (folderAt board status.dirName).isSome
  TaskStatus.all.foldlM (ensureStatusStore directoryMode) board

/-- `StatusStore`, with what is found at its path. -/
inductive StatusStore where
  | markdownFile (node : Option Node)
  | directory (tasks : Folder)

/-- `get_status_store`. -/
def getStatusStore (board : Folder) (status : TaskStatus) : Option StatusStore := do
  let board ← ensureBoardStore board
  match folderAt board status.dirName with
  | some tasks => some (.directory tasks)
  | none => some (.markdownFile (node? board status.filename))

/-! ## Entries -/

/-- `TaskSource`; a path is given by the name below the store. -/
inductive TaskSource where
  | markdownLine (lineIndex : Nat)
  | path (name : Text) (isDir : Bool)
  deriving DecidableEq, Repr

/-- `TaskEntry`. -/
structure TaskEntry where
  source : TaskSource
  content : Text
  hasSubtasks : Bool
  deriving DecidableEq, Repr

/-- `read_markdown_entries`. -/
def readMarkdownEntries (content : Text) : List TaskEntry :=
  (Text.lines content).zipIdx.filterMap fun (line, lineIndex) =>
    (stripPrefix "- ".toList line).map fun taskText =>
      { source := .markdownLine lineIndex, content := taskText, hasSubtasks := false }

/-- The listing key of `directory_task_paths`. Completions that were put in front come first. -/
def listingKey (toLowercase : Text → Text) (task : Text × Node) : Bool ×ₗ Text :=
  let name := toLowercase task.1
  toLex ((frontOrderRank name).isNone, name)

/-- A name that `directory_task_paths` skips. -/
def isHidden (name : Text) : Bool := name.head? == some '.'

/-- `directory_task_paths`. -/
def directoryTaskPaths (toLowercase : Text → Text) (tasks : Folder) : Folder :=
  Listing.sortByKey (listingKey toLowercase) (tasks.filter fun task => !isHidden task.1)

/-- `read_directory_task_content`: the first write-up that can be read. -/
def readDirectoryTaskContent (task : Folder) : Option Text := taskDetailFiles.findSome? (fileAt task)

/-- The entry of one path in `read_directory_entries`. -/
def directoryEntry (task : Text × Node) : TaskEntry :=
  match task.2 with
  | .file content =>
    { source := .path task.1 false, content := content, hasSubtasks := false }
  | .folder children =>
    { source := .path task.1 true
      content := (readDirectoryTaskContent children).getD (titleFromPath task.1)
      hasSubtasks := boardHasAnyStatusStore children }

/-- `read_directory_entries`. -/
def readDirectoryEntries (toLowercase : Text → Text) (tasks : Folder) : List TaskEntry :=
  (directoryTaskPaths toLowercase tasks).map directoryEntry

/-- `read_task_entries`. -/
def readTaskEntries (toLowercase : Text → Text) (board : Folder) (status : TaskStatus) :
    Option (List TaskEntry) := do
  match ← getStatusStore board status with
  | .directory tasks => some (readDirectoryEntries toLowercase tasks)
  | .markdownFile (some (.file content)) => some (readMarkdownEntries content)
  | .markdownFile _ => none

/-! ## What is read -/

theorem filename_eq (status : TaskStatus) : status.filename = status.dirName ++ ".md".toList := by
  cases status <;> rfl

/-- What a board has in the two places of a status. -/
def storeNodes (board : Folder) (status : TaskStatus) : Option Node × Option Node :=
  (node? board status.dirName, node? board status.filename)

/-- The two places after `ensure_board_store`, with a file in the way of a folder as `none`. -/
def ensuredNodes (directoryMode : Bool) (status : TaskStatus) :
    Option Node × Option Node → Option (Option Node × Option Node)
  | (some (.folder tasks), file) => some (some (.folder tasks), file)
  | (dir, some file) => some (dir, some file)
  | (some (.file content), none) =>
    if directoryMode then none else some (some (.file content), some (.file status.header))
  | (none, none) =>
    if directoryMode then some (some (.folder []), none) else some (none, some (.file status.header))

theorem node?_append (board : Folder) (name added : Text) (node : Node) :
    node? (board ++ [(added, node)]) name =
      (node? board name).or (if added = name then some node else none) := by
  rw [node?, node?, List.find?_append]
  by_cases h : added = name
  · rw [if_pos h]
    cases hfound : board.find? fun c => c.1 == name <;> simp [h]
  · rw [if_neg h]
    cases hfound : board.find? fun c => c.1 == name <;> simp [h]

theorem names_ne {a b : TaskStatus} (h : a ≠ b) :
    a.dirName ≠ b.dirName ∧ a.dirName ≠ b.filename ∧ a.filename ≠ b.dirName ∧
      a.filename ≠ b.filename := by
  cases a <;> cases b <;> first | exact absurd rfl h | decide

theorem dirName_ne_filename (status : TaskStatus) : status.dirName ≠ status.filename := by
  cases status <;> decide

variable {directoryMode : Bool} {board board' : Folder} {status : TaskStatus}

/-- A pass changes the places of its own status only. -/
theorem storeNodes_append {name : Text} {node : Node}
    (hname : name = status.dirName ∨ name = status.filename) :
    ∀ other ≠ status, storeNodes (board ++ [(name, node)]) other = storeNodes board other := by
  intro other hother
  have hne := names_ne hother
  have hdir : name ≠ other.dirName := by rcases hname with rfl | rfl <;> simp [Ne.symm, hne]
  have hfile : name ≠ other.filename := by rcases hname with rfl | rfl <;> simp [Ne.symm, hne]
  simp [storeNodes, node?_append, hdir, hfile]

theorem ensureStatusStore_cases (directoryMode : Bool) (board : Folder) (status : TaskStatus) :
    ensuredNodes directoryMode status (storeNodes board status) = none ∧
        ensureStatusStore directoryMode board status = none ∨
      ∃ board', ensureStatusStore directoryMode board status = some board' ∧
        ensuredNodes directoryMode status (storeNodes board status) =
          some (storeNodes board' status) ∧
        ∀ other ≠ status, storeNodes board' other = storeNodes board other := by
  have hne := dirName_ne_filename status
  cases hfile : node? board status.filename with
  | some file =>
    -- There is a file already, or a folder in its place.
    refine .inr ⟨board, by simp [ensureStatusStore, hfile], ?_, fun _ _ => rfl⟩
    unfold storeNodes
    rw [hfile]
    rcases node? board status.dirName with _ | _ | tasks <;> rfl
  | none =>
    rcases hdir : node? board status.dirName with _ | content | tasks
    · cases directoryMode with
      | true =>
        refine .inr ⟨board ++ [(status.dirName, .folder [])], ?_, ?_, storeNodes_append (.inl rfl)⟩
        · simp [ensureStatusStore, folderAt, hdir, hfile]
        · simp [storeNodes, node?_append, hdir, hfile, ensuredNodes, hne]
      | false =>
        refine .inr ⟨board ++ [(status.filename, .file status.header)], ?_, ?_,
          storeNodes_append (.inr rfl)⟩
        · simp [ensureStatusStore, folderAt, hdir, hfile]
        · simp [storeNodes, node?_append, hdir, hfile, ensuredNodes, hne.symm]
    · cases directoryMode with
      | true =>
        refine .inl ⟨?_, ?_⟩
        · simp [storeNodes, hdir, hfile, ensuredNodes]
        · simp [ensureStatusStore, folderAt, hdir, hfile]
      | false =>
        refine .inr ⟨board ++ [(status.filename, .file status.header)], ?_, ?_,
          storeNodes_append (.inr rfl)⟩
        · simp [ensureStatusStore, folderAt, hdir, hfile]
        · simp [storeNodes, node?_append, hdir, hfile, ensuredNodes]
    · refine .inr ⟨board, by simp [ensureStatusStore, folderAt, hdir], ?_, fun _ _ => rfl⟩
      simp [storeNodes, hdir, hfile, ensuredNodes]

/-- The loop stops at the first status that it cannot give a store. -/
theorem foldlM_ensureStatusStore (directoryMode : Bool) (board : Folder)
    {statuses : List TaskStatus} (hnodup : statuses.Nodup) :
    (∃ status ∈ statuses, ensuredNodes directoryMode status (storeNodes board status) = none) ∧
        statuses.foldlM (ensureStatusStore directoryMode) board = none ∨
      ∃ board', statuses.foldlM (ensureStatusStore directoryMode) board = some board' ∧
        (∀ status ∈ statuses, ensuredNodes directoryMode status (storeNodes board status) =
          some (storeNodes board' status)) ∧
        ∀ status ∉ statuses, storeNodes board' status = storeNodes board status := by
  induction statuses generalizing board with
  | nil => exact .inr ⟨board, rfl, nofun, fun _ _ => rfl⟩
  | cons status rest ih =>
    obtain ⟨hnot, hrest⟩ := List.nodup_cons.mp hnodup
    rcases ensureStatusStore_cases directoryMode board status with
      ⟨hnone, hstep⟩ | ⟨next, hstep, hown, hothers⟩
    · refine .inl ⟨⟨status, List.mem_cons_self, hnone⟩, ?_⟩
      rw [List.foldlM_cons, hstep]
      rfl
    · have hfold : (status :: rest).foldlM (ensureStatusStore directoryMode) board =
          rest.foldlM (ensureStatusStore directoryMode) next := by
        rw [List.foldlM_cons, hstep]
        rfl
      rw [hfold]
      have hne : ∀ other ∈ rest, other ≠ status := fun other h heq => hnot (heq ▸ h)
      rcases ih next hrest with ⟨⟨other, hother, hnone⟩, hstop⟩ |
          ⟨board', hdone, hensured, hsame⟩
      · refine .inl ⟨⟨other, List.mem_cons_of_mem _ hother, ?_⟩, hstop⟩
        rw [← hothers other (hne other hother)]
        exact hnone
      · refine .inr ⟨board', hdone, ?_, ?_⟩
        · intro other hother
          rcases List.mem_cons.mp hother with rfl | hother
          · rw [hsame other hnot]
            exact hown
          · rw [← hothers other (hne other hother)]
            exact hensured other hother
        · intro other hother
          rw [hsame other fun h => hother (List.mem_cons_of_mem _ h)]
          exact hothers other fun h => hother (h ▸ List.mem_cons_self)

@[simp] theorem TaskStatus.mem_all (status : TaskStatus) : status ∈ TaskStatus.all := by
  cases status <;> decide

/-- Is there a status folder? Then `ensure_board_store` makes folders. -/
def isDirectoryMode (board : Folder) : Bool :=
  TaskStatus.all.any fun status => (folderAt board status.dirName).isSome

/-- After `ensure_board_store` each status has what its places are to have. -/
theorem ensureBoardStore_cases (board : Folder) :
    (∃ status, ensuredNodes (isDirectoryMode board) status (storeNodes board status) = none) ∧
        ensureBoardStore board = none ∨
      ∃ board', ensureBoardStore board = some board' ∧ ∀ status,
        ensuredNodes (isDirectoryMode board) status (storeNodes board status) =
          some (storeNodes board' status) := by
  have hnodup : TaskStatus.all.Nodup := by decide
  rcases foldlM_ensureStatusStore (isDirectoryMode board) board hnodup with
    ⟨⟨status, -, hnone⟩, hstop⟩ | ⟨board', hdone, hensured, -⟩
  · exact .inl ⟨⟨status, hnone⟩, hstop⟩
  · exact .inr ⟨board', hdone, fun status => hensured status status.mem_all⟩

/-- What there is of a status: its tasks, its Markdown list, or nothing. -/
inductive StoreContent where
  | tasks (tasks : Folder)
  | list (text : Text)
  | nothing

/-- What a board has of a status. A folder goes before a file. -/
def storeContent (board : Folder) (status : TaskStatus) : StoreContent :=
  match folderAt board status.dirName, fileAt board status.filename with
  | some tasks, _ => .tasks tasks
  | none, some text => .list text
  | none, none => .nothing

/-- Can the store in these places not be read? There is a folder in place of the Markdown
file, or a file in the way of the folder that is to be made. -/
def blockedNodes (directoryMode : Bool) : Option Node × Option Node → Bool
  | (some (.folder _), _) => false
  | (_, some (.folder _)) => true
  | (some (.file _), none) => directoryMode
  | _ => false

/-- A board with a store that cannot be read. -/
def Blocked (board : Folder) : Prop :=
  ∃ status, blockedNodes (isDirectoryMode board) (storeNodes board status) = true

theorem readMarkdownEntries_header (status : TaskStatus) :
    readMarkdownEntries status.header = [] := by
  cases status <;> rfl

/-- The tasks of a list are the lines that begin with a dash. -/
theorem content_readMarkdownEntries (text : Text) :
    (readMarkdownEntries text).map TaskEntry.content =
      (Text.lines text).filterMap (stripPrefix "- ".toList) := by
  rw [readMarkdownEntries, List.map_filterMap]
  conv_rhs => rw [← List.zipIdx_map_fst 0 (Text.lines text), List.filterMap_map]
  refine List.filterMap_congr fun item _ => ?_
  rw [Option.map_map]
  exact Option.map_id'

section Reading

variable {toLowercase : Text → Text} {nodes : Option Node × Option Node}

/-- What `read_task_entries` makes of the places of a status. -/
def readNodes (toLowercase : Text → Text) : Option Node × Option Node → Option (List TaskEntry)
  | (some (.folder tasks), _) => some (readDirectoryEntries toLowercase tasks)
  | (_, some (.file content)) => some (readMarkdownEntries content)
  | _ => none

/-- The entries that are there already. -/
def nodesEntries (toLowercase : Text → Text) : Option Node × Option Node → List TaskEntry
  | (some (.folder tasks), _) => readDirectoryEntries toLowercase tasks
  | (_, some (.file content)) => readMarkdownEntries content
  | _ => []

theorem readNodes_blocked (status : TaskStatus) (toLowercase : Text → Text)
    (h : blockedNodes directoryMode nodes = true) :
    (ensuredNodes directoryMode status nodes).bind (readNodes toLowercase) = none := by
  rcases nodes with ⟨_ | content | tasks, _ | content' | children⟩ <;> cases directoryMode <;>
    simp_all [blockedNodes, ensuredNodes, readNodes]

/-- The stores that are made are empty. -/
theorem readNodes_free (status : TaskStatus) (toLowercase : Text → Text)
    (h : blockedNodes directoryMode nodes = false) :
    (ensuredNodes directoryMode status nodes).bind (readNodes toLowercase) =
      some (nodesEntries toLowercase nodes) := by
  have hempty : readDirectoryEntries toLowercase [] = [] := rfl
  have hheader := readMarkdownEntries_header status
  rcases nodes with ⟨_ | content | tasks, _ | content' | children⟩ <;> cases directoryMode <;>
    simp_all [blockedNodes, ensuredNodes, readNodes, nodesEntries]

theorem readTaskEntries_of_some (h : ensureBoardStore board = some board') :
    readTaskEntries toLowercase board status = readNodes toLowercase (storeNodes board' status) := by
  unfold readTaskEntries getStatusStore storeNodes folderAt
  rw [h]
  rcases hdir : node? board' status.dirName with _ | content | tasks <;>
    rcases hfile : node? board' status.filename with _ | content' | children <;>
      simp [hdir, hfile, readNodes]

/-- Reading fails for a board that is blocked. -/
theorem exists_readTaskEntries_eq_none (h : Blocked board) :
    ∃ status, readTaskEntries toLowercase board status = none := by
  obtain ⟨status, hblocked⟩ := h
  refine ⟨status, ?_⟩
  rcases ensureBoardStore_cases board with ⟨-, hnone⟩ | ⟨board', hdone, hensured⟩
  · simp [readTaskEntries, getStatusStore, hnone]
  · have hread := readNodes_blocked status toLowercase hblocked
    rw [hensured status] at hread
    rw [readTaskEntries_of_some hdone]
    exact hread

/-- The entries of what there is of a status. -/
def storeEntries (toLowercase : Text → Text) : StoreContent → List TaskEntry
  | .tasks tasks => readDirectoryEntries toLowercase tasks
  | .list text => readMarkdownEntries text
  | .nothing => []

theorem nodesEntries_storeNodes :
    nodesEntries toLowercase (storeNodes board status) =
      storeEntries toLowercase (storeContent board status) := by
  unfold storeNodes storeContent folderAt fileAt
  rcases node? board status.dirName with _ | content | tasks <;>
    rcases node? board status.filename with _ | text | children <;> rfl

/-- Reading finds the entries of every store of any other board. -/
theorem readTaskEntries_eq_some (h : ¬ Blocked board) :
    readTaskEntries toLowercase board status =
      some (storeEntries toLowercase (storeContent board status)) := by
  rw [← nodesEntries_storeNodes]
  have hfree : ∀ status, blockedNodes (isDirectoryMode board) (storeNodes board status) = false :=
    fun status => Bool.eq_false_iff.mpr fun hblocked => h ⟨status, hblocked⟩
  rcases ensureBoardStore_cases board with ⟨⟨other, hnone⟩, -⟩ | ⟨board', hdone, hensured⟩
  · have hread := readNodes_free other toLowercase (hfree other)
    rw [hnone] at hread
    cases hread
  · have hread := readNodes_free status toLowercase (hfree status)
    rw [hensured status] at hread
    rw [readTaskEntries_of_some hdone]
    exact hread

end Reading

end Clt
