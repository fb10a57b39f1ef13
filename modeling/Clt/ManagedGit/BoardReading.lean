import Clt.ManagedGit.TreeEntries
import Clt.Text.Trim

/-!
# One board, two readers

The worktree and the Git tree hold the same boards, tasks and Markdown lists (`boardItems`),
and the two readers agree on the tasks. On a list they part where it begins with an indented
entry or ends in an empty one, because the Git reader trims the whole file before it looks
for the lines of tasks.
-/

namespace Clt

open Files

/-! ## Collecting -/

/-- The result is there, with these entries in some order. -/
def Collects {β : Type} (result : Option (List β)) (entries : List β) : Prop :=
  ∃ found, result = some found ∧ found.Perm entries

section Collecting

variable {α β γ : Type} {f : α → Option (List β)} {l l' : List α}

theorem collects_some (entries : List β) : Collects (some entries) entries := ⟨entries, rfl, .refl _⟩

theorem collectAll_collects {g : α → List β} (h : ∀ a ∈ l, Collects (f a) (g a)) :
    Collects (collectAll f l) (l.flatMap g) := by
  induction l with
  | nil => exact collects_some []
  | cons a rest ih =>
    obtain ⟨found, hfound, hperm⟩ := h a List.mem_cons_self
    obtain ⟨others, hothers, hpermOthers⟩ := ih fun b hb => h b (List.mem_cons_of_mem a hb)
    exact ⟨found ++ others, by simp [collectAll, hfound, hothers], hperm.append hpermOthers⟩

/-- In another order the same entries are collected. -/
theorem collectAll_perm {entries : List β} (hl : l.Perm l') (h : Collects (collectAll f l') entries) :
    Collects (collectAll f l) entries := by
  obtain ⟨found', hfound', hperm'⟩ := h
  suffices hfound : ∃ found, collectAll f l = some found ∧ found.Perm found' by
    obtain ⟨found, hfound, hperm⟩ := hfound
    exact ⟨found, hfound, hperm.trans hperm'⟩
  clear hperm'
  induction hl generalizing found' with
  | nil => exact ⟨found', hfound', .refl _⟩
  | cons a hl ih =>
    rw [collectAll] at hfound' ⊢
    obtain ⟨here, hhere, hrest⟩ := Option.bind_eq_some_iff.mp hfound'
    obtain ⟨others', hothers', hsum⟩ := Option.bind_eq_some_iff.mp hrest
    obtain ⟨others, hothers, hperm⟩ := ih others' hothers'
    obtain rfl := Option.some.inj hsum
    exact ⟨here ++ others, by simp [hhere, hothers], hperm.append_left here⟩
  | swap a b l =>
    unfold collectAll collectAll at hfound' ⊢
    cases ha : f a with
    | none => simp [ha] at hfound'
    | some x =>
      cases hb : f b with
      | none => simp [hb] at hfound'
      | some y =>
        cases hrest : collectAll f l with
        | none => simp [ha, hb, hrest] at hfound'
        | some z =>
          rw [ha, hb, hrest] at hfound'
          have hsum : x ++ (y ++ z) = found' := Option.some.inj hfound'
          refine ⟨y ++ (x ++ z), rfl, ?_⟩
          rw [← hsum, ← List.append_assoc, ← List.append_assoc]
          exact List.perm_append_comm.append_right z
  | trans hl hl' ih ih' =>
    obtain ⟨middle, hmiddle, hperm'⟩ := ih' found' hfound'
    obtain ⟨found, hfound, hperm⟩ := ih middle hmiddle
    exact ⟨found, hfound, hperm.trans hperm'⟩

theorem collectAll_map (e : γ → α) (l : List γ) :
    collectAll f (l.map e) = collectAll (fun c => f (e c)) l := by
  induction l with
  | nil => rfl
  | cons c l ih => rw [List.map_cons, collectAll, collectAll, ih]

theorem collectAll_eq_none {a : α} (ha : a ∈ l) (h : f a = none) : collectAll f l = none := by
  induction l with
  | nil => cases ha
  | cons b rest ih =>
    rcases List.mem_cons.mp ha with rfl | ha
    · rw [collectAll, h]
      rfl
    · rw [collectAll, ih ha]
      cases f b <;> rfl

end Collecting

/-! ## What a board tree holds -/

/-- A board of a tree, a task in a status folder, or the Markdown list of a status. -/
inductive BoardItem where
  | board (board : Folder)
  | task (status : TaskStatus) (task : Text × Node)
  | list (status : TaskStatus) (text : Text)

/-- The tasks of a status folder. -/
def visibleTasks (tasks : Folder) : Folder := tasks.filter fun task => !isHidden task.1

/-- The board inside a task. -/
def boardOfTask : Text × Node → Option Folder
  | (_, .folder children) => if boardHasAnyStatusStore children then some children else none
  | (_, .file _) => none

/-- What the store of a status holds, with what the boards inside its tasks hold. -/
def statusItems (inside : Folder → List BoardItem) (board : Folder) (status : TaskStatus) :
    List BoardItem :=
  match storeContent board status with
  | .tasks tasks => (visibleTasks tasks).flatMap fun task =>
      .task status task :: ((boardOfTask task).map inside).getD []
  | .list text => [.list status text]
  | .nothing => []

/-- The boards of a tree, down to a depth, with their tasks and lists. -/
def boardItems : Nat → Folder → List BoardItem
  | 0, _ => []
  | fuel + 1, board =>
    .board board :: TaskStatus.all.flatMap (statusItems (boardItems fuel) board)

/-- The text of a task in the worktree. -/
def taskText : Text × Node → Text
  | (_, .file content) => content
  | (name, .folder children) => (readDirectoryTaskContent children).getD (titleFromPath name)

/-- The entries of a Markdown list. -/
def listEntries (text : Text) : List Text := (Text.lines text).filterMap (stripPrefix "- ".toList)

/-- What the worktree reader finds. -/
def BoardItem.inWorktree : BoardItem → List GitTaskProofEntry
  | .board _ => []
  | .task status child => [{ status := status.dirName, content := taskText child }]
  | .list status text =>
    (listEntries text).map fun content => { status := status.dirName, content := content }

/-- The text of a task in a Git tree. -/
def committedText : Text × Node → Text
  | (_, .file content) => Text.trim content
  | (name, .folder children) =>
    ((readDirectoryTaskContent children).map Text.trim).getD (titleFromPath name)

/-- What the Git reader finds. -/
def BoardItem.inGitTree : BoardItem → List GitTaskProofEntry
  | .board _ => []
  | .task status child => [{ status := status.dirName, content := committedText child }]
  | .list status text =>
    (listEntries (Text.trim text)).map fun content =>
      { status := status.dirName, content := content }

/-! ## The worktree reader -/

section Worktree

variable {toLowercase : Text → Text} {board : Folder} {status : TaskStatus} {fuel : Nat}
  {file : Option Node}

theorem map_content_readMarkdownEntries (text : Text) :
    (readMarkdownEntries text).map TaskEntry.content = listEntries text := by
  unfold readMarkdownEntries listEntries
  rw [List.map_filterMap]
  have h : ∀ (ls : List Text) (k : Nat),
      (ls.zipIdx k).filterMap (fun x => ((stripPrefix "- ".toList x.1).map fun taskText =>
        ({ source := .markdownLine x.2, content := taskText, hasSubtasks := false } :
          TaskEntry)).map TaskEntry.content) = ls.filterMap (stripPrefix "- ".toList) := by
    intro ls
    induction ls with
    | nil => exact fun _ => rfl
    | cons l ls ih =>
      intro k
      rw [List.zipIdx_cons, List.filterMap_cons, List.filterMap_cons, ih]
      cases stripPrefix "- ".toList l <;> rfl
  exact h _ 0

theorem folderAt_of_storeContent {tasks : Folder} (h : storeContent board status = .tasks tasks) :
    folderAt board status.dirName = some tasks := by
  unfold storeContent at h
  split at h <;> simp_all

theorem boardOfTask_eq_some {name : Text} {node : Node} {nested : Folder} :
    boardOfTask (name, node) = some nested ↔
      node = .folder nested ∧ boardHasAnyStatusStore nested = true := by
  cases node with
  | file content => simp [boardOfTask]
  | folder children =>
    constructor
    · intro h
      have hif : (if boardHasAnyStatusStore children then some children else none) = some nested := h
      split at hif
      · rename_i hstore
        obtain rfl := Option.some.inj hif
        exact ⟨rfl, hstore⟩
      · cases hif
    · rintro ⟨hnode, hstore⟩
      obtain rfl := Node.folder.inj hnode
      simp [boardOfTask, hstore]

/-- A board inside a task is two folders deeper. -/
theorem depth_boardOfTask {tasks nested : Folder} {task : Text × Node} (hboard : WfFolder board)
    (htasks : folderAt board status.dirName = some tasks) (hmem : task ∈ tasks)
    (hnested : boardOfTask task = some nested) :
    WfFolder nested ∧ depth nested + 2 ≤ depth board := by
  obtain ⟨name, node⟩ := task
  obtain ⟨rfl, -⟩ := boardOfTask_eq_some.mp hnested
  have hdir := (folderAt_eq_some hboard).mp htasks
  have htop : (Node.folder tasks).depth ≤ depth board := depth_le_of_mem hdir
  have hinner : (Node.folder nested).depth ≤ depth tasks := depth_le_of_mem hmem
  have htasksDepth : (Node.folder tasks).depth = depth tasks + 1 := rfl
  have hnestedDepth : (Node.folder nested).depth = depth nested + 1 := rfl
  refine ⟨((hboard.folder hdir).2.folder hmem).2, ?_⟩
  omega

/-- The entry of a task is read with the board inside the task. -/
theorem collectTaskEntry_directoryEntry {tasks : Folder} {task : Text × Node}
    {collect : Folder → Option (List GitTaskProofEntry)} (hwf : WfFolder tasks)
    (hmem : task ∈ tasks) :
    collectTaskEntry collect status tasks (directoryEntry task) =
      (((boardOfTask task).map collect).getD (some [])).map
        (· ++ [{ status := status.dirName, content := taskText task }]) := by
  obtain ⟨name, node⟩ := task
  cases node with
  | file content => rfl
  | folder children =>
    have hfolder : folderAt tasks name = some children := (folderAt_eq_some hwf).mpr hmem
    unfold collectTaskEntry directoryEntry boardOfTask
    cases hstore : boardHasAnyStatusStore children with
    | true =>
      simp only [hstore, hfolder, Option.bind_some, if_pos, Option.map_some, Option.getD_some]
      cases collect children <;> rfl
    | false => simp [hstore, taskText]

theorem directoryTaskPaths_perm (tasks : Folder) :
    (directoryTaskPaths toLowercase tasks).Perm (visibleTasks tasks) :=
  Listing.sortByKey_perm _ _

/-- The worktree reader finds what the tree holds, unless one of its boards is blocked. -/
theorem collectTaskEntries_collects (toLowercase : Text → Text) (hwf : WfFolder board)
    (hfuel : depth board < fuel)
    (hfree : ∀ b, BoardItem.board b ∈ boardItems fuel board → ¬ Blocked b) :
    Collects (collectTaskEntries toLowercase fuel board)
      ((boardItems fuel board).flatMap BoardItem.inWorktree) := by
  induction fuel generalizing board with
  | zero => omega
  | succ fuel ih =>
    have hread : ∀ status, readTaskEntries toLowercase board status =
        some (storeEntries toLowercase (storeContent board status)) := fun status =>
      readTaskEntries_eq_some (hfree board List.mem_cons_self)
    rw [boardItems, List.flatMap_cons, BoardItem.inWorktree, List.nil_append, List.flatMap_assoc]
    refine collectAll_collects fun status _ => ?_
    simp only [hread, Option.bind_eq_bind, Option.bind_some]
    have hinside : ∀ item ∈ statusItems (boardItems fuel) board status,
        item ∈ boardItems (fuel + 1) board := fun item hitem =>
      List.mem_cons_of_mem _ (List.mem_flatMap.mpr ⟨status, status.mem_all, hitem⟩)
    unfold statusItems at hinside ⊢
    cases hcontent : storeContent board status with
    | nothing => exact collects_some []
    | list text =>
      rw [storeEntries, List.flatMap_singleton, BoardItem.inWorktree]
      have hmap : ∀ entry ∈ readMarkdownEntries text,
          collectTaskEntry (collectTaskEntries toLowercase fuel) status
            ((folderAt board status.dirName).getD []) entry =
              some [{ status := status.dirName, content := entry.content }] := by
        intro entry hentry
        obtain ⟨⟨line, lineIndex⟩, -, hline⟩ := List.mem_filterMap.mp hentry
        obtain ⟨taskText, -, rfl⟩ := Option.map_eq_some_iff.mp hline
        rfl
      rw [← map_content_readMarkdownEntries, List.map_map, List.map_eq_flatMap]
      refine collectAll_collects fun entry hentry => ?_
      rw [hmap entry hentry]
      exact collects_some _
    | tasks tasks =>
      have htasks := folderAt_of_storeContent hcontent
      have hwfTasks := (hwf.folder ((folderAt_eq_some hwf).mp htasks)).2
      rw [hcontent] at hinside
      simp only [htasks, Option.getD_some, storeEntries, readDirectoryEntries, collectAll_map,
        List.flatMap_assoc]
      refine collectAll_perm (directoryTaskPaths_perm tasks) (collectAll_collects fun task htask => ?_)
      have hmem : task ∈ tasks := (List.mem_filter.mp htask).1
      rw [collectTaskEntry_directoryEntry hwfTasks hmem, List.flatMap_cons, BoardItem.inWorktree]
      cases hnested : boardOfTask task with
      | none => exact collects_some _
      | some nested =>
        obtain ⟨hwfNested, hdepth⟩ := depth_boardOfTask hwf htasks hmem hnested
        have hfreeNested : ∀ b, BoardItem.board b ∈ boardItems fuel nested → ¬ Blocked b := by
          intro b hb
          refine hfree b (hinside _ (List.mem_flatMap.mpr ⟨task, htask, ?_⟩))
          rw [hnested]
          exact List.mem_cons_of_mem _ hb
        obtain ⟨found, hfound, hperm⟩ := ih hwfNested (by omega) hfreeNested
        simp only [Option.map_some, Option.getD_some, hfound]
        refine ⟨_, rfl, ?_⟩
        exact (List.perm_append_comm).trans (hperm.cons _)

/-- It fails if one of the boards is blocked. -/
theorem collectTaskEntries_eq_none {b : Folder} (hwf : WfFolder board)
    (hb : BoardItem.board b ∈ boardItems fuel board) (hblocked : Blocked b) :
    collectTaskEntries toLowercase fuel board = none := by
  induction fuel generalizing board with
  | zero => cases hb
  | succ fuel ih =>
    by_cases hboard : Blocked board
    · have hfails : ∃ status, readTaskEntries toLowercase board status = none :=
        exists_readTaskEntries_eq_none hboard
      obtain ⟨status, hstatus⟩ := hfails
      exact collectAll_eq_none status.mem_all (by rw [hstatus]; rfl)
    · have hne : b ≠ board := fun h => hboard (h ▸ hblocked)
      rcases List.mem_cons.mp hb with hhead | hinside
      · exact absurd (BoardItem.board.inj hhead) hne
      · obtain ⟨status, -, hitem⟩ := List.mem_flatMap.mp hinside
        refine collectAll_eq_none status.mem_all ?_
        simp only [readTaskEntries_eq_some hboard, Option.bind_eq_bind, Option.bind_some]
        unfold statusItems at hitem
        cases hcontent : storeContent board status with
        | nothing =>
          rw [hcontent] at hitem
          cases hitem
        | list text =>
          rw [hcontent] at hitem
          cases List.mem_singleton.mp hitem
        | tasks tasks =>
          rw [hcontent] at hitem
          obtain ⟨task, htask, hitem⟩ := List.mem_flatMap.mp hitem
          have htasks := folderAt_of_storeContent hcontent
          have hdir := (folderAt_eq_some hwf).mp htasks
          have hmem : task ∈ tasks := (List.mem_filter.mp htask).1
          rcases List.mem_cons.mp hitem with hhead | hnestedItem
          · cases hhead
          · cases hnested : boardOfTask task with
            | none =>
              rw [hnested] at hnestedItem
              cases hnestedItem
            | some nested =>
              rw [hnested] at hnestedItem
              have hnone := ih (depth_boardOfTask hwf htasks hmem hnested).1 hnestedItem
              rw [storeEntries, readDirectoryEntries, collectAll_map]
              refine collectAll_eq_none ((directoryTaskPaths_perm tasks).mem_iff.mpr htask) ?_
              rw [htasks, Option.getD_some,
                collectTaskEntry_directoryEntry (hwf.folder hdir).2 hmem, hnested]
              simp [hnone]

end Worktree

/-! ## The Git reader -/

section GitTree

variable {tree : List GitTreeEntry} {dir : Text} {board : Folder} {status : TaskStatus} {fuel : Nat}

/-- The paths of a tree with their contents. -/
def contents (tree : List GitTreeEntry) : List (Text × Text) :=
  tree.map fun entry => (entry.path, entry.content)

theorem slash_not_mem_dirName (status : TaskStatus) : '/' ∉ status.dirName := by
  cases status <;> decide

theorem slash_not_mem_filename (status : TaskStatus) : '/' ∉ status.filename := by
  cases status <;> decide

theorem any_path {p : Text → Bool} :
    (tree.map GitTreeEntry.path).any p = (contents tree).any fun f => p f.1 := by
  simp [contents, List.any_map, Function.comp_def]

/-- A folder of the tree. -/
theorem hasDirectory_eq {name : Text} (h : Lists (contents tree) dir board) (hname : '/' ∉ name) :
    gitTreeHasDirectory (tree.map GitTreeEntry.path) (dir ++ '/' :: name) =
      (folderAt board name).isSome := by
  rw [gitTreeHasDirectory, any_path]
  exact h.any_below hname

/-- A file of the tree. -/
theorem hasFile_eq {name : Text} (h : Lists (contents tree) dir board) (hname : '/' ∉ name) :
    ((tree.map GitTreeEntry.path).any fun path => path == dir ++ '/' :: name) =
      (fileAt board name).isSome := by
  rw [any_path, ← List.isSome_find?, h.find?_file hname, Option.isSome_map]

theorem blobContent_eq {name : Text} (h : Lists (contents tree) dir board) (hname : '/' ∉ name) :
    gitRefBlobContent tree (dir ++ '/' :: name) = (fileAt board name).map Text.trim := by
  have hfind := congrArg (Option.map Prod.snd) (h.find?_file hname)
  rw [contents, List.find?_map, Option.map_map, Option.map_map] at hfind
  have hcontent : (tree.find? fun entry => entry.path == dir ++ '/' :: name).map
      GitTreeEntry.content = fileAt board name := by
    calc _ = Option.map (Prod.snd ∘ fun content => (dir ++ '/' :: name, content))
          (fileAt board name) := hfind
      _ = fileAt board name := Option.map_id'
  rw [← hcontent, Option.map_map]
  rfl

theorem hasAnyStatusStore_eq (h : Lists (contents tree) dir board) :
    gitTreeBoardHasAnyStatusStore (tree.map GitTreeEntry.path) dir = boardHasAnyStatusStore board := by
  unfold gitTreeBoardHasAnyStatusStore boardHasAnyStatusStore
  congr 1
  funext status
  rw [hasDirectory_eq h (slash_not_mem_dirName status), statusStoreExists, Bool.or_comm,
    show dir ++ '/' :: status.dirName ++ ".md".toList = dir ++ '/' :: status.filename by
      rw [filename_eq, List.append_assoc]; rfl,
    hasFile_eq h (slash_not_mem_filename status)]

/-! ### The children of a store -/

theorem takeWhile_name {name rest : Text} (hname : '/' ∉ name) :
    (name ++ '/' :: rest).takeWhile (· ≠ '/') = name := by
  induction name with
  | nil => rfl
  | cons c name ih =>
    have hc : c ≠ '/' := fun h => hname (h ▸ List.mem_cons_self)
    rw [List.cons_append, List.takeWhile_cons_of_pos (by simpa using hc),
      ih fun h => hname (List.mem_cons_of_mem c h)]

/-- A path goes to or through the node that it is a path of. -/
theorem childOf_eq {name : Text} {node : Node} {f : Text × Text} (hname : '/' ∉ name)
    (hf : f ∈ node.files (dir ++ ['/'] ++ name)) : childOf dir f.1 = (name, isFolder node) := by
  have hself : name.takeWhile (· ≠ '/') = name := by
    rw [List.takeWhile_eq_self_iff]
    intro c hc
    simpa using fun h : c = '/' => hname (h ▸ hc)
  rcases path_of_mem_files hf with ⟨hnode, hpath⟩ | ⟨hfolder, hbelow⟩
  · have hdrop : f.1.drop (dir.length + 1) = name := by
      rw [hpath]
      simp
    rw [childOf, hdrop, hself, hnode]
    simp [isFolder]
  · obtain ⟨rest, hrest⟩ := below_iff.mp hbelow
    have hdrop : f.1.drop (dir.length + 1) = name ++ '/' :: rest := by
      rw [hrest]
      simp
    rw [childOf, hdrop, takeWhile_name hname, hfolder]
    simp

theorem noteChild_new {children : List (Text × Bool)} {name : Text} {b : Bool}
    (h : ∀ c ∈ children, c.1 ≠ name) : noteChild children name b = children ++ [(name, b)] := by
  rw [noteChild, if_neg]
  intro hany
  obtain ⟨c, hc, hname⟩ := List.any_eq_true.mp hany
  exact h c hc (beq_iff_eq.mp hname)

theorem noteChild_known {children : List (Text × Bool)} {name : Text} {b : Bool}
    (h : ∀ c ∈ children, c.1 ≠ name) :
    noteChild (children ++ [(name, b)]) name b = children ++ [(name, b)] := by
  rw [noteChild, if_pos (by simp), List.map_append]
  congr 1
  · refine (List.map_congr_left fun c hc => ?_).trans (List.map_id _)
    rw [if_neg (by simpa using h c hc)]
    rfl
  · simp

/-- All paths of one node note one child. -/
theorem foldl_notePath {children : List (Text × Bool)} {name : Text} {b : Bool} {paths : List Text}
    (hnew : ∀ c ∈ children, c.1 ≠ name) (hname : IsName name) (hvisible : isHidden name = false)
    (hpaths : ∀ path ∈ paths, childOf dir path = (name, b)) (hne : paths ≠ []) :
    paths.foldl (notePath dir) children = children ++ [(name, b)] := by
  have hnote : ∀ path ∈ paths, ∀ known, notePath dir known path = noteChild known name b := by
    intro path hpath known
    rw [notePath, hpaths path hpath, hvisible]
    simp [hname.1]
  obtain ⟨path, rest, rfl⟩ := List.exists_cons_of_ne_nil hne
  rw [List.foldl_cons, hnote path List.mem_cons_self, noteChild_new hnew]
  have hrest : ∀ p ∈ rest, ∀ known, notePath dir known p = noteChild known name b :=
    fun p hp => hnote p (List.mem_cons_of_mem path hp)
  clear hnote hpaths hne
  induction rest with
  | nil => rfl
  | cons p rest ih =>
    rw [List.foldl_cons, hrest p List.mem_cons_self, noteChild_known hnew]
    exact ih fun q hq => hrest q (List.mem_cons_of_mem p hq)

theorem foldl_notePath_hidden {children : List (Text × Bool)} {name : Text} {b : Bool}
    {paths : List Text} (hhidden : isHidden name = true)
    (hpaths : ∀ path ∈ paths, childOf dir path = (name, b)) :
    paths.foldl (notePath dir) children = children := by
  induction paths with
  | nil => rfl
  | cons path rest ih =>
    rw [List.foldl_cons, notePath, hpaths path List.mem_cons_self, hhidden]
    simpa using ih fun p hp => hpaths p (List.mem_cons_of_mem path hp)

/-- The paths of a folder note its children that are not hidden. -/
theorem foldl_notePath_filesUnder {tasks : Folder} (hwf : WfFolder tasks)
    {children : List (Text × Bool)} (hnew : ∀ c ∈ children, ∀ task ∈ tasks, c.1 ≠ task.1) :
    ((filesUnder (dir ++ ['/']) tasks).map Prod.fst).foldl (notePath dir) children =
      children ++ (visibleTasks tasks).map fun task => (task.1, isFolder task.2) := by
  induction tasks generalizing children with
  | nil => simp [filesUnder, visibleTasks]
  | cons task tasks ih =>
    obtain ⟨name, node⟩ := task
    have hname : IsName name := hwf.names _ List.mem_cons_self
    have hpaths : ∀ path ∈ (node.files (dir ++ ['/'] ++ name)).map Prod.fst,
        childOf dir path = (name, isFolder node) := by
      intro path hpath
      obtain ⟨f, hf, rfl⟩ := List.mem_map.mp hpath
      exact childOf_eq hname.2 hf
    have hnewTail : ∀ c ∈ children, ∀ task ∈ tasks, c.1 ≠ task.1 := fun c hc task htask =>
      hnew c hc task (List.mem_cons_of_mem _ htask)
    rw [filesUnder, List.map_append, List.foldl_append]
    cases hhidden : isHidden name with
    | true =>
      rw [foldl_notePath_hidden hhidden hpaths, ih hwf.tail hnewTail]
      simp [visibleTasks, hhidden]
    | false =>
      have hne : (node.files (dir ++ ['/'] ++ name)).map Prod.fst ≠ [] := by
        obtain ⟨f, hf, -⟩ := exists_deep_file _ (hwf.nodes _ List.mem_cons_self)
        exact List.ne_nil_of_mem (List.mem_map_of_mem hf)
      rw [foldl_notePath (fun c hc => hnew c hc _ List.mem_cons_self) hname hhidden hpaths hne,
        ih hwf.tail]
      · simp [visibleTasks, hhidden]
      · intro c hc other hother
        rcases List.mem_append.mp hc with hc | hc
        · exact hnewTail c hc other hother
        · rw [List.mem_singleton.mp hc]
          intro heq
          exact (List.nodup_cons.mp hwf.nodup).1 (List.mem_map.mpr ⟨other, hother, heq.symm⟩)

/-- The children of a store are the tasks of its folder. -/
theorem gitTreeChildren_perm {tasks : Folder} (h : Lists (contents tree) dir tasks) :
    (gitTreeChildren (tree.map GitTreeEntry.path) dir).Perm
      ((visibleTasks tasks).map fun task => (task.1, isFolder task.2)) := by
  have hpaths : (tree.map GitTreeEntry.path).filter (below dir) =
      (filesUnder (dir ++ ['/']) tasks).map Prod.fst := by
    rw [← h.files, contents, List.filter_map, List.filter_map, List.map_map]
    rfl
  refine (Listing.sortByKey_perm _ _).trans ?_
  rw [hpaths, foldl_notePath_filesUnder h.wf fun _ hc => absurd hc List.not_mem_nil]
  exact .refl _

/-! ### The entries -/

theorem slash_not_mem_detail {detail : Text} (h : detail ∈ taskDetailFiles) : '/' ∉ detail := by
  revert detail
  decide

/-- The first write-up that the tree has. -/
theorem detail_eq {task : Folder} (h : Lists (contents tree) dir task) (title : Text)
    {details : List Text} (hdetails : ∀ detail ∈ details, '/' ∉ detail) :
    (match (details.map fun detail => dir ++ '/' :: detail).find? fun detailPath =>
        (tree.map GitTreeEntry.path).any fun path => path == detailPath with
      | some detailPath => gitRefBlobContent tree detailPath
      | none => some title) =
      some (((details.findSome? (fileAt task)).map Text.trim).getD title) := by
  induction details with
  | nil => rfl
  | cons detail rest ih =>
    have hdetail := hdetails detail List.mem_cons_self
    rw [List.map_cons, List.find?_cons, hasFile_eq h hdetail, List.findSome?_cons]
    cases hfile : fileAt task detail with
    | none => exact ih fun d hd => hdetails d (List.mem_cons_of_mem _ hd)
    | some content =>
      rw [Option.isSome_some]
      show gitRefBlobContent tree (dir ++ '/' :: detail) = _
      rw [blobContent_eq h hdetail, hfile]
      rfl

theorem taskContent_eq {tasks : Folder} {task : Text × Node}
    (h : Lists (contents tree) dir tasks) (hmem : task ∈ tasks) :
    gitTreeTaskContent tree (tree.map GitTreeEntry.path) (dir ++ '/' :: task.1) task.1
      (isFolder task.2) = some (committedText task) := by
  obtain ⟨name, node⟩ := task
  cases node with
  | file content =>
    have hfile : fileAt tasks name = some content := (fileAt_eq_some h.wf).mpr hmem
    show gitRefBlobContent tree (dir ++ '/' :: name) = _
    rw [blobContent_eq h (h.wf.names _ hmem).2, hfile]
    rfl
  | folder children =>
    have hfolder : folderAt tasks name = some children := (folderAt_eq_some h.wf).mpr hmem
    exact detail_eq (h.folder hfolder) (titleFromPath name) fun _ => slash_not_mem_detail

/-- The Git reader finds what the tree holds. -/
theorem collectGitRefBoardTaskEntries_collects (h : Lists (contents tree) dir board)
    (hfuel : depth board < fuel) :
    Collects (collectGitRefBoardTaskEntries tree (tree.map GitTreeEntry.path) fuel dir)
      ((boardItems fuel board).flatMap BoardItem.inGitTree) := by
  induction fuel generalizing board dir with
  | zero => omega
  | succ fuel ih =>
    rw [boardItems, List.flatMap_cons, BoardItem.inGitTree, List.nil_append, List.flatMap_assoc]
    refine collectAll_collects fun status _ => ?_
    have hmarkdown : dir ++ '/' :: status.dirName ++ ".md".toList = dir ++ '/' :: status.filename := by
      rw [filename_eq, List.append_assoc]
      rfl
    simp only [hasDirectory_eq h (slash_not_mem_dirName status), hmarkdown,
      hasFile_eq h (slash_not_mem_filename status), blobContent_eq h (slash_not_mem_filename status)]
    unfold statusItems storeContent
    cases htasks : folderAt board status.dirName with
    | none =>
      cases hfile : fileAt board status.filename with
      | none => exact collects_some []
      | some text =>
        refine ⟨_, rfl, ?_⟩
        rw [List.flatMap_singleton, BoardItem.inGitTree, listEntries, List.map_filterMap]
    | some tasks =>
      have hstore := h.folder htasks
      simp only [Option.isSome_some, if_pos, List.flatMap_assoc]
      refine collectAll_perm (gitTreeChildren_perm hstore) ?_
      rw [collectAll_map]
      refine collectAll_collects fun task htask => ?_
      have hmem : task ∈ tasks := (List.mem_filter.mp htask).1
      simp only [taskContent_eq hstore hmem, Option.bind_eq_bind, Option.bind_some, List.flatMap_cons,
        BoardItem.inGitTree]
      obtain ⟨name, node⟩ := task
      cases node with
      | file content => exact collects_some _
      | folder children =>
        have hfolder : folderAt tasks name = some children := (folderAt_eq_some hstore.wf).mpr hmem
        have hinner := hstore.folder hfolder
        rw [hasAnyStatusStore_eq hinner]
        cases hany : boardHasAnyStatusStore children with
        | false =>
          have hnested : boardOfTask (name, .folder children) = none := by simp [boardOfTask, hany]
          rw [hnested]
          exact collects_some _
        | true =>
          have hnested : boardOfTask (name, .folder children) = some children :=
            boardOfTask_eq_some.mpr ⟨rfl, hany⟩
          obtain ⟨-, hdepth⟩ := depth_boardOfTask h.wf htasks hmem hnested
          obtain ⟨found, hfound, hfoundPerm⟩ := ih hinner (by omega)
          rw [hnested]
          simp only [isFolder, Bool.and_self, if_pos, hfound, Option.bind_some]
          exact ⟨_, rfl, hfoundPerm.cons _⟩

end GitTree

end Clt
