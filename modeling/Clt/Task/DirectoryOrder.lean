import Mathlib.Data.List.Perm.Subperm
import Clt.Task.Placement

/-!
# Reordering a folder of tasks

`task.rs` numbers the tasks of a folder anew by renaming each of them to a hidden name first and
to its final name then, and turns a Markdown list into a folder by inserting its tasks one after
the other behind the list's back: as soon as the folder is there, it is what is read. So nearly
every step that fails on the way leaves tasks that are not listed (`all_listed_iff`).
-/

namespace Clt

open Files

/-! ## Steps -/

/-- A step on files. The number says for which of the tasks that are inserted one after the
other it is taken. -/
inductive FileStep where
  | createDir
  | write (entry : Nat)
  | publish (entry : Nat)
  | sync (entry : Nat)
  | prepare (entry idx : Nat)
  | finish (entry idx : Nat)
  | backup
  deriving DecidableEq, Repr

/-- A step is done, or is the one that fails and changes nothing. An error has what is there
then. -/
def takeStep {σ : Type} (failing : Option FileStep) (step : FileStep) (world : σ)
    (change : σ → σ) : Except σ σ :=
  if failing = some step then .error world else .ok (change world)

/-- `fs::rename` of a name in a folder. -/
def renameChild (folder : Folder) (old new : Text) : Folder :=
  if old = new then folder
  else (folder.filter fun task => task.1 ≠ new).map fun task =>
    if task.1 = old then (new, task.2) else task

/-! ## The order of a folder -/

variable (failing : Option FileStep) (entry : Nat)

/-- The first loop of `rewrite_directory_order`: each task gets a hidden name. -/
def prepareOrder : Nat → List Text → Folder → Except Folder (Folder × List (Text × Text))
  | _, [], tasks => .ok (tasks, [])
  | idx, originalName :: names, tasks => do
    let tempName :=
      uniqueChildPath tasks (".clt-reorder-".toList ++ decimal 0 idx ++ ['-'] ++ originalName)
    let tasks ← takeStep failing (.prepare entry idx) tasks (renameChild · originalName tempName)
    let (tasks, temps) ← prepareOrder (idx + 1) names tasks
    .ok (tasks, (tempName, originalName) :: temps)

/-- The name that a task ends with. -/
def finalName (idx : Nat) (originalName : Text) : Text :=
  decimal 4 (idx + 1) ++ ['-'] ++ stripOrderPrefix originalName

/-- The second loop: each hidden name becomes a final one. -/
def finishOrder : Nat → List (Text × Text) → Folder → Except Folder Folder
  | _, [], tasks => .ok tasks
  | idx, (tempName, originalName) :: temps, tasks => do
    let tasks ← takeStep failing (.finish entry idx) tasks
      (renameChild · tempName (finalName idx originalName))
    finishOrder (idx + 1) temps tasks

/-- `rewrite_directory_order`. -/
def rewriteDirectoryOrder (orderedNames : List Text) (tasks : Folder) : Except Folder Folder := do
  let (tasks, temps) ← prepareOrder failing entry 0 orderedNames tasks
  finishOrder failing entry 0 temps tasks

variable (toLowercase : Text → Text) (lower : Char → Text)

/-- `normalize_directory_order`. -/
def normalizeDirectoryOrder (tasks : Folder) : Except Folder Folder :=
  rewriteDirectoryOrder failing entry (childNames (directoryTaskPaths toLowercase tasks)) tasks

/-- `reorder_path_in_directory`. -/
def reorderPathInDirectory (taskName : Text) (toIdx : Nat) (tasks : Folder) :
    Except Folder Folder :=
  let paths := directoryTaskPaths toLowercase tasks
  match paths.findIdx? fun path => path.1 == taskName with
  | none => .error tasks
  | some fromIdx =>
    rewriteDirectoryOrder failing entry (childNames (Listing.moveTo paths fromIdx toIdx)) tasks

/-! ## From a list to a folder -/

/-- `insert_content_into_directory` without an index. The file is written under a hidden name,
which goes again when it is not published. -/
def insertContentIntoDirectory (content : Text) (tasks : Folder) : Except Folder Folder := do
  let preferredName := decimal 4 ((directoryTaskPaths toLowercase tasks).length + 1) ++ ['-'] ++
    (slugify lower ((firstSentence content).getD "task".toList) ++ ".md".toList)
  let taskPath := uniqueChildPath tasks preferredName
  let tasks ← takeStep failing (.write entry) tasks id
  let tasks ← takeStep failing (.publish entry) tasks
    (· ++ [(taskPath, .file (Text.trimEnd content ++ ['\n']))])
  let tasks ← takeStep failing (.sync entry) tasks id
  normalizeDirectoryOrder failing entry toLowercase tasks

/-- The loop over the entries of a list. -/
def insertEntries : Nat → List Text → Folder → Except Folder Folder
  | _, [], tasks => .ok tasks
  | entry, content :: contents, tasks => do
    let tasks ← insertContentIntoDirectory failing entry toLowercase lower content tasks
    insertEntries (entry + 1) contents tasks

/-- Put a folder in its place on the board. -/
def putFolder (board : Folder) (name : Text) (tasks : Folder) : Folder :=
  (board.filter fun node => node.1 ≠ name) ++ [(name, .folder tasks)]

/-- Run on a folder of the board. -/
def inFolder (name : Text) (run : Folder → Except Folder Folder) (board : Folder) :
    Except Folder Folder :=
  match folderAt board name with
  | none => .ok board
  | some tasks =>
    match run tasks with
    | .ok tasks => .ok (putFolder board name tasks)
    | .error tasks => .error (putFolder board name tasks)

/-- Make the folder of a status: `fs::create_dir_all`. -/
def createStatusDir (status : TaskStatus) (board : Folder) : Except Folder Folder :=
  if (node? board status.dirName).isSome then .error board
  else takeStep failing .createDir board (putFolder · status.dirName [])

/-- Insert the tasks of a list, and put the list aside. -/
def insertList (status : TaskStatus) (text : Text) (board : Folder) : Except Folder Folder := do
  let contents := (readMarkdownEntries text).map TaskEntry.content
  let board ← inFolder status.dirName (insertEntries failing toLowercase lower 0 contents) board
  let backupName := uniqueChildPath board (status.filename ++ ".bak".toList)
  takeStep failing .backup board (renameChild · status.filename backupName)

/-- `convert_status_to_directory`. -/
def convertStatusToDirectory (status : TaskStatus) (board : Folder) : Except Folder Folder := do
  if (folderAt board status.dirName).isSome then .ok board
  else
    let board ← createStatusDir failing status board
    match node? board status.filename with
    | none => .ok board
    | some (.folder _) => .error board
    | some (.file text) => insertList failing toLowercase lower status text board

/-- `expand_status_for_command`, on a board that has its stores. The list is read first. -/
def expandStatusForCommand (status : TaskStatus) (board : Folder) : Except Folder Folder := do
  if (folderAt board status.dirName).isSome then .ok board
  else
    match fileAt board status.filename with
    | none => .error board
    | some text =>
      let board ← createStatusDir failing status board
      insertList failing toLowercase lower status text board

/-! ## What is shown -/

/-- The tasks that the listing does not skip. -/
def shown (tasks : Folder) : List Node :=
  (tasks.filter fun task => !isHidden task.1).map Prod.snd

section Shown

variable {tasks F G hidden ordered : Folder}

theorem shown_append (F G : Folder) : shown (F ++ G) = shown F ++ shown G := by
  rw [shown, List.filter_append, List.map_append]
  rfl

theorem shown_perm (h : F.Perm G) : (shown F).Perm (shown G) := (h.filter _).map _

theorem shown_eq_nil (h : ∀ task ∈ F, isHidden task.1 = true) : shown F = [] := by
  have hfilter : F.filter (fun task => !isHidden task.1) = [] := by
    rw [List.filter_eq_nil_iff]
    intro task htask
    rw [h task htask]
    exact Bool.false_ne_true
  rw [shown, hfilter]
  rfl

theorem shown_eq_map (h : ∀ task ∈ F, isHidden task.1 = false) : shown F = F.map Prod.snd := by
  have hfilter : F.filter (fun task => !isHidden task.1) = F := by
    rw [List.filter_eq_self]
    intro task htask
    rw [h task htask]
    rfl
  rw [shown, hfilter]

/-- A folder is what the listing skips and what it lists. -/
theorem perm_hidden_append (tasks : Folder) : tasks.Perm
    (tasks.filter (fun task => isHidden task.1) ++ tasks.filter fun task => !isHidden task.1) :=
  (List.filter_append_perm (fun task : Text × Node => isHidden task.1) tasks).symm

theorem childNames_perm (h : F.Perm G) : (childNames F).Perm (childNames G) := h.map _

theorem renameChild_perm {old new : Text} {node : Node} (hnodup : (childNames F).Nodup)
    (hperm : F.Perm ((old, node) :: G)) (hnew : new ∉ childNames F) :
    (renameChild F old new).Perm ((new, node) :: G) := by
  have hold : old ∈ childNames F := (childNames_perm hperm).symm.subset List.mem_cons_self
  have hne : old ≠ new := fun heq => hnew (heq ▸ hold)
  have hkept : F.filter (fun task => task.1 ≠ new) = F := by
    rw [List.filter_eq_self]
    intro task htask
    have hname : task.1 ≠ new := fun heq => hnew (heq ▸ List.mem_map_of_mem htask)
    exact decide_eq_true hname
  have hrest : ∀ task ∈ G, task.1 ≠ old := by
    intro task htask heq
    have hnodup' := (childNames_perm hperm).nodup_iff.mp hnodup
    have hmem : old ∈ childNames G := heq ▸ List.mem_map_of_mem (f := Prod.fst) htask
    exact (List.nodup_cons.mp hnodup').1 hmem
  have hsame : G.map (fun task => if task.1 = old then (new, task.2) else task) = G := by
    refine (List.map_congr_left fun task htask => ?_).trans (List.map_id G)
    exact if_neg (hrest task htask)
  rw [renameChild, if_neg hne, hkept]
  refine (hperm.map _).trans ?_
  rw [List.map_cons, if_pos rfl, hsame]

theorem nodup_renameChild {old new : Text} {node : Node} (hnodup : (childNames F).Nodup)
    (hperm : F.Perm ((old, node) :: G)) (hnew : new ∉ childNames F) :
    (childNames (renameChild F old new)).Nodup := by
  have hafter := childNames_perm (renameChild_perm hnodup hperm hnew)
  have hbefore := childNames_perm hperm
  refine hafter.nodup_iff.mpr (List.nodup_cons.mpr ⟨?_, ?_⟩)
  · exact fun hmem => hnew (hbefore.symm.subset (List.mem_cons_of_mem _ hmem))
  · exact (List.nodup_cons.mp (hbefore.nodup_iff.mp hnodup)).2

theorem prefix_of_fileStem (name : Text) : (fileStem name).getD name <+: name := by
  unfold fileStem
  split
  · exact List.prefix_refl _
  · dsimp only
    split
    · exact List.prefix_refl _
    · rw [Option.getD_some, ← List.reverse_suffix, List.reverse_reverse]
      exact (List.drop_suffix _ _).trans (List.dropWhile_suffix _)

theorem fileStem_ne_nil {name : Text} (h : name ≠ []) : (fileStem name).getD name ≠ [] := by
  unfold fileStem
  split
  · exact h
  · dsimp only
    split
    · exact h
    · assumption

/-- A name stays hidden, or not, when an index makes it unique. -/
theorem isHidden_uniqueChildPath {name : Text} (h : name ≠ []) (tasks : Folder) :
    isHidden (uniqueChildPath tasks name) = isHidden name := by
  unfold uniqueChildPath
  split
  · rfl
  · obtain ⟨tail, htail⟩ := prefix_of_fileStem name
    obtain ⟨c, cs, hstem⟩ := List.exists_cons_of_ne_nil (fileStem_ne_nil h)
    rw [hstem] at htail
    rw [candidateName, hstem, ← htail]
    rfl

end Shown

/-! ## The two loops -/

section Loops

variable {failing : Option FileStep} {entry idx : Nat} {tasks : Folder}

theorem takeStep_cases {σ : Type} (failing : Option FileStep) (step : FileStep) (world : σ)
    (change : σ → σ) :
    failing = some step ∧ takeStep failing step world change = .error world ∨
      failing ≠ some step ∧ takeStep failing step world change = .ok (change world) := by
  unfold takeStep
  by_cases h : failing = some step
  · exact .inl ⟨h, if_pos h⟩
  · exact .inr ⟨h, if_neg h⟩

/-- A task that has its hidden name: that name, the one it had, and its node. -/
abbrev Parked : Type := (Text × Text) × Node

variable (failing entry idx) in
/-- The first loop hides one task after the other, and a step that fails leaves those hidden that
came before. -/
theorem prepareOrder_cases {hidden ordered : Folder} (hnodup : (childNames tasks).Nodup)
    (hperm : tasks.Perm (hidden ++ ordered)) (hhidden : ∀ task ∈ hidden, isHidden task.1 = true)
    (hshown : ∀ task ∈ ordered, isHidden task.1 = false) :
    (∃ k < ordered.length, failing = some (.prepare entry (idx + k)) ∧ ∃ after,
      prepareOrder failing entry idx (childNames ordered) tasks = .error after ∧
        (k = 0 → after = tasks) ∧ (shown after).Perm ((ordered.drop k).map Prod.snd)) ∨
    ∃ after, ∃ parked : List Parked,
      prepareOrder failing entry idx (childNames ordered) tasks =
          .ok (after, parked.map Prod.fst) ∧
        (childNames after).Nodup ∧ parked.map Prod.snd = ordered.map Prod.snd ∧
        (∀ spot ∈ parked, isHidden spot.1.1 = true) ∧
        after.Perm (hidden ++ parked.map fun spot => (spot.1.1, spot.2)) := by
  induction ordered generalizing idx tasks hidden with
  | nil => exact .inr ⟨tasks, [], rfl, hnodup, rfl, nofun, hperm⟩
  | cons task rest ih =>
    obtain ⟨name, node⟩ := task
    let preferred := ".clt-reorder-".toList ++ decimal 0 idx ++ ['-'] ++ name
    let temp := uniqueChildPath tasks preferred
    have htemp : isHidden temp = true := isHidden_uniqueChildPath (List.cons_ne_nil _ _) tasks
    have hrun : prepareOrder failing entry idx (childNames ((name, node) :: rest)) tasks =
        takeStep failing (.prepare entry idx) tasks (renameChild · name temp) >>= fun tasks =>
          prepareOrder failing entry (idx + 1) (childNames rest) tasks >>= fun result =>
            .ok (result.1, (temp, name) :: result.2) := rfl
    rw [hrun]
    rcases takeStep_cases failing (.prepare entry idx) tasks (renameChild · name temp) with
      ⟨hfails, hstep⟩ | ⟨-, hstep⟩
    · rw [hstep]
      refine .inl ⟨0, Nat.succ_pos _, hfails, tasks, rfl, fun _ => rfl, ?_⟩
      have hparts := shown_perm hperm
      rw [shown_append, shown_eq_nil hhidden, shown_eq_map hshown] at hparts
      exact hparts
    · rw [hstep]
      have hold : tasks.Perm ((name, node) :: (hidden ++ rest)) := hperm.trans List.perm_middle
      have hfree : temp ∉ childNames tasks := uniqueChildPath_notMem tasks preferred
      have hnext : (renameChild tasks name temp).Perm ((hidden ++ [(temp, node)]) ++ rest) := by
        rw [List.append_assoc]
        exact (renameChild_perm hnodup hold hfree).trans List.perm_middle.symm
      have hhidden' : ∀ task ∈ hidden ++ [(temp, node)], isHidden task.1 = true := by
        intro task htask
        rcases List.mem_append.mp htask with htask | htask
        · exact hhidden task htask
        · rw [List.mem_singleton.mp htask]
          exact htemp
      rcases ih (idx + 1) (nodup_renameChild hnodup hold hfree) hnext hhidden'
          (fun task htask => hshown task (List.mem_cons_of_mem _ htask)) with
        ⟨k, hk, hfails, after, hloop, -, hafter⟩ |
          ⟨after, parked, hloop, hnodup', hnodes, hall, hafter⟩
      · refine .inl ⟨k + 1, Nat.succ_lt_succ hk, ?_, after, ?_, nofun, hafter⟩
        · rw [hfails]
          congr 2
          omega
        · show (prepareOrder failing entry (idx + 1) (childNames rest) _ >>= _) = _
          rw [hloop]
          rfl
      · refine .inr ⟨after, ((temp, name), node) :: parked, ?_, hnodup', ?_, ?_, ?_⟩
        · show (prepareOrder failing entry (idx + 1) (childNames rest) _ >>= _) = _
          rw [hloop]
          rfl
        · rw [List.map_cons, List.map_cons, hnodes]
        · intro spot hmem
          rcases List.mem_cons.mp hmem with rfl | hmem
          · exact htemp
          · exact hall spot hmem
        · rw [List.append_assoc] at hafter
          exact hafter

/-- A name that the second loop does not use from an index on. -/
def BeforeFinal (idx : Nat) (name : Text) : Prop :=
  isHidden name = true ∨ ∃ i < idx, ∃ rest, name = decimal 4 (i + 1) ++ ['-'] ++ rest

theorem takeWhile_isDigit_decimal (width n : Nat) (rest : Text) :
    (decimal width n ++ ['-'] ++ rest).takeWhile Char.isDigit = decimal width n := by
  rw [List.append_assoc, List.takeWhile_append_of_pos fun c => isDigit_of_mem_decimal]
  exact List.append_nil _

theorem isHidden_finalName (idx : Nat) (name : Text) : isHidden (finalName idx name) = false := by
  obtain ⟨c, digits, hdigits⟩ := List.exists_cons_of_ne_nil (decimal_ne_nil 3 (idx + 1))
  have hc : c ∈ decimal 4 (idx + 1) := hdigits ▸ List.mem_cons_self
  rw [finalName, hdigits]
  exact isHidden_of_isDigit (isDigit_of_mem_decimal hc)

theorem not_beforeFinal_finalName (idx : Nat) (name : Text) :
    ¬ BeforeFinal idx (finalName idx name) := by
  rintro (hhidden | ⟨i, hi, rest, heq⟩)
  · rw [isHidden_finalName] at hhidden
    cases hhidden
  · have hdigits := congrArg (List.takeWhile Char.isDigit) heq
    rw [finalName, takeWhile_isDigit_decimal, takeWhile_isDigit_decimal] at hdigits
    have hnumber := congrArg digitsNumber hdigits
    rw [digitsNumber_decimal, digitsNumber_decimal] at hnumber
    omega

/-- The names of the tasks begin with their numbers, from an index on. -/
def NumberedFrom : Nat → Folder → Prop
  | _, [] => True
  | idx, task :: rest =>
    (∃ name, task.1 = decimal 4 (idx + 1) ++ ['-'] ++ name) ∧ NumberedFrom (idx + 1) rest

variable (failing entry idx) in
/-- The second loop shows one task after the other again, with its number. -/
theorem finishOrder_cases {base : Folder} {parked : List Parked}
    (hnodup : (childNames tasks).Nodup)
    (hperm : tasks.Perm (base ++ parked.map fun spot => (spot.1.1, spot.2)))
    (hhidden : ∀ spot ∈ parked, isHidden spot.1.1 = true)
    (hbefore : ∀ name ∈ childNames tasks, BeforeFinal idx name) :
    (∃ k < parked.length, failing = some (.finish entry (idx + k)) ∧ ∃ after,
      finishOrder failing entry idx (parked.map Prod.fst) tasks = .error after ∧
        (shown after).Perm (shown base ++ (parked.take k).map Prod.snd)) ∨
    ∃ after, finishOrder failing entry idx (parked.map Prod.fst) tasks = .ok after ∧
      (childNames after).Nodup ∧ (shown after).Perm (shown base ++ parked.map Prod.snd) ∧
      ∃ named, NumberedFrom idx named ∧ named.map Prod.snd = parked.map Prod.snd ∧
        after.Perm (base ++ named) := by
  induction parked generalizing idx tasks base with
  | nil =>
    refine .inr ⟨tasks, rfl, hnodup, ?_, [], trivial, rfl, hperm⟩
    have hparts := shown_perm hperm
    rw [shown_append] at hparts
    exact hparts
  | cons spot rest ih =>
    obtain ⟨⟨temp, name⟩, node⟩ := spot
    have hrun : finishOrder failing entry idx ((((temp, name), node) :: rest).map Prod.fst) tasks =
        takeStep failing (.finish entry idx) tasks (renameChild · temp (finalName idx name)) >>=
          finishOrder failing entry (idx + 1) (rest.map Prod.fst) := rfl
    rw [hrun]
    rcases takeStep_cases failing (.finish entry idx) tasks
      (renameChild · temp (finalName idx name)) with ⟨hfails, hstep⟩ | ⟨-, hstep⟩
    · rw [hstep]
      refine .inl ⟨0, Nat.succ_pos _, hfails, tasks, rfl, ?_⟩
      have hparts := shown_perm hperm
      rw [shown_append, shown_eq_nil (F := List.map _ _)] at hparts
      · exact hparts
      · intro task htask
        obtain ⟨spot, hmem, rfl⟩ := List.mem_map.mp htask
        exact hhidden spot hmem
    · rw [hstep]
      have hold : tasks.Perm ((temp, node) ::
          (base ++ rest.map fun spot => (spot.1.1, spot.2))) :=
        hperm.trans List.perm_middle
      have hfree : finalName idx name ∉ childNames tasks :=
        fun hmem => not_beforeFinal_finalName idx name (hbefore _ hmem)
      have hrenamed := renameChild_perm hnodup hold hfree
      have hnext : (renameChild tasks temp (finalName idx name)).Perm
          ((base ++ [(finalName idx name, node)]) ++
            rest.map fun spot => (spot.1.1, spot.2)) := by
        rw [List.append_assoc]
        exact hrenamed.trans List.perm_middle.symm
      have hbefore' : ∀ other ∈ childNames (renameChild tasks temp (finalName idx name)),
          BeforeFinal (idx + 1) other := by
        intro other hother
        rcases List.mem_cons.mp ((childNames_perm hrenamed).subset hother) with rfl | hother
        · exact .inr ⟨idx, Nat.lt_succ_self idx, _, rfl⟩
        · have hmem := (childNames_perm hold).symm.subset (List.mem_cons_of_mem _ hother)
          rcases hbefore other hmem with hhidden | ⟨i, hi, hname⟩
          · exact .inl hhidden
          · exact .inr ⟨i, by omega, hname⟩
      have hbase : shown (base ++ [(finalName idx name, node)]) = shown base ++ [node] := by
        rw [shown_append, shown_eq_map (F := [_])]
        · rfl
        · intro task htask
          rw [List.mem_singleton.mp htask]
          exact isHidden_finalName idx name
      rcases ih (idx + 1) (nodup_renameChild hnodup hold hfree) hnext
          (fun spot hmem => hhidden spot (List.mem_cons_of_mem _ hmem)) hbefore' with
        ⟨k, hk, hfails, after, hloop, hafter⟩ |
          ⟨after, hloop, hnodup', hafter, named, hnumbered, hnodes, hnamed⟩
      · refine .inl ⟨k + 1, Nat.succ_lt_succ hk, ?_, after, hloop, ?_⟩
        · rw [hfails]
          congr 2
          omega
        · rw [hbase, List.append_assoc] at hafter
          exact hafter
      · refine .inr ⟨after, hloop, hnodup', ?_, (finalName idx name, node) :: named,
          ⟨⟨_, rfl⟩, hnumbered⟩, ?_, ?_⟩
        · rw [hbase, List.append_assoc] at hafter
          exact hafter
        · rw [List.map_cons, List.map_cons, hnodes]
        · rw [List.append_assoc] at hnamed
          exact hnamed

variable (failing entry) in
/-- The first rename fails and nothing has changed; or a later one fails and a task is hidden; or
every task is shown. -/
theorem rewriteDirectoryOrder_cases {ordered : Folder} (hnodup : (childNames tasks).Nodup)
    (hordered : ordered.Perm (tasks.filter fun task => !isHidden task.1)) :
    failing = some (.prepare entry 0) ∧
        rewriteDirectoryOrder failing entry (childNames ordered) tasks = .error tasks ∨
      (∃ k, failing = some (.prepare entry (k + 1)) ∨ failing = some (.finish entry k)) ∧
        (∃ after, rewriteDirectoryOrder failing entry (childNames ordered) tasks = .error after ∧
          (shown after).length < (shown tasks).length) ∨
      ∃ after, rewriteDirectoryOrder failing entry (childNames ordered) tasks = .ok after ∧
        (childNames after).Nodup ∧ (shown after).Perm (shown tasks) ∧
        ∃ named, NumberedFrom 0 named ∧ named.map Prod.snd = ordered.map Prod.snd ∧
          after.Perm ((tasks.filter fun task => isHidden task.1) ++ named) := by
  have hshown : ∀ task ∈ ordered, isHidden task.1 = false := by
    intro task htask
    have hvisible := (List.mem_filter.mp (hordered.subset htask)).2
    simpa using hvisible
  have hnodes : (ordered.map Prod.snd).Perm (shown tasks) := hordered.map _
  have hlen : ordered.length = (shown tasks).length := by
    rw [← hnodes.length_eq, List.length_map]
  let hidden := tasks.filter fun task => isHidden task.1
  have hhidden : ∀ task ∈ hidden, isHidden task.1 = true := fun task htask =>
    (List.mem_filter.mp htask).2
  have hperm : tasks.Perm (hidden ++ ordered) :=
    (perm_hidden_append tasks).trans (hordered.symm.append_left _)
  have hrun : rewriteDirectoryOrder failing entry (childNames ordered) tasks =
      prepareOrder failing entry 0 (childNames ordered) tasks >>= fun result =>
        finishOrder failing entry 0 result.2 result.1 := rfl
  rw [hrun]
  rcases prepareOrder_cases failing entry 0 hnodup hperm hhidden
      hshown with
    ⟨k, hk, hfails, after, hloop, hfirst, hafter⟩ |
      ⟨prepared, parked, hloop, hnodup', hparked, hall, hafter⟩
  · rw [hloop]
    rw [Nat.zero_add] at hfails
    cases k with
    | zero =>
      rw [hfirst rfl]
      exact .inl ⟨hfails, rfl⟩
    | succ k =>
      refine .inr (.inl ⟨⟨k, .inl hfails⟩, after, rfl, ?_⟩)
      rw [hafter.length_eq, List.length_map, List.length_drop]
      omega
  · rw [hloop]
    have hbefore : ∀ name ∈ childNames prepared, BeforeFinal 0 name := by
      intro name hname
      left
      have hmem := (childNames_perm hafter).subset hname
      obtain ⟨task, htask, rfl⟩ := List.mem_map.mp hmem
      rcases List.mem_append.mp htask with htask | htask
      · exact hhidden task htask
      · obtain ⟨spot, hspot, rfl⟩ := List.mem_map.mp htask
        exact hall spot hspot
    have hlen' : parked.length = ordered.length := by
      have hmaps := congrArg List.length hparked
      rwa [List.length_map, List.length_map] at hmaps
    right
    rcases finishOrder_cases failing entry 0 hnodup' hafter hall hbefore with
      ⟨k, hk, hfails, last, hloop', hlast⟩ |
        ⟨last, hloop', hnodup'', hlast, named, hnumbered, hnodes', hnamed⟩
    · rw [Nat.zero_add] at hfails
      refine .inl ⟨⟨k, .inr hfails⟩, last, hloop', ?_⟩
      rw [hlast.length_eq, shown_eq_nil hhidden, List.nil_append, List.length_map,
        List.length_take]
      omega
    · refine .inr ⟨last, hloop', hnodup'', ?_, named, hnumbered, hnodes'.trans hparked, hnamed⟩
      rw [shown_eq_nil hhidden, List.nil_append, hparked] at hlast
      exact hlast.trans hnodes

end Loops

/-! ## Inserting the tasks of a list -/

section Inserting

variable {failing : Option FileStep} {toLowercase : Text → Text} {lower : Char → Text}
  {entry : Nat} {tasks : Folder}

theorem dot_notMem_number (n : Nat) : '.' ∉ decimal 4 n ++ ['-'] := by
  intro hdot
  rcases List.mem_append.mp hdot with hdot | hdot
  · exact absurd (isDigit_of_mem_decimal hdot) (by decide)
  · exact absurd (List.mem_singleton.mp hdot) (by decide)

/-- The file of a task. -/
def taskFile (content : Text) : Node := .file (Text.trimEnd content ++ ['\n'])

variable (failing toLowercase lower entry) in
theorem insertContentIntoDirectory_cases (hnodup : (childNames tasks).Nodup) (content : Text) :
    (failing = some (.sync entry) ∨ failing = some (.prepare entry 0)) ∧
        (∃ after, insertContentIntoDirectory failing entry toLowercase lower content tasks =
            .error after ∧
          (shown after).Perm (shown tasks ++ [taskFile content])) ∨
      (∃ step, failing = some step ∧ step ≠ .createDir ∧ step ≠ .backup ∧ ∀ j,
          step ≠ .sync j ∧ step ≠ .prepare j 0) ∧
        (∃ after, insertContentIntoDirectory failing entry toLowercase lower content tasks =
            .error after ∧ (shown after).length < (shown tasks).length + 1) ∨
      ∃ after, insertContentIntoDirectory failing entry toLowercase lower content tasks =
          .ok after ∧
        (childNames after).Nodup ∧ (shown after).Perm (shown tasks ++ [taskFile content]) ∧
        ∃ path rest named,
          path = decimal 4 ((directoryTaskPaths toLowercase tasks).length + 1) ++ ['-'] ++ rest ∧
          NumberedFrom 0 named ∧
          named.map Prod.snd =
            (directoryTaskPaths toLowercase (tasks ++ [(path, taskFile content)])).map Prod.snd ∧
          after.Perm (((tasks ++ [(path, taskFile content)]).filter fun task =>
            isHidden task.1) ++ named) := by
  let preferred := decimal 4 ((directoryTaskPaths toLowercase tasks).length + 1) ++ ['-'] ++
    (slugify lower ((firstSentence content).getD "task".toList) ++ ".md".toList)
  let path := uniqueChildPath tasks preferred
  let placed := tasks ++ [(path, taskFile content)]
  have hrun : insertContentIntoDirectory failing entry toLowercase lower content tasks =
      takeStep failing (.write entry) tasks id >>= fun tasks =>
        takeStep failing (.publish entry) tasks (· ++ [(path, taskFile content)]) >>= fun tasks =>
          takeStep failing (.sync entry) tasks id >>=
            normalizeDirectoryOrder failing entry toLowercase := rfl
  have hvisible : isHidden path = false := by
    obtain ⟨c, digits, hdigits⟩ := List.exists_cons_of_ne_nil (decimal_ne_nil 3
      ((directoryTaskPaths toLowercase tasks).length + 1))
    have hc : c ∈ decimal 4 ((directoryTaskPaths toLowercase tasks).length + 1) :=
      hdigits ▸ List.mem_cons_self
    have hne : preferred ≠ [] :=
      List.append_ne_nil_of_left_ne_nil (List.append_ne_nil_of_right_ne_nil _
        (List.cons_ne_nil _ _)) _
    refine (isHidden_uniqueChildPath hne tasks).trans ?_
    show isHidden (decimal 4 _ ++ ['-'] ++ _) = false
    rw [hdigits]
    exact isHidden_of_isDigit (isDigit_of_mem_decimal hc)
  have hplaced : shown placed = shown tasks ++ [taskFile content] := by
    rw [shown_append, shown_eq_map (F := [_])]
    · rfl
    · intro task htask
      rw [List.mem_singleton.mp htask]
      exact hvisible
  have hfree : path ∉ childNames tasks := uniqueChildPath_notMem tasks preferred
  have hnodup' : (childNames placed).Nodup := by
    have hnames : childNames placed = childNames tasks ++ [path] := List.map_append
    rw [hnames, List.nodup_append]
    refine ⟨hnodup, List.nodup_singleton _, ?_⟩
    rintro name hname _ hmem rfl
    exact hfree (List.mem_singleton.mp hmem ▸ hname)
  rw [hrun]
  rcases takeStep_cases failing (.write entry) tasks id with ⟨hfails, hstep⟩ | ⟨-, hstep⟩
  · rw [hstep]
    refine .inr (.inl ⟨⟨_, hfails, nofun, nofun, fun j => ⟨nofun, nofun⟩⟩, tasks, rfl, ?_⟩)
    exact Nat.lt_succ_self _
  rw [hstep]
  rcases takeStep_cases failing (.publish entry) tasks (· ++ [(path, taskFile content)]) with
    ⟨hfails, hstep⟩ | ⟨-, hstep⟩
  · refine .inr (.inl ⟨⟨_, hfails, nofun, nofun, fun j => ⟨nofun, nofun⟩⟩, tasks, ?_, ?_⟩)
    · show (takeStep failing (.publish entry) tasks _ >>= _) = _
      rw [hstep]
      rfl
    · exact Nat.lt_succ_self _
  have hpublished : (Except.ok (id tasks) >>= fun tasks =>
      takeStep failing (.publish entry) tasks (· ++ [(path, taskFile content)]) >>= fun tasks =>
        takeStep failing (.sync entry) tasks id >>=
          normalizeDirectoryOrder failing entry toLowercase) =
      takeStep failing (.sync entry) placed id >>=
        normalizeDirectoryOrder failing entry toLowercase := by
    show (takeStep failing (.publish entry) tasks _ >>= _) = _
    rw [hstep]
    rfl
  rw [hpublished]
  rcases takeStep_cases failing (.sync entry) placed id with ⟨hfails, hstep⟩ | ⟨-, hstep⟩
  · rw [hstep]
    refine .inl ⟨.inl hfails, placed, rfl, ?_⟩
    rw [hplaced]
  rw [hstep]
  have hordered : (directoryTaskPaths toLowercase placed).Perm
      (placed.filter fun task => !isHidden task.1) := Listing.sortByKey_perm _ _
  rcases rewriteDirectoryOrder_cases failing entry hnodup' hordered with
    ⟨hfails, hloop⟩ | ⟨⟨k, hfails⟩, after, hloop, hlen⟩ |
      ⟨after, hloop, hnodup'', hafter, named, hnumbered, hnodes, hnamed⟩
  · refine .inl ⟨.inr hfails, placed, hloop, ?_⟩
    rw [hplaced]
  · rw [hplaced, List.length_append, List.length_singleton] at hlen
    rcases hfails with hfails | hfails
    · exact .inr (.inl ⟨⟨_, hfails, nofun, nofun, fun j => ⟨nofun, nofun⟩⟩, after, hloop, hlen⟩)
    · exact .inr (.inl ⟨⟨_, hfails, nofun, nofun, fun j => ⟨nofun, nofun⟩⟩, after, hloop, hlen⟩)
  · rw [hplaced] at hafter
    obtain ⟨rest, hrest⟩ := prefix_uniqueChildPath
      (List.append_ne_nil_of_right_ne_nil _ (List.cons_ne_nil _ _))
      (dot_notMem_number ((directoryTaskPaths toLowercase tasks).length + 1)) tasks
      (slugify lower ((firstSentence content).getD "task".toList) ++ ".md".toList)
    exact .inr (.inr ⟨after, hloop, hnodup'', hafter, path, rest, named, hrest.symm, hnumbered,
      hnodes, hnamed⟩)

/-- The step that fails comes after the publication of the last of so many tasks, and before its
renames have begun. -/
def PublishedLast (failing : Option FileStep) (count : Nat) : Prop :=
  ∃ last, last + 1 = count ∧ (failing = some (.sync last) ∨ failing = some (.prepare last 0))

variable (failing toLowercase lower entry tasks) in
/-- Unless the last task is published, one that is not is missing. -/
theorem insertEntries_cases (hnodup : (childNames tasks).Nodup) (contents : List Text) :
    PublishedLast failing (entry + contents.length) ∧
        (∃ after, insertEntries failing toLowercase lower entry contents tasks = .error after ∧
          (shown after).Perm (shown tasks ++ contents.map taskFile)) ∨
      (∃ step, failing = some step ∧ step ≠ .createDir ∧ step ≠ .backup) ∧
        ¬ PublishedLast failing (entry + contents.length) ∧
        (∃ after, insertEntries failing toLowercase lower entry contents tasks = .error after ∧
          (shown after).length < (shown tasks).length + contents.length) ∨
      ∃ after, insertEntries failing toLowercase lower entry contents tasks = .ok after ∧
        (shown after).Perm (shown tasks ++ contents.map taskFile) := by
  induction contents generalizing entry tasks with
  | nil =>
    refine .inr (.inr ⟨tasks, rfl, ?_⟩)
    rw [List.map_nil, List.append_nil]
  | cons content rest ih =>
    have hrun : insertEntries failing toLowercase lower entry (content :: rest) tasks =
        insertContentIntoDirectory failing entry toLowercase lower content tasks >>=
          insertEntries failing toLowercase lower (entry + 1) rest := rfl
    have hcount : entry + 1 + rest.length = entry + (content :: rest).length := by
      rw [List.length_cons]
      omega
    rw [hrun]
    rcases insertContentIntoDirectory_cases failing toLowercase lower entry hnodup content with
      ⟨hfails, after, hstep, hafter⟩ | ⟨⟨step, hfails, hcreate, hbackup, hother⟩, after, hstep, hlen⟩ |
        ⟨next, hstep, hnodup', hnext, -⟩
    · rw [hstep]
      cases rest with
      | nil => exact .inl ⟨⟨entry, rfl, hfails⟩, after, rfl, hafter⟩
      | cons second rest =>
        refine .inr (.inl ⟨?_, ?_, after, rfl, ?_⟩)
        · rcases hfails with hfails | hfails
          · exact ⟨_, hfails, nofun, nofun⟩
          · exact ⟨_, hfails, nofun, nofun⟩
        · rintro ⟨last, hlast, hfails'⟩
          rw [List.length_cons, List.length_cons] at hlast
          have hsame : entry = last := by
            rcases hfails with hfails | hfails <;> rw [hfails] at hfails' <;> simpa using hfails'.symm
          omega
        · rw [hafter.length_eq, List.length_append, List.length_singleton, List.length_cons,
            List.length_cons]
          omega
    · rw [hstep]
      refine .inr (.inl ⟨⟨step, hfails, hcreate, hbackup⟩, ?_, after, rfl, ?_⟩)
      · rintro ⟨last, -, hfails'⟩
        rw [hfails, Option.some_inj, Option.some_inj] at hfails'
        rcases hfails' with hsync | hprepare
        · exact (hother last).1 hsync
        · exact (hother last).2 hprepare
      · rw [List.length_cons]
        omega
    · rw [hstep]
      have hmap : shown tasks ++ (content :: rest).map taskFile =
          (shown tasks ++ [taskFile content]) ++ rest.map taskFile := by
        rw [List.map_cons, List.append_assoc, List.singleton_append]
      have hall := hnext.append_right (rest.map taskFile)
      rw [hmap, ← hcount]
      rcases ih (entry + 1) _ hnodup' with ⟨hlast, after, hloop, hafter⟩ |
          ⟨hfails, hlast, after, hloop, hlen⟩ | ⟨after, hloop, hafter⟩
      · exact .inl ⟨hlast, after, hloop, hafter.trans hall⟩
      · refine .inr (.inl ⟨hfails, hlast, after, hloop, ?_⟩)
        rw [hnext.length_eq, List.length_append, List.length_singleton] at hlen
        rw [List.length_cons]
        omega
      · exact .inr (.inr ⟨after, hloop, hafter.trans hall⟩)

end Inserting

/-! ## Reading the board -/

section Reading

variable {toLowercase : Text → Text} {board tasks : Folder} {status : TaskStatus}

/-- The contents that are listed, without the whitespace at their ends, where a list has no line
break and a file has one. -/
def listedContents (toLowercase : Text → Text) (board : Folder) (status : TaskStatus) :
    Option (List Text) :=
  (readTaskEntries toLowercase board status).map fun entries =>
    entries.map fun entry => Text.trimEnd entry.content

/-- Each content that was listed is still listed, as often as it was. -/
def AllListed (toLowercase : Text → Text) (before after : Folder) (status : TaskStatus) : Prop :=
  ∀ contents, listedContents toLowercase before status = some contents →
    ∃ contents', listedContents toLowercase after status = some contents' ∧
      contents.Subperm contents'

/-- Every status has its store. -/
def HasStores (board : Folder) : Prop := ∀ status, statusStoreExists board status = true

theorem node?_putFolder (board : Folder) (name : Text) (tasks : Folder) (other : Text) :
    node? (putFolder board name tasks) other =
      if name = other then some (.folder tasks) else node? board other := by
  rw [putFolder, node?_append]
  by_cases h : name = other
  · subst h
    have hnone : node? (board.filter fun node => node.1 ≠ name) name = none := by
      rw [node?, Option.map_eq_none_iff, List.find?_eq_none]
      intro node hnode
      simpa using (List.mem_filter.mp hnode).2
    rw [hnone, if_pos rfl, if_pos rfl, Option.none_or]
  · have hsame : node? (board.filter fun node => node.1 ≠ name) other = node? board other := by
      rw [node?, node?, List.find?_filter]
      congr 2
      funext node
      by_cases hname : node.1 = other
      · simp [hname, Ne.symm h]
      · simp [hname]
    rw [hsame, if_neg h, if_neg h, Option.or_none]

theorem HasStores.not_blocked (h : HasStores board) : ¬ Blocked board := by
  rintro ⟨status, hblocked⟩
  have hstore := h status
  unfold statusStoreExists folderAt fileAt at hstore
  unfold storeNodes at hblocked
  rcases hdir : node? board status.dirName with _ | content | tasks <;>
    rcases hfile : node? board status.filename with _ | content' | children <;>
      simp_all [blockedNodes]

theorem HasStores.putFolder (h : HasStores board) (status : TaskStatus) (tasks : Folder) :
    HasStores (putFolder board status.dirName tasks) := by
  intro other
  by_cases hother : other = status
  · subst hother
    have hdir : folderAt (Clt.putFolder board other.dirName tasks) other.dirName = some tasks := by
      rw [folderAt, node?_putFolder, if_pos rfl]
    rw [statusStoreExists, hdir]
    rfl
  · have hne := names_ne hother
    have hstore := h other
    unfold statusStoreExists folderAt fileAt at hstore ⊢
    rw [node?_putFolder, node?_putFolder, if_neg hne.1.symm, if_neg hne.2.2.1.symm]
    exact hstore

theorem readTaskEntries_putFolder (h : HasStores board) :
    readTaskEntries toLowercase (putFolder board status.dirName tasks) status =
      some (readDirectoryEntries toLowercase tasks) := by
  have hdir : folderAt (putFolder board status.dirName tasks) status.dirName = some tasks := by
    rw [folderAt, node?_putFolder, if_pos rfl]
  rw [readTaskEntries_eq_some (h.putFolder status tasks).not_blocked, storeContent, hdir]
  rfl

variable (toLowercase) in
theorem readTaskEntries_folder (h : HasStores board)
    (hdir : folderAt board status.dirName = some tasks) :
    readTaskEntries toLowercase board status = some (readDirectoryEntries toLowercase tasks) := by
  rw [readTaskEntries_eq_some h.not_blocked, storeContent, hdir]
  rfl

variable (toLowercase) in
theorem readTaskEntries_list {text : Text} (h : HasStores board)
    (hdir : folderAt board status.dirName = none) (hfile : fileAt board status.filename = some text) :
    readTaskEntries toLowercase board status = some (readMarkdownEntries text) := by
  rw [readTaskEntries_eq_some h.not_blocked, storeContent, hdir, hfile]
  rfl

theorem length_readDirectoryEntries (tasks : Folder) :
    (readDirectoryEntries toLowercase tasks).length = (shown tasks).length := by
  rw [readDirectoryEntries, List.length_map, directoryTaskPaths,
    (Listing.sortByKey_perm _ _).length_eq, shown, List.length_map]

/-- The text of a task's file, without what stands at its end. -/
def fileContent : Node → Text
  | .file content => Text.trimEnd content
  | .folder _ => []

variable (toLowercase) in
/-- A folder that shows the files of so many tasks has their contents. -/
theorem readDirectoryEntries_taskFile {contents : List Text}
    (h : (shown tasks).Perm (contents.map taskFile)) :
    ((readDirectoryEntries toLowercase tasks).map fun entry => Text.trimEnd entry.content).Perm
      (contents.map Text.trimEnd) := by
  have hfiles : ∀ node ∈ shown tasks, ∃ content, node = .file content := by
    intro node hnode
    obtain ⟨content, -, rfl⟩ := List.mem_map.mp (h.subset hnode)
    exact ⟨_, rfl⟩
  have hlisted : ((directoryTaskPaths toLowercase tasks).map Prod.snd).Perm (shown tasks) :=
    (Listing.sortByKey_perm _ _).map _
  have hentries : (readDirectoryEntries toLowercase tasks).map
      (fun entry => Text.trimEnd entry.content) =
      ((directoryTaskPaths toLowercase tasks).map Prod.snd).map fileContent := by
    rw [readDirectoryEntries, List.map_map, List.map_map]
    refine List.map_congr_left fun task htask => ?_
    obtain ⟨content, hcontent⟩ := hfiles task.2 (hlisted.subset (List.mem_map_of_mem htask))
    show Text.trimEnd (directoryEntry task).content = fileContent task.2
    rw [directoryEntry, hcontent, fileContent]
  have hcontents : (contents.map taskFile).map fileContent = contents.map Text.trimEnd := by
    rw [List.map_map]
    refine List.map_congr_left fun content _ => ?_
    show Text.trimEnd (Text.trimEnd content ++ ['\n']) = Text.trimEnd content
    rw [Text.trimEnd_append_of_whitespace _ (w := ['\n']) ?_, Text.trimEnd_trimEnd]
    intro c hc
    rw [List.mem_singleton.mp hc]
    rfl
  rw [hentries, ← hcontents]
  exact (hlisted.trans h).map _

theorem not_allListed {before after : Folder} {entries entries' : List TaskEntry}
    (hbefore : readTaskEntries toLowercase before status = some entries)
    (hafter : readTaskEntries toLowercase after status = some entries')
    (hlt : entries'.length < entries.length) : ¬ AllListed toLowercase before after status := by
  intro hall
  obtain ⟨contents', hread, hsub⟩ := hall (entries.map fun entry => Text.trimEnd entry.content)
    (by rw [listedContents, hbefore]; rfl)
  rw [listedContents, hafter] at hread
  have hlen := hsub.length_le
  rw [← Option.some.inj hread, List.length_map, List.length_map] at hlen
  omega

theorem allListed_of_perm {before after : Folder} {entries entries' : List TaskEntry}
    (hbefore : readTaskEntries toLowercase before status = some entries)
    (hafter : readTaskEntries toLowercase after status = some entries')
    (hperm : (entries.map fun entry => Text.trimEnd entry.content).Perm
      (entries'.map fun entry => Text.trimEnd entry.content)) :
    AllListed toLowercase before after status := by
  intro contents hread
  rw [listedContents, hbefore] at hread
  rw [← Option.some.inj hread]
  exact ⟨_, by rw [listedContents, hafter]; rfl, hperm.subperm⟩

end Reading

/-! ## When every task stays listed -/

section Changes

variable (toLowercase : Text → Text) (lower : Char → Text) {board after done tasks : Folder}
  {status : TaskStatus} {step : FileStep}

/-- What is done to the tasks of a status. -/
inductive BoardChange where
  | normalize
  | reorder (taskName : Text) (toIdx : Nat)
  | convert
  | expand

def BoardChange.run (failing : Option FileStep) (board : Folder) (status : TaskStatus) :
    BoardChange → Except Folder Folder
  | normalize => inFolder status.dirName (normalizeDirectoryOrder failing 0 toLowercase) board
  | reorder taskName toIdx =>
    inFolder status.dirName (reorderPathInDirectory failing 0 toLowercase taskName toIdx) board
  | convert => convertStatusToDirectory failing toLowercase lower status board
  | expand => expandStatusForCommand failing toLowercase lower status board

/-- The tasks of the list of a status. -/
def listLength (board : Folder) (status : TaskStatus) : Nat :=
  ((fileAt board status.filename).map fun text => (readMarkdownEntries text).length).getD 0

/-- The steps that may fail: the first rename; or, of a list that becomes a folder, the making of
the folder, what is between the publication of the last task and the next rename, and the renaming
of the list. -/
def Harmless (board : Folder) (status : TaskStatus) (step : FileStep) : BoardChange → Prop
  | .normalize => step = .prepare 0 0
  | .reorder _ _ => step = .prepare 0 0
  | .convert => step = .createDir ∨ step = .backup ∨
      PublishedLast (some step) (listLength board status)
  | .expand => step = .createDir ∨ step = .backup ∨
      PublishedLast (some step) (listLength board status)

variable {toLowercase lower}

theorem inFolder_eq (hdir : folderAt board status.dirName = some tasks)
    (run : Folder → Except Folder Folder) :
    inFolder status.dirName run board =
      match run tasks with
      | .ok tasks => .ok (putFolder board status.dirName tasks)
      | .error tasks => .error (putFolder board status.dirName tasks) := by
  rw [inFolder, hdir]

theorem rewrite_allListed_iff {ordered : Folder} (hstores : HasStores board)
    (hdir : folderAt board status.dirName = some tasks) (hnodup : (childNames tasks).Nodup)
    (hordered : ordered.Perm (tasks.filter fun task => !isHidden task.1))
    (hfailed : inFolder status.dirName
      (rewriteDirectoryOrder (some step) 0 (childNames ordered)) board = .error after) :
    AllListed toLowercase board after status ↔ step = .prepare 0 0 := by
  rw [inFolder_eq hdir] at hfailed
  have hread := readTaskEntries_folder toLowercase hstores hdir
  rcases rewriteDirectoryOrder_cases (some step) 0 hnodup hordered with
    ⟨hfails, hrun⟩ | ⟨⟨k, hfails⟩, left, hrun, hlen⟩ | ⟨left, hrun, -⟩
  · rw [hrun] at hfailed
    obtain rfl := Except.error.inj hfailed
    refine iff_of_true ?_ (Option.some.inj hfails)
    exact allListed_of_perm hread (readTaskEntries_putFolder hstores) (List.Perm.refl _)
  · rw [hrun] at hfailed
    obtain rfl := Except.error.inj hfailed
    refine iff_of_false (not_allListed hread (readTaskEntries_putFolder hstores) ?_) ?_
    · rw [length_readDirectoryEntries, length_readDirectoryEntries]
      exact hlen
    · rintro rfl
      rcases hfails with hfails | hfails <;> cases hfails
  · rw [hrun] at hfailed
    cases hfailed

theorem listLength_eq {text : Text} (hfile : fileAt board status.filename = some text) :
    listLength board status = (readMarkdownEntries text).length := by
  rw [listLength, hfile]
  rfl

/-- A list that becomes a folder, from the making of the folder on. -/
theorem insertList_allListed_iff {text : Text} (hstores : HasStores board)
    (hdir : folderAt board status.dirName = none) (hfile : fileAt board status.filename = some text)
    (hfailed : (createStatusDir (some step) status board >>=
      insertList (some step) toLowercase lower status text) = .error after)
    (hfree : node? board status.dirName = none) :
    AllListed toLowercase board after status ↔
      step = .createDir ∨ step = .backup ∨
        PublishedLast (some step) (listLength board status) := by
  have hread := readTaskEntries_list toLowercase hstores hdir hfile
  rw [createStatusDir, hfree, Option.isSome_none, if_neg Bool.false_ne_true] at hfailed
  rcases takeStep_cases (some step) .createDir board (putFolder · status.dirName []) with
    ⟨hfails, hstep⟩ | ⟨hnot, hstep⟩
  · -- Without the folder the list is read as before.
    rw [hstep] at hfailed
    obtain rfl := Except.error.inj hfailed
    exact iff_of_true (allListed_of_perm hread hread (List.Perm.refl _))
      (.inl (Option.some.inj hfails))
  rw [hstep] at hfailed
  let contents := (readMarkdownEntries text).map TaskEntry.content
  let created := putFolder board status.dirName []
  have hcreated : HasStores created := hstores.putFolder status []
  have hempty : folderAt created status.dirName = some [] := by
    rw [folderAt, node?_putFolder, if_pos rfl]
  have hlength : listLength board status = 0 + contents.length := by
    rw [listLength_eq hfile, Nat.zero_add, List.length_map]
  have hlisted : ∀ left : Folder, (shown left).Perm (shown [] ++ contents.map taskFile) →
      AllListed toLowercase board (putFolder created status.dirName left) status := by
    intro left hleft
    refine allListed_of_perm hread (readTaskEntries_putFolder hcreated) ?_
    have hcontents := readDirectoryEntries_taskFile toLowercase hleft
    have hmap : contents.map Text.trimEnd =
        (readMarkdownEntries text).map fun entry => Text.trimEnd entry.content := by
      rw [List.map_map]
      rfl
    rw [hmap] at hcontents
    exact hcontents.symm
  have hinsert : insertList (some step) toLowercase lower status text created =
      inFolder status.dirName (insertEntries (some step) toLowercase lower 0 contents) created >>=
        fun board => takeStep (some step) .backup board
          (renameChild · status.filename
            (uniqueChildPath board (status.filename ++ ".bak".toList))) := rfl
  have hfailed' : insertList (some step) toLowercase lower status text created = .error after :=
    hfailed
  rw [hinsert, inFolder_eq hempty] at hfailed'
  rcases insertEntries_cases (some step) toLowercase lower 0 [] List.nodup_nil contents with
    ⟨hlast, left, hloop, hleft⟩ | ⟨⟨_, hsome, hcreate, hbackup⟩, hlast, left, hloop, hlen⟩ |
      ⟨left, hloop, hleft⟩
  · rw [hloop] at hfailed'
    obtain rfl := Except.error.inj hfailed'
    rw [← hlength] at hlast
    exact iff_of_true (hlisted left hleft) (.inr (.inr hlast))
  · rw [hloop] at hfailed'
    obtain rfl := Except.error.inj hfailed'
    obtain rfl := Option.some.inj hsome
    rw [← hlength] at hlast
    refine iff_of_false (not_allListed hread (readTaskEntries_putFolder hcreated) ?_) ?_
    · rw [length_readDirectoryEntries]
      rw [List.length_map] at hlen
      have hnone : (shown []).length = 0 := rfl
      omega
    · rintro (h | h | h)
      · exact hcreate h
      · exact hbackup h
      · exact hlast h
  · rw [hloop] at hfailed'
    have hend : takeStep (some step) .backup (putFolder created status.dirName left)
        (renameChild · status.filename (uniqueChildPath (putFolder created status.dirName left)
          (status.filename ++ ".bak".toList))) = .error after := hfailed'
    rcases takeStep_cases (some step) .backup (putFolder created status.dirName left)
        (renameChild · status.filename (uniqueChildPath (putFolder created status.dirName left)
          (status.filename ++ ".bak".toList))) with ⟨hfails, hstep'⟩ | ⟨-, hstep'⟩
    · rw [hstep'] at hend
      obtain rfl := Except.error.inj hend
      exact iff_of_true (hlisted left hleft) (.inr (.inl (Option.some.inj hfails)))
    · rw [hstep'] at hend
      cases hend

theorem convert_eq {text : Text} (failing : Option FileStep)
    (hdir : folderAt board status.dirName = none)
    (hfile : fileAt board status.filename = some text) :
    convertStatusToDirectory failing toLowercase lower status board =
      createStatusDir failing status board >>=
        insertList failing toLowercase lower status text := by
  unfold convertStatusToDirectory
  rw [hdir, Option.isSome_none, if_neg Bool.false_ne_true]
  unfold createStatusDir
  by_cases hfree : (node? board status.dirName).isSome = true
  · rw [if_pos hfree]
    rfl
  rw [if_neg hfree]
  rcases takeStep_cases failing .createDir board (putFolder · status.dirName []) with
    ⟨-, hstep⟩ | ⟨-, hstep⟩
  · rw [hstep]
    rfl
  · rw [hstep]
    -- The list is where it was.
    have hsame : node? (putFolder board status.dirName []) status.filename =
        some (.file text) := by
      rw [node?_putFolder, if_neg (dirName_ne_filename status)]
      unfold fileAt at hfile
      split at hfile
      · rename_i content hnode
        rw [hnode, Option.some.inj hfile]
      · cases hfile
    show (match node? (putFolder board status.dirName []) status.filename with
      | none => _
      | some (.folder _) => _
      | some (.file text) => _) = _
    rw [hsame]
    rfl

theorem node?_dirName_eq_none {run : Folder → Except Folder Folder}
    (hdone : (createStatusDir none status board >>= run) = .ok done) :
    node? board status.dirName = none := by
  cases hfree : node? board status.dirName with
  | none => rfl
  | some node =>
    rw [createStatusDir, hfree, Option.isSome_some, if_pos rfl] at hdone
    cases hdone

end Changes

/-- When one step of a change fails that would have been done otherwise, every task stays listed
exactly when that step is a harmless one. -/
theorem all_listed_iff {toLowercase : Text → Text} {lower : Char → Text} {board after done : Folder}
    {status : TaskStatus} {step : FileStep} (change : BoardChange) (hstores : HasStores board)
    (hnames : ∀ tasks, folderAt board status.dirName = some tasks → (childNames tasks).Nodup)
    (hdone : change.run toLowercase lower none board status = .ok done)
    (hfailed : change.run toLowercase lower (some step) board status = .error after) :
    AllListed toLowercase board after status ↔
      Harmless board status step change := by
  have hfile (hdir : folderAt board status.dirName = none) :
      ∃ text, fileAt board status.filename = some text := by
    have hstore := hstores status
    rw [statusStoreExists, hdir, Option.isSome_none, Bool.false_or] at hstore
    exact Option.isSome_iff_exists.mp hstore
  cases hdir : folderAt board status.dirName with
  | some tasks =>
    cases change with
    | normalize =>
      have hrun : BoardChange.run toLowercase lower (some step) board status .normalize =
          inFolder status.dirName (normalizeDirectoryOrder (some step) 0 toLowercase) board := rfl
      rw [hrun, inFolder_eq hdir] at hfailed
      have hordered : (directoryTaskPaths toLowercase tasks).Perm
          (tasks.filter fun task => !isHidden task.1) := Listing.sortByKey_perm _ _
      refine rewrite_allListed_iff hstores hdir (hnames tasks hdir) hordered ?_
      rw [inFolder_eq hdir]
      exact hfailed
    | reorder taskName toIdx =>
      have hrun (failing : Option FileStep) : BoardChange.run toLowercase lower failing board status
          (.reorder taskName toIdx) = inFolder status.dirName
            (reorderPathInDirectory failing 0 toLowercase taskName toIdx) board := rfl
      rw [hrun, inFolder_eq hdir] at hdone hfailed
      unfold reorderPathInDirectory at hdone hfailed
      dsimp only at hdone hfailed
      cases hfound : (directoryTaskPaths toLowercase tasks).findIdx? fun path =>
          path.1 == taskName with
      | none =>
        rw [hfound] at hdone
        cases hdone
      | some fromIdx =>
        rw [hfound] at hfailed
        have hordered := (Listing.moveTo_perm (directoryTaskPaths toLowercase tasks) fromIdx
          toIdx).trans (Listing.sortByKey_perm _ _)
        refine rewrite_allListed_iff hstores hdir (hnames tasks hdir) hordered ?_
        rw [inFolder_eq hdir]
        exact hfailed
    | convert =>
      have hrun : convertStatusToDirectory (some step) toLowercase lower status board =
          .ok board := by
        rw [convertStatusToDirectory, hdir]
        rfl
      cases hrun.symm.trans hfailed
    | expand =>
      have hrun : expandStatusForCommand (some step) toLowercase lower status board =
          .ok board := by
        rw [expandStatusForCommand, hdir]
        rfl
      cases hrun.symm.trans hfailed
  | none =>
    obtain ⟨text, htext⟩ := hfile hdir
    cases change with
    | normalize =>
      have hrun : inFolder status.dirName (normalizeDirectoryOrder (some step) 0 toLowercase)
          board = .ok board := by
        rw [inFolder, hdir]
      cases hrun.symm.trans hfailed
    | reorder taskName toIdx =>
      have hrun : inFolder status.dirName
          (reorderPathInDirectory (some step) 0 toLowercase taskName toIdx) board = .ok board := by
        rw [inFolder, hdir]
      cases hrun.symm.trans hfailed
    | convert =>
      have hdone' := (convert_eq none hdir htext).symm.trans hdone
      have hfailed' := (convert_eq (some step) hdir htext).symm.trans hfailed
      exact insertList_allListed_iff hstores hdir htext hfailed' (node?_dirName_eq_none hdone')
    | expand =>
      have hrun (failing : Option FileStep) :
          expandStatusForCommand failing toLowercase lower status board =
            createStatusDir failing status board >>=
              insertList failing toLowercase lower status text := by
        rw [expandStatusForCommand, hdir, htext]
        rfl
      exact insertList_allListed_iff hstores hdir htext ((hrun _).symm.trans hfailed)
        (node?_dirName_eq_none ((hrun none).symm.trans hdone))

/-- A board with two tasks in a folder, and lists. -/
def twoTasks : Folder :=
  [("0001-a.md".toList, .file "A\n".toList), ("0002-b.md".toList, .file "B\n".toList)]

def twoTaskBoard : Folder :=
  [("todo".toList, .folder twoTasks), ("doing.md".toList, .file "- C\n".toList),
    ("done.md".toList, .file []), ("backlog.md".toList, .file [])]

theorem hasStores_twoTaskBoard : HasStores twoTaskBoard := by
  intro status
  cases status <;> decide

/-- The first rename fails on the two tasks, and nothing has changed. -/
theorem all_listed_first_rename :
    AllListed (List.map Char.toLower) twoTaskBoard
      (putFolder twoTaskBoard "todo".toList twoTasks) .todo :=
  (@all_listed_iff _ (fun c => [c.toLower]) _ _ (putFolder twoTaskBoard "todo".toList twoTasks)
      .todo (.prepare 0 0) .normalize hasStores_twoTaskBoard
    (fun tasks htasks => by
      obtain rfl : twoTasks = tasks := Option.some.inj htasks
      decide) rfl rfl).mpr rfl

/-- The second rename fails on the two tasks, and the first one is hidden. -/
theorem second_rename_hides_first :
    ∃ after, BoardChange.run (List.map Char.toLower) (fun c => [c.toLower])
        (some (.prepare 0 1)) twoTaskBoard .todo .normalize = .error after ∧
      ¬ AllListed (List.map Char.toLower) twoTaskBoard after .todo := by
  let left : List TaskEntry := [⟨.path "0002-b.md".toList false, "B\n".toList, false⟩]
  refine ⟨_, rfl, @not_allListed _ _ _ _ (readDirectoryEntries (List.map Char.toLower) twoTasks)
    left ?_ ?_ ?_⟩
  · decide
  · decide
  · decide

end Clt
