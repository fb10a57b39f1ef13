import Mathlib.Algebra.Order.Group.Multiset
import Mathlib.Tactic.Abel
import Clt.Listing.Marked
import Clt.Task.BoardWrite
import Clt.Transition.Exec

/-!
# A board of Markdown lists

The commands on a board whose statuses are Markdown files: adding, deleting, editing, reordering
and moving a task. Each reads the lines of a file, changes one of them and writes the file
again; a move writes the list it goes to first and may be stopped before it writes the other.
Every run of commands does to the files what it does to lists of tasks (`board_refines`), and
a task is only ever lost where it is deleted or edited (`tasks_kept`).
-/

namespace Clt

open Files Listing

/-! ## The commands -/

/-- The text of a line that lists a task. -/
def listedTask (line : Text) : Option Text := stripPrefix "- ".toList line

/-- The list of a status that is stored in a Markdown file. -/
def markdownList (board : Folder) (status : TaskStatus) : Option Text :=
  match storeContent board status with
  | .list text => some text
  | _ => none

/-- The board with another Markdown file for the status. -/
def writeList (board : Folder) (status : TaskStatus) (lines : List Text) : Folder :=
  setFile board (Text.writeLines lines) [status.filename]

/-- `insert_content_into_markdown`. -/
def insertContentIntoMarkdown (index : Option Nat) (content : Text) (lines : List Text) :
    List Text :=
  match index with
  | some i => insertMarked listedTask lines i (taskLine content)
  | none => lines ++ [taskLine content]

/-- `content_with_metadata`. -/
def contentWithMetadata (description : Text) : Option Text → Text
  | some metadata => description ++ " (".toList ++ metadata ++ [')']
  | none => description

/-- `insert_task_content`. -/
def insertTaskContent (board : Folder) (status : TaskStatus) (index : Option Nat)
    (content : Text) : Option Folder :=
  (markdownList board status).map fun stored =>
    writeList board status (insertContentIntoMarkdown index content (Text.lines stored))

/-- `remove_task_entry`, and `remove_task_entry_without_reordering`, of a line of a list. -/
def removeTaskEntry (board : Folder) (status : TaskStatus) (entry : TaskEntry) : Option Folder := do
  let .markdownLine lineIndex := entry.source | none
  let stored ← markdownList board status
  let lines := Text.lines stored
  if lineIndex < lines.length then some (writeList board status (lines.eraseIdx lineIndex))
  else none

/-- `reorder_markdown_task`. -/
def reorderMarkdownTask (board : Folder) (status : TaskStatus) (fromIndex toIndex : Nat) :
    Option Folder := do
  let stored ← markdownList board status
  let lines := Text.lines stored
  let actual ← (positions listedTask lines)[fromIndex]?
  let line ← lines[actual]?
  some (writeList board status (insertMarked listedTask (lines.eraseIdx actual) toIndex line))

section

variable (toLowercase : Text → Text)

/-- `task_entry_at`, of the task at a zero-based index. -/
def taskEntryAt (board : Folder) (status : TaskStatus) (index : Nat) : Option TaskEntry := do
  let entries ← readTaskEntries toLowercase board status
  entries[index]?

/-- `prioritize_task_after_lock` of a line of a list. -/
def prioritizeTask (board : Folder) (status : TaskStatus) (entry : TaskEntry) : Option Folder := do
  let entries ← readTaskEntries toLowercase board status
  let index ← entries.findIdx? fun task =>
    task.source == entry.source && task.content == entry.content
  reorderMarkdownTask board status index 0

/-- Where a task is inserted into the list it is moved to. -/
def moveIndex (dest : TaskStatus) : Option Nat := if dest = .done then some 0 else none

/-- `move_task_without_reordering_with_after_destination` from list to list. It may be stopped
after the destination. -/
def moveTaskWithoutReordering (stopped : Bool) (board : Folder) (source dest : TaskStatus)
    (index : Nat) : Option Folder := do
  let entry ← taskEntryAt toLowercase board source index
  let board ← insertTaskContent board dest (moveIndex dest) entry.content
  if stopped then some board else removeTaskEntry board source entry

/-- `move_task_in_board_after_lock` from list to list. -/
def moveTaskInBoard (stopped : Bool) (board : Folder) (source dest : TaskStatus) (index : Nat) :
    Option Folder :=
  if source = dest then (taskEntryAt toLowercase board source index).map fun _ => board
  else moveTaskWithoutReordering toLowercase stopped board source dest index

/-- A command on a board; indices count from zero. -/
inductive BoardCommand where
  | insertTask (status : TaskStatus) (index : Option Nat) (description : Text)
      (metadata : Option Text)
  | deleteTask (status : TaskStatus) (index : Nat)
  | updateTask (status : TaskStatus) (index : Nat) (content : Text)
  | reorderTask (status : TaskStatus) (fromIndex toIndex : Nat)
  | prioritizeTask (status : TaskStatus) (index : Nat)
  | moveTask (stopped : Bool) (source dest : TaskStatus) (index : Nat)
  | moveManaged (stopped : Bool) (source dest : TaskStatus) (index : Nat)

/-- What a command makes of the files; `none` when it is refused. -/
def BoardCommand.run (board : Folder) : BoardCommand → Option Folder
  | .insertTask status index description metadata =>
    insertTaskContent board status index (contentWithMetadata description metadata)
  | .deleteTask status index => do
    let entry ← taskEntryAt toLowercase board status index
    removeTaskEntry board status entry
  | .updateTask status index content => do
    let entry ← taskEntryAt toLowercase board status index
    writeTaskEntryContent board status entry content
  | .reorderTask status fromIndex toIndex => do
    let _ ← taskEntryAt toLowercase board status fromIndex
    reorderMarkdownTask board status fromIndex toIndex
  | .prioritizeTask status index => do
    let entry ← taskEntryAt toLowercase board status index
    Clt.prioritizeTask toLowercase board status entry
  | .moveTask stopped source dest index =>
    moveTaskInBoard toLowercase stopped board source dest index
  | .moveManaged stopped source dest index =>
    moveTaskWithoutReordering toLowercase stopped board source dest index

/-- A command that is refused leaves the files alone. -/
def BoardCommand.step (command : BoardCommand) (board : Folder) : Folder :=
  (command.run toLowercase board).getD board

end

/-! ## Lists of tasks -/

/-- What a board is for: the tasks of each status, in their order. -/
abbrev TaskLists : Type := TaskStatus → List Text

/-- Insert before the task at an index, or at the end. -/
def placeAt (tasks : List Text) : Option Nat → Text → List Text
  | some i, task => insertAt tasks i task
  | none, task => tasks ++ [task]

/-- A move of the task at an index, which is folded into one line on the way. -/
def TaskLists.move (lists : TaskLists) (stopped : Bool) (source dest : TaskStatus) (index : Nat) :
    Option TaskLists :=
  (lists source)[index]?.map fun task =>
    let inserted := Function.update lists dest
      (placeAt (lists dest) (moveIndex dest) (singleLineContent task))
    if stopped then inserted
    else Function.update inserted source ((inserted source).eraseIdx index)

/-- What a command makes of the lists; `none` when it is refused. -/
def BoardCommand.spec (lists : TaskLists) : BoardCommand → Option TaskLists
  | .insertTask status index description metadata =>
    some (Function.update lists status (placeAt (lists status) index
      (singleLineContent (contentWithMetadata description metadata))))
  | .deleteTask status index =>
    (lists status)[index]?.map fun _ =>
      Function.update lists status ((lists status).eraseIdx index)
  | .updateTask status index content =>
    (lists status)[index]?.map fun _ =>
      Function.update lists status ((lists status).set index (singleLineContent content))
  | .reorderTask status fromIndex toIndex =>
    (lists status)[fromIndex]?.map fun _ =>
      Function.update lists status (moveTo (lists status) fromIndex toIndex)
  | .prioritizeTask status index =>
    (lists status)[index]?.map fun _ =>
      Function.update lists status (moveTo (lists status) index 0)
  | .moveTask stopped source dest index =>
    if source = dest then (lists source)[index]?.map fun _ => lists
    else lists.move stopped source dest index
  | .moveManaged stopped source dest index => lists.move stopped source dest index

/-- What a command makes of the lists, when a refused one leaves them alone. -/
def BoardCommand.apply (command : BoardCommand) (lists : TaskLists) : TaskLists :=
  (command.spec lists).getD lists

/-! ## What the files hold -/

/-- The files hold the lists; what else stands in them are the notes. -/
def Represents (board : Folder) (lists : TaskLists) (notes : TaskStatus → List Text) : Prop :=
  ∀ status, ∃ text, storeContent board status = .list text ∧
    (Text.lines text).filterMap listedTask = lists status ∧
      unmarked listedTask (Text.lines text) = notes status ∧
        ∀ line ∈ Text.lines text, line.getLast? ≠ some '\r'

/-- Every file has a heading. -/
def Headed (notes : TaskStatus → List Text) : Prop := ∀ status, ∃ line ∈ notes status, line ≠ []

variable {toLowercase : Text → Text} {board board' : Folder} {lists : TaskLists}
  {notes : TaskStatus → List Text} {status : TaskStatus} {index : Nat} {lines : List Text}

theorem listedTask_taskLine (content : Text) :
    listedTask (taskLine content) = some (singleLineContent content) := rfl

/-- What was trimmed does not end in a carriage return. -/
theorem getLast?_trim (t : Text) : (Text.trim t).getLast? ≠ some '\r' := by
  intro hlast
  have hne : Text.trim t ≠ [] := by
    rintro hnil
    rw [hnil] at hlast
    cases hlast
  have hblank : ¬ Text.isWhitespace ((Text.trim t).getLast hne) = true :=
    List.rdropWhile_last_not Text.isWhitespace (Text.trimStart t) hne
  rw [List.getLast?_eq_some_getLast hne, Option.some.injEq] at hlast
  rw [hlast] at hblank
  exact hblank rfl

theorem getLast?_intercalate {parts : List Text}
    (h : ∀ part ∈ parts, part.getLast? ≠ some '\r') :
    (List.intercalate [' '] parts).getLast? ≠ some '\r' := by
  induction parts with
  | nil => exact (Option.some_ne_none _).symm
  | cons part parts ih =>
    obtain ⟨hpart, hparts⟩ := List.forall_mem_cons.mp h
    cases parts with
    | nil => simpa using hpart
    | cons next parts =>
      rw [List.intercalate_cons_cons, List.getLast?_append, List.getLast?_append]
      intro hlast
      rcases Option.or_eq_some_iff.mp hlast with hlast | ⟨-, hlast⟩
      · exact ih hparts hlast
      · cases hlast

/-- A folded task does not end in a carriage return. -/
theorem getLast?_singleLine (content : Text) : (taskLine content).getLast? ≠ some '\r' := by
  have hfolded : (singleLineContent content).getLast? ≠ some '\r' := by
    unfold singleLineContent
    dsimp only
    cases hsession : recoverableCodexSessionIdFromTaskContent content with
    | some sessionId =>
      obtain ⟨t, w, hsplit, hne, hword⟩ :=
        exists_word_withCodexSession (normalizeTaskText content) (isSessionId_of_recoverable hsession)
      dsimp only
      rw [hsplit, List.getLast?_append_of_ne_nil _ hne]
      intro hlast
      have hreturn := hword '\r' (List.mem_of_getLast? hlast)
      cases hreturn
    | none =>
      refine getLast?_intercalate fun part hpart => ?_
      obtain ⟨line, -, rfl⟩ := List.mem_map.mp hpart
      exact getLast?_trim _
  rw [taskLine, List.getLast?_append]
  intro hlast
  rcases Option.or_eq_some_iff.mp hlast with hlast | ⟨-, hlast⟩
  · exact hfolded hlast
  · cases hlast

/-- Lines that are read back as they were written. -/
structure ReadBack (lines : List Text) : Prop where
  newline : ∀ line ∈ lines, '\n' ∉ line
  carriage : ∀ line ∈ lines, line.getLast? ≠ some '\r'

theorem readBack_lines {text : Text}
    (h : ∀ line ∈ Text.lines text, line.getLast? ≠ some '\r') : ReadBack (Text.lines text) :=
  ⟨fun _ hline => Text.not_mem_of_mem_lines hline, h⟩

theorem readBack_taskLine (content : Text) : ReadBack [taskLine content] :=
  ⟨fun _ hline => by
    rw [List.mem_singleton.mp hline]
    exact newline_not_mem_taskLine content, fun _ hline => by
    rw [List.mem_singleton.mp hline]
    exact getLast?_singleLine content⟩

theorem ReadBack.of_subset {lines' : List Text} (h : ReadBack lines) (hsub : lines' ⊆ lines) :
    ReadBack lines' :=
  ⟨fun line hline => h.newline line (hsub hline), fun line hline => h.carriage line (hsub hline)⟩

theorem ReadBack.append {lines' : List Text} (h : ReadBack lines) (h' : ReadBack lines') :
    ReadBack (lines ++ lines') := by
  constructor
  · intro line hline
    exact (List.mem_append.mp hline).elim (h.newline line) (h'.newline line)
  · intro line hline
    exact (List.mem_append.mp hline).elim (h.carriage line) (h'.carriage line)

theorem lines_written (h : ReadBack lines) (hheaded : ∃ line ∈ lines, line ≠ []) :
    Text.lines (Text.writeLines lines) = lines := by
  obtain ⟨line, hline, hne⟩ := hheaded
  rw [Text.lines_writeLines h.newline]
  · refine (List.map_congr_left fun l hl => ?_).trans (List.map_id lines)
    exact Text.stripCr_eq_self.mpr (h.carriage l hl)
  · rintro rfl
    exact hne (List.mem_singleton.mp hline)

theorem markdownList_eq {text : Text} (h : storeContent board status = .list text) :
    markdownList board status = some text := by
  rw [markdownList, h]

/-- Where a list is written, the others are as they were. -/
theorem storeContent_writeList {text : Text} (h : storeContent board status = .list text)
    (other : TaskStatus) :
    storeContent (writeList board status lines) other =
      if status = other then .list (Text.writeLines lines) else storeContent board other := by
  obtain ⟨hdir, -⟩ := storeContent_list h
  have hfolder : folderAt (writeList board status lines) other.dirName =
      folderAt board other.dirName := by
    rw [writeList, setFile_singleton, folderAt, node?_setNode, if_neg, folderAt]
    intro hsame
    by_cases hother : status = other
    · subst hother
      exact dirName_ne_filename status hsame.symm
    · exact (names_ne hother).2.2.1 hsame
  have hfile : fileAt (writeList board status lines) other.filename =
      if status = other then some (Text.writeLines lines) else fileAt board other.filename := by
    rw [writeList, setFile_singleton, fileAt_setNode_file]
    by_cases hother : status = other
    · rw [if_pos (by rw [hother]), if_pos hother]
    · rw [if_neg (names_ne hother).2.2.2, if_neg hother]
  unfold storeContent
  rw [hfolder, hfile]
  by_cases hother : status = other
  · subst hother
    rw [if_pos rfl, if_pos rfl, hdir]
  · rw [if_neg hother, if_neg hother]

/-- A list is written. -/
theorem Represents.write (h : Represents board lists notes) (hnotes : Headed notes)
    {tasks : List Text} (hlines : ReadBack lines) (htasks : lines.filterMap listedTask = tasks)
    (hkept : unmarked listedTask lines = notes status) :
    Represents (writeList board status lines) (Function.update lists status tasks) notes := by
  intro other
  obtain ⟨text, hstore, -⟩ := h status
  rw [storeContent_writeList hstore]
  by_cases hother : status = other
  · subst hother
    obtain ⟨line, hline, hne⟩ := hnotes status
    rw [← hkept] at hline
    have hread : Text.lines (Text.writeLines lines) = lines :=
      lines_written hlines ⟨line, (List.mem_filter.mp hline).1, hne⟩
    refine ⟨Text.writeLines lines, by rw [if_pos rfl], ?_, ?_, ?_⟩
    · rw [hread, htasks, Function.update_self]
    · rw [hread, hkept]
    · rw [hread]
      exact hlines.carriage
  · rw [if_neg hother, Function.update_of_ne (Ne.symm hother)]
    exact h other

/-! ## What is listed -/

/-- A board of lists can be read. -/
theorem Represents.read (h : Represents board lists notes) (toLowercase : Text → Text)
    {text : Text} (hstore : storeContent board status = .list text) :
    readTaskEntries toLowercase board status = some (readMarkdownEntries text) := by
  have hfree : ¬ Blocked board := by
    rintro ⟨other, hblocked⟩
    obtain ⟨text', hstore', -⟩ := h other
    obtain ⟨hdir, hfile⟩ := storeContent_list hstore'
    unfold storeNodes at hblocked
    rcases hnode : node? board other.dirName with _ | content | tasks
    · rcases hfile' : node? board other.filename with _ | content' | children
      · simp [fileAt, hfile'] at hfile
      · rw [hnode, hfile'] at hblocked
        cases hblocked
      · simp [fileAt, hfile'] at hfile
    · rcases hfile' : node? board other.filename with _ | content' | children
      · simp [fileAt, hfile'] at hfile
      · rw [hnode, hfile'] at hblocked
        cases hblocked
      · simp [fileAt, hfile'] at hfile
    · simp [folderAt, hnode] at hdir
  rw [readTaskEntries_eq_some hfree, hstore]
  rfl

/-- The sources of the entries are the places of their lines. -/
theorem source_readMarkdownEntries (text : Text) :
    (readMarkdownEntries text).map TaskEntry.source =
      (positions listedTask (Text.lines text)).map TaskSource.markdownLine := by
  unfold readMarkdownEntries positions
  generalize (Text.lines text).zipIdx = items
  induction items with
  | nil => rfl
  | cons item items ih =>
    obtain ⟨line, i⟩ := item
    cases hline : stripPrefix "- ".toList line with
    | none =>
      simp only [List.filterMap_cons, List.filter_cons, listedTask, hline, Option.map_none,
        Option.isSome_none, Bool.false_eq_true, if_false]
      exact ih
    | some task =>
      simp only [List.filterMap_cons, List.filter_cons, listedTask, hline, Option.map_some,
        Option.isSome_some, if_true, List.map_cons]
      exact congrArg _ ih

/-- An entry is found at an index where the list has a task, with the place of its line. -/
theorem getElem?_readMarkdownEntries {text : Text} {task : Text}
    (h : ((Text.lines text).filterMap listedTask)[index]? = some task) :
    ∃ k, (positions listedTask (Text.lines text))[index]? = some k ∧
      (readMarkdownEntries text)[index]? = some ⟨.markdownLine k, task, false⟩ := by
  have hlt : index < (positions listedTask (Text.lines text)).length := by
    rw [length_positions]
    exact (List.getElem?_eq_some_iff.mp h).1
  refine ⟨(positions listedTask (Text.lines text))[index], List.getElem?_eq_getElem hlt, ?_⟩
  have hlength : index < (readMarkdownEntries text).length := by
    have hmap := congrArg List.length (source_readMarkdownEntries text)
    rw [List.length_map, List.length_map] at hmap
    omega
  rw [List.getElem?_eq_getElem hlength]
  have hsource := congrArg (fun l => l[index]?) (source_readMarkdownEntries text)
  have hcontent := congrArg (fun l => l[index]?) (content_readMarkdownEntries text)
  simp only [List.getElem?_map, List.getElem?_eq_getElem hlength, List.getElem?_eq_getElem hlt,
    Option.map_some, Option.some.injEq] at hsource
  rw [List.getElem?_map, List.getElem?_eq_getElem hlength, Option.map_some] at hcontent
  have hcontent' := hcontent.trans h
  obtain ⟨i, line, -, -, -, hsubtasks⟩ := mem_readMarkdownEntries.mp (List.getElem_mem hlength)
  generalize (readMarkdownEntries text)[index] = entry at hsource hcontent' hsubtasks
  obtain ⟨source, content, subtasks⟩ := entry
  cases hsource
  cases hcontent'
  cases hsubtasks
  rfl

/-- No entry is found at an index where the list has no task. -/
theorem getElem?_readMarkdownEntries_none {text : Text}
    (h : ((Text.lines text).filterMap listedTask)[index]? = none) :
    (readMarkdownEntries text)[index]? = none := by
  have hlength := congrArg List.length (content_readMarkdownEntries text)
  rw [List.length_map] at hlength
  rw [List.getElem?_eq_none_iff] at h ⊢
  exact hlength.trans_le h

/-- The task at an index is read with the place of its line, or there is none. -/
theorem Represents.entry (h : Represents board lists notes) (toLowercase : Text → Text)
    (status : TaskStatus) (index : Nat) :
    ((lists status)[index]? = none ∧ taskEntryAt toLowercase board status index = none) ∨
      ∃ text task k, storeContent board status = .list text ∧
        (positions listedTask (Text.lines text))[index]? = some k ∧
          (lists status)[index]? = some task ∧
            taskEntryAt toLowercase board status index = some ⟨.markdownLine k, task, false⟩ := by
  obtain ⟨text, hstore, htasks, -⟩ := h status
  have hread : taskEntryAt toLowercase board status index = (readMarkdownEntries text)[index]? := by
    rw [taskEntryAt, h.read toLowercase hstore]
    rfl
  rw [hread, ← htasks]
  cases htask : ((Text.lines text).filterMap listedTask)[index]? with
  | none => exact .inl ⟨rfl, getElem?_readMarkdownEntries_none htask⟩
  | some task =>
    obtain ⟨k, hk, hentry⟩ := getElem?_readMarkdownEntries htask
    exact .inr ⟨text, task, k, hstore, hk, rfl, hentry⟩

/-! ## What a command does to the files -/

/-- An outcome on the files is the one on the lists. -/
inductive Matches (notes : TaskStatus → List Text) : Option Folder → Option TaskLists → Prop
  | refused : Matches notes none none
  | done {b : Folder} {l : TaskLists} (h : Represents b l notes) : Matches notes (some b) (some l)

section

variable (h : Represents board lists notes) (hnotes : Headed notes)

include h hnotes

theorem represents_insertTaskContent (status : TaskStatus) (index : Option Nat) (content : Text) :
    ∃ board', insertTaskContent board status index content = some board' ∧
      Represents board' (Function.update lists status
        (placeAt (lists status) index (singleLineContent content))) notes ∧
      ∀ other, status ≠ other → storeContent board' other = storeContent board other := by
  obtain ⟨text, hstore, htasks, hkept, hplain⟩ := h status
  refine ⟨_, by rw [insertTaskContent, markdownList_eq hstore]; rfl, ?_, fun other hother => ?_⟩
  · cases index with
    | none =>
      refine h.write hnotes ((readBack_lines hplain).append (readBack_taskLine content)) ?_ ?_
      · show (Text.lines text ++ [taskLine content]).filterMap listedTask = _
        rw [List.filterMap_append, htasks]
        rfl
      · show unmarked listedTask (Text.lines text ++ [taskLine content]) = _
        rw [unmarked_append, hkept]
        exact List.append_nil _
    | some i =>
      refine h.write hnotes (((readBack_lines hplain).append (readBack_taskLine content)).of_subset
        fun line hline => ?_) ?_ ?_
      · rcases List.eq_or_mem_of_mem_insertIdx hline with rfl | hline
        · exact List.mem_append_right _ List.mem_cons_self
        · exact List.mem_append_left _ hline
      · rw [← htasks]
        exact filterMap_insertMarked _ i (listedTask_taskLine content)
      · rw [← hkept]
        exact unmarked_insertMarked _ i (listedTask_taskLine content)
  · rw [storeContent_writeList hstore, if_neg hother]

variable {text task : Text} {k : Nat} (hstore : storeContent board status = .list text)
  (hk : (positions listedTask (Text.lines text))[index]? = some k)

include hstore hk

theorem represents_removeTaskEntry (task : Text) :
    ∃ board', removeTaskEntry board status ⟨.markdownLine k, task, false⟩ = some board' ∧
      Represents board' (Function.update lists status ((lists status).eraseIdx index)) notes := by
  obtain ⟨text', hstore', htasks, hkept, hplain⟩ := h status
  cases hstore.symm.trans hstore'
  obtain ⟨line, listed, hline, -⟩ := exists_getElem?_of_positions hk
  have hlt : k < (Text.lines text).length := (List.getElem?_eq_some_iff.mp hline).1
  refine ⟨writeList board status ((Text.lines text).eraseIdx k), ?_, ?_⟩
  · simp [removeTaskEntry, markdownList_eq hstore, hlt]
  · refine h.write hnotes ((readBack_lines hplain).of_subset (List.eraseIdx_subset)) ?_ ?_
    · rw [filterMap_eraseIdx hk, htasks]
    · rw [unmarked_eraseIdx hk, hkept]

theorem represents_reorderMarkdownTask (toIndex : Nat) :
    ∃ board', reorderMarkdownTask board status index toIndex = some board' ∧
      Represents board' (Function.update lists status (moveTo (lists status) index toIndex))
        notes := by
  obtain ⟨text', hstore', htasks, hkept, hplain⟩ := h status
  cases hstore.symm.trans hstore'
  obtain ⟨line, task, hline, hlisted, htask⟩ := exists_getElem?_of_positions hk
  have hmoved : (insertMarked listedTask ((Text.lines text).eraseIdx k) toIndex line).filterMap
      listedTask = moveTo (lists status) index toIndex := by
    rw [filterMap_insertMarked _ _ hlisted, filterMap_eraseIdx hk, moveTo, ← htasks, htask]
  refine ⟨_, ?_, h.write hnotes ((readBack_lines hplain).of_subset fun l hl => ?_) hmoved ?_⟩
  · simp only [reorderMarkdownTask, markdownList_eq hstore, hk, hline, Option.bind_eq_bind,
      Option.bind_some]
  · rcases List.eq_or_mem_of_mem_insertIdx hl with rfl | hl
    · exact List.mem_of_getElem? hline
    · exact List.eraseIdx_subset hl
  · rw [unmarked_insertMarked _ _ hlisted, unmarked_eraseIdx hk, hkept]

theorem represents_writeTaskEntryContent (content : Text)
    (htask : (lists status)[index]? = some task) :
    ∃ board', writeTaskEntryContent board status ⟨.markdownLine k, task, false⟩ content =
        some board' ∧
      Represents board' (Function.update lists status
        ((lists status).set index (singleLineContent content))) notes := by
  obtain ⟨text', hstore', htasks, hkept, hplain⟩ := h status
  cases hstore.symm.trans hstore'
  obtain ⟨line, listed, hline, hlisted, hlisted'⟩ := exists_getElem?_of_positions hk
  rw [htasks, htask] at hlisted'
  cases hlisted'
  refine ⟨writeList board status ((Text.lines text).set k (taskLine content)), ?_, ?_⟩
  · have hsame : (Text.lines text)[k]?.bind (stripPrefix "- ".toList) = some task := by
      rw [hline]
      exact hlisted
    simp only [writeTaskEntryContent, hstore, hsame, if_true, taskFilePath]
    rfl
  · refine h.write hnotes (((readBack_lines hplain).append (readBack_taskLine content)).of_subset
      fun l hl => ?_) ?_ ?_
    · rcases List.mem_or_eq_of_mem_set hl with hl | rfl
      · exact List.mem_append_left _ hl
      · exact List.mem_append_right _ List.mem_cons_self
    · rw [filterMap_set hk (listedTask_taskLine content), htasks]
    · rw [unmarked_set hk (listedTask_taskLine content), hkept]

end

/-- The task at an index is found again by its source and its text. -/
theorem findIdx?_readMarkdownEntries {text task : Text} {k : Nat}
    (hk : (positions listedTask (Text.lines text))[index]? = some k)
    (hentry : (readMarkdownEntries text)[index]? = some ⟨.markdownLine k, task, false⟩) :
    ((readMarkdownEntries text).findIdx? fun entry =>
      entry.source == .markdownLine k && entry.content == task) = some index := by
  obtain ⟨hlt, hget⟩ := List.getElem?_eq_some_iff.mp hentry
  refine List.findIdx?_eq_some_iff_getElem.mpr ⟨hlt, by rw [hget]; simp, fun j hj => ?_⟩
  intro hfound
  rw [Bool.and_eq_true, beq_iff_eq] at hfound
  have hsource := congrArg (fun l => l[j]?) (source_readMarkdownEntries text)
  simp only [List.getElem?_map, List.getElem?_eq_getElem (hj.trans hlt), Option.map_some,
    hfound.1] at hsource
  obtain ⟨k', hk', heq⟩ := Option.map_eq_some_iff.mp hsource.symm
  cases heq
  -- No two tasks stand on one line.
  exact hj.ne ((List.getElem?_inj (List.getElem?_eq_some_iff.mp hk').1
    (nodup_positions (Text.lines text))).mp (hk'.trans hk.symm))

/-- A move without renumbering goes to another list. -/
def BoardCommand.BetweenLists : BoardCommand → Prop
  | .moveManaged _ source dest _ => source ≠ dest
  | _ => True

section

variable (h : Represents board lists notes) (hnotes : Headed notes)

include h hnotes

theorem matches_move (stopped : Bool) {source dest : TaskStatus} (hne : source ≠ dest)
    (index : Nat) :
    Matches notes (moveTaskWithoutReordering toLowercase stopped board source dest index)
      (lists.move stopped source dest index) := by
  unfold moveTaskWithoutReordering TaskLists.move
  rcases h.entry toLowercase source index with ⟨hnone, hentry⟩ |
    ⟨text, task, k, hstore, hk, htask, hentry⟩
  · rw [hnone, hentry]
    exact .refused
  · obtain ⟨board', hinsert, hinserted, hothers⟩ :=
      represents_insertTaskContent h hnotes dest (moveIndex dest) task
    rw [htask, hentry]
    dsimp only [Option.bind_eq_bind, Option.bind_some, Option.map_some]
    rw [hinsert, Option.bind_some]
    cases stopped with
    | true => exact .done hinserted
    | false =>
      -- The other list has not changed, so the line is still where it was read.
      obtain ⟨board'', hremove, hremoved⟩ := represents_removeTaskEntry hinserted hnotes
        ((hothers source hne.symm).trans hstore) hk task
      rw [if_neg (by decide), if_neg (by decide), hremove]
      exact .done hremoved

/-- Each command does to the files what it does to the lists. -/
theorem BoardCommand.matches (toLowercase : Text → Text) (command : BoardCommand)
    (hbetween : command.BetweenLists) :
    Matches notes (command.run toLowercase board) (command.spec lists) := by
  cases command with
  | insertTask status index description metadata =>
    obtain ⟨board', hinsert, hinserted, -⟩ := represents_insertTaskContent h hnotes status index
      (contentWithMetadata description metadata)
    rw [BoardCommand.run, hinsert]
    exact .done hinserted
  | deleteTask status index =>
    rcases h.entry toLowercase status index with ⟨hnone, hentry⟩ |
      ⟨text, task, k, hstore, hk, htask, hentry⟩
    · rw [BoardCommand.run, BoardCommand.spec, hnone, hentry]
      exact .refused
    · obtain ⟨board', hremove, hremoved⟩ := represents_removeTaskEntry h hnotes hstore hk task
      rw [BoardCommand.run, BoardCommand.spec, htask, hentry, Option.bind_eq_bind,
        Option.bind_some, hremove]
      exact .done hremoved
  | updateTask status index content =>
    rcases h.entry toLowercase status index with ⟨hnone, hentry⟩ |
      ⟨text, task, k, hstore, hk, htask, hentry⟩
    · rw [BoardCommand.run, BoardCommand.spec, hnone, hentry]
      exact .refused
    · obtain ⟨board', hwrite, hwritten⟩ :=
        represents_writeTaskEntryContent h hnotes hstore hk content htask
      rw [BoardCommand.run, BoardCommand.spec, htask, hentry, Option.bind_eq_bind,
        Option.bind_some, hwrite]
      exact .done hwritten
  | reorderTask status fromIndex toIndex =>
    rcases h.entry toLowercase status fromIndex with ⟨hnone, hentry⟩ |
      ⟨text, task, k, hstore, hk, htask, hentry⟩
    · rw [BoardCommand.run, BoardCommand.spec, hnone, hentry]
      exact .refused
    · obtain ⟨board', hreorder, hreordered⟩ :=
        represents_reorderMarkdownTask h hnotes hstore hk toIndex
      rw [BoardCommand.run, BoardCommand.spec, htask, hentry, Option.bind_eq_bind,
        Option.bind_some, hreorder]
      exact .done hreordered
  | prioritizeTask status index =>
    rcases h.entry toLowercase status index with ⟨hnone, hentry⟩ |
      ⟨text, task, k, hstore, hk, htask, hentry⟩
    · rw [BoardCommand.run, BoardCommand.spec, hnone, hentry]
      exact .refused
    · obtain ⟨board', hreorder, hreordered⟩ := represents_reorderMarkdownTask h hnotes hstore hk 0
      have hread := h.read toLowercase hstore
      have hfound : (readMarkdownEntries text)[index]? = some ⟨.markdownLine k, task, false⟩ := by
        rw [taskEntryAt, hread] at hentry
        exact hentry
      rw [BoardCommand.run, BoardCommand.spec, htask, hentry, Option.bind_eq_bind,
        Option.bind_some, Clt.prioritizeTask, hread, Option.bind_eq_bind, Option.bind_some,
        findIdx?_readMarkdownEntries hk hfound, Option.bind_eq_bind, Option.bind_some, hreorder]
      exact .done hreordered
  | moveTask stopped source dest index =>
    rw [BoardCommand.run, BoardCommand.spec, moveTaskInBoard]
    by_cases hsame : source = dest
    · rw [if_pos hsame, if_pos hsame]
      rcases h.entry toLowercase source index with ⟨hnone, hentry⟩ |
        ⟨text, task, k, hstore, hk, htask, hentry⟩
      · rw [hnone, hentry]
        exact .refused
      · rw [htask, hentry]
        exact .done h
    · rw [if_neg hsame, if_neg hsame]
      exact matches_move h hnotes stopped hsame index
  | moveManaged stopped source dest index => exact matches_move h hnotes stopped hbetween index

theorem Represents.step (toLowercase : Text → Text) (command : BoardCommand)
    (hbetween : command.BetweenLists) :
    Represents (command.step toLowercase board) (command.apply lists) notes := by
  have hmatches := command.matches h hnotes toLowercase hbetween
  unfold BoardCommand.step BoardCommand.apply
  generalize command.run toLowercase board = result at hmatches ⊢
  generalize command.spec lists = expected at hmatches ⊢
  cases hmatches with
  | refused => exact h
  | done hdone => exact hdone

end

/-! ## Runs -/

theorem represents_of_run {commands : List BoardCommand}
    (hbetween : ∀ command ∈ commands, command.BetweenLists)
    (h : Represents board lists notes) (hnotes : Headed notes) :
    Represents (Transition.exec (BoardCommand.step toLowercase) commands board)
      (Transition.exec BoardCommand.apply commands lists) notes := by
  induction commands generalizing board lists with
  | nil => exact h
  | cons command commands ih =>
    exact ih (fun other hother => hbetween other (List.mem_cons_of_mem command hother))
      (h.step hnotes toLowercase command (hbetween command List.mem_cons_self))

/-- `init_tasks`, with Markdown files. -/
def initTasks (board : Folder) : Option Folder :=
  TaskStatus.all.foldlM (ensureStatusStore false) board

/-- The heading of a new list. -/
def headings (status : TaskStatus) : List Text := Text.lines status.header

/-- A board that has just been made. -/
def newBoard : Folder := TaskStatus.all.map fun status => (status.filename, .file status.header)

theorem initTasks_nil : initTasks [] = some newBoard := rfl

theorem represents_newBoard : Represents newBoard (fun _ => []) headings := by
  intro status
  refine ⟨status.header, ?_, ?_, ?_, ?_⟩
  · cases status <;> rfl
  · cases status <;> rfl
  · cases status <;> rfl
  · cases status <;> decide

theorem headed_headings : Headed headings := by
  intro status
  refine ⟨status.header.dropLast, ?_, ?_⟩ <;> cases status <;> decide

/-- Every run of commands does to the files what it does to the lists of tasks, and leaves
whatever else stands in the files as it was; a command is refused where the lists refuse it. -/
theorem board_refines (toLowercase : Text → Text) (board : Folder) (lists : TaskLists)
    (notes : TaskStatus → List Text) (h : Represents board lists notes) (hnotes : Headed notes)
    (commands : List BoardCommand) (next : BoardCommand)
    (hbetween : ∀ command ∈ commands ++ [next], command.BetweenLists) :
    Represents (Transition.exec (BoardCommand.step toLowercase) commands board)
        (Transition.exec BoardCommand.apply commands lists) notes ∧
      Matches notes
        (next.run toLowercase (Transition.exec (BoardCommand.step toLowercase) commands board))
        (next.spec (Transition.exec BoardCommand.apply commands lists)) := by
  have hrun : Represents (Transition.exec (BoardCommand.step toLowercase) commands board)
      (Transition.exec BoardCommand.apply commands lists) notes :=
    represents_of_run (fun command hmem => hbetween command (List.mem_append_left _ hmem)) h hnotes
  exact ⟨hrun, next.matches hrun hnotes toLowercase (hbetween next (List.mem_append_right _
    List.mem_cons_self))⟩

/-- A task is added. -/
def oneTask : List BoardCommand := [.insertTask .todo none "Write".toList none]

/-- A task is added, and its move to the done tasks is stopped halfway. -/
def stoppedMove : List BoardCommand := oneTask ++ [.moveTask true .todo .done 0]

theorem board_refines_new :
    Represents (Transition.exec (BoardCommand.step id) stoppedMove newBoard)
        (Transition.exec BoardCommand.apply stoppedMove fun _ => []) headings ∧
      Matches headings
        (BoardCommand.run id (Transition.exec (BoardCommand.step id) stoppedMove newBoard)
          (.moveManaged false .todo .done 0))
        (BoardCommand.spec (Transition.exec BoardCommand.apply stoppedMove fun _ => [])
          (.moveManaged false .todo .done 0)) := by
  refine board_refines id newBoard (fun _ => []) headings represents_newBoard headed_headings
    stoppedMove (.moveManaged false .todo .done 0) ?_
  simp [stoppedMove, oneTask, BoardCommand.BetweenLists]

/-! ## No task is lost -/

/-- The tasks of all the lists. -/
def TaskLists.all (lists : TaskLists) : Multiset Text :=
  lists .todo + lists .doing + lists .done + lists .backlog

/-- The text of a task, folded once for each time that it was moved. -/
def FoldedFrom (task folded : Text) : Prop := ∃ n, folded = singleLineContent^[n] task

/-- Every task is still listed, folded. -/
def StillListed (tasks tasks' : Multiset Text) : Prop :=
  ∃ kept ≤ tasks', Multiset.Rel FoldedFrom tasks kept

theorem foldedFrom_refl (task : Text) : FoldedFrom task task := ⟨0, rfl⟩

instance : IsTrans Text FoldedFrom where
  trans := by
    rintro a _ _ ⟨n, rfl⟩ ⟨m, rfl⟩
    exact ⟨m + n, (Function.iterate_add_apply singleLineContent m n a).symm⟩

theorem stillListed_of_le {tasks tasks' : Multiset Text} (h : tasks ≤ tasks') :
    StillListed tasks tasks' :=
  ⟨tasks, h, Multiset.rel_refl_of_refl_on fun task _ => foldedFrom_refl task⟩

theorem StillListed.trans {a b c : Multiset Text} (h : StillListed a b) (h' : StillListed b c) :
    StillListed a c := by
  obtain ⟨kept, hkept, hrel⟩ := h
  obtain ⟨kept', hkept', hrel'⟩ := h'
  obtain ⟨rest, rfl⟩ := Multiset.le_iff_exists_add.mp hkept
  obtain ⟨folded, _, hfolded, -, rfl⟩ := Multiset.rel_add_left.mp hrel'
  exact ⟨folded, (Multiset.le_add_right _ _).trans hkept', hrel.trans FoldedFrom hfolded⟩

section

variable {tasks : List Text} {task : Text}

theorem all_update_add (lists : TaskLists) (status : TaskStatus) (tasks : List Text) :
    TaskLists.all (Function.update lists status tasks) + lists status = lists.all + tasks := by
  cases status <;>
    simp only [TaskLists.all, Function.update_self, ne_eq, reduceCtorEq, not_false_eq_true,
      Function.update_of_ne] <;>
    abel

theorem all_insert (h : tasks.Perm (task :: lists status)) :
    TaskLists.all (Function.update lists status tasks) = task ::ₘ lists.all := by
  have hsum := all_update_add lists status tasks
  rw [Multiset.coe_eq_coe.mpr h, ← Multiset.cons_coe, Multiset.add_cons, ← Multiset.cons_add] at hsum
  exact add_right_cancel hsum

theorem all_perm (h : tasks.Perm (lists status)) :
    TaskLists.all (Function.update lists status tasks) = lists.all := by
  have hsum := all_update_add lists status tasks
  rw [Multiset.coe_eq_coe.mpr h] at hsum
  exact add_right_cancel hsum

theorem all_erase (h : (lists status)[index]? = some task) :
    task ::ₘ TaskLists.all (Function.update lists status ((lists status).eraseIdx index)) =
      lists.all := by
  obtain ⟨hlt, rfl⟩ := List.getElem?_eq_some_iff.mp h
  have hsum := all_update_add lists status ((lists status).eraseIdx index)
  have hperm := Multiset.coe_eq_coe.mpr (List.getElem_cons_eraseIdx_perm hlt)
  rw [← hperm, ← Multiset.cons_coe, Multiset.add_cons, ← Multiset.cons_add] at hsum
  exact add_right_cancel hsum

theorem placeAt_perm (tasks : List Text) (place : Option Nat) (task : Text) :
    (placeAt tasks place task).Perm (task :: tasks) := by
  cases place with
  | none => exact List.perm_append_singleton task tasks
  | some i => exact insertAt_perm tasks i task

end

/-- The command takes no task away and rewrites none. -/
def BoardCommand.KeepsTasks : BoardCommand → Prop
  | .deleteTask _ _ => False
  | .updateTask _ _ _ => False
  | _ => True

/-- A move loses no task, wherever it is stopped. -/
theorem stillListed_move {moved : TaskLists} {source dest : TaskStatus} {stopped : Bool}
    (hne : source ≠ dest) (h : lists.move stopped source dest index = some moved) :
    StillListed lists.all moved.all := by
  obtain ⟨task, htask, rfl⟩ := Option.map_eq_some_iff.mp h
  have hinserted := all_insert (placeAt_perm (lists dest) (moveIndex dest) (singleLineContent task))
  cases stopped with
  | true =>
    dsimp only
    rw [if_pos rfl, hinserted]
    exact stillListed_of_le (Multiset.le_cons_self _ _)
  | false =>
    dsimp only
    rw [if_neg (by decide)]
    have hsource : Function.update lists dest (placeAt (lists dest) (moveIndex dest)
        (singleLineContent task)) source = lists source := Function.update_of_ne hne _ _
    have hmoved : (Function.update lists dest (placeAt (lists dest) (moveIndex dest)
        (singleLineContent task)) source)[index]? = some task := by rw [hsource]; exact htask
    have hfinal := all_erase hmoved
    have hstart := all_erase htask
    rw [hinserted, ← hstart, Multiset.cons_swap] at hfinal
    rw [← hstart, (Multiset.cons_inj_right task).mp hfinal]
    refine ⟨_, le_rfl, Multiset.Rel.cons ⟨1, rfl⟩ ?_⟩
    exact Multiset.rel_refl_of_refl_on fun other _ => foldedFrom_refl other

theorem stillListed_apply (command : BoardCommand) (hkeeps : command.KeepsTasks)
    (hbetween : command.BetweenLists) (lists : TaskLists) :
    StillListed lists.all (command.apply lists).all := by
  unfold BoardCommand.apply
  cases hspec : command.spec lists with
  | none => exact stillListed_of_le le_rfl
  | some lists' =>
    rw [Option.getD_some]
    cases command with
    | insertTask status place description metadata =>
      cases hspec
      rw [all_insert (placeAt_perm _ _ _)]
      exact stillListed_of_le (Multiset.le_cons_self _ _)
    | deleteTask => exact hkeeps.elim
    | updateTask => exact hkeeps.elim
    | reorderTask status fromIndex toIndex =>
      obtain ⟨task, -, rfl⟩ := Option.map_eq_some_iff.mp hspec
      rw [all_perm (moveTo_perm _ _ _)]
      exact stillListed_of_le le_rfl
    | prioritizeTask status index =>
      obtain ⟨task, -, rfl⟩ := Option.map_eq_some_iff.mp hspec
      rw [all_perm (moveTo_perm _ _ _)]
      exact stillListed_of_le le_rfl
    | moveTask stopped source dest index =>
      rw [BoardCommand.spec] at hspec
      by_cases hsame : source = dest
      · rw [if_pos hsame] at hspec
        obtain ⟨task, -, rfl⟩ := Option.map_eq_some_iff.mp hspec
        exact stillListed_of_le le_rfl
      · rw [if_neg hsame] at hspec
        exact stillListed_move hsame hspec
    | moveManaged stopped source dest index => exact stillListed_move hbetween hspec

/-- Without deletions and edits, no run loses a task, whatever is refused or stopped halfway:
each task listed at the start is listed at the end, and no two of them have become one. -/
theorem tasks_kept (toLowercase : Text → Text) (board : Folder) (lists : TaskLists)
    (notes : TaskStatus → List Text) (h : Represents board lists notes) (hnotes : Headed notes)
    (commands : List BoardCommand) (hbetween : ∀ command ∈ commands, command.BetweenLists)
    (hkeeps : ∀ command ∈ commands, command.KeepsTasks) :
    ∃ lists', Represents (Transition.exec (BoardCommand.step toLowercase) commands board) lists'
        notes ∧ StillListed lists.all lists'.all := by
  refine ⟨_, represents_of_run hbetween h hnotes, ?_⟩
  induction commands generalizing board lists with
  | nil => exact stillListed_of_le le_rfl
  | cons command commands ih =>
    have hhead := stillListed_apply command (hkeeps command List.mem_cons_self)
      (hbetween command List.mem_cons_self) lists
    exact hhead.trans (ih _ _ (h.step hnotes toLowercase command
      (hbetween command List.mem_cons_self))
      (fun other hother => hbetween other (List.mem_cons_of_mem command hother))
      fun other hother => hkeeps other (List.mem_cons_of_mem command hother))

theorem tasks_kept_stopped :
    ∃ lists', Represents (Transition.exec (BoardCommand.step id) [.moveTask true .todo .done 0]
        (Transition.exec (BoardCommand.step id) oneTask newBoard)) lists' headings ∧
      StillListed (TaskLists.all (Transition.exec BoardCommand.apply oneTask fun _ => []))
        lists'.all := by
  refine tasks_kept id _ _ headings (represents_of_run ?_ represents_newBoard headed_headings)
    headed_headings [.moveTask true .todo .done 0] ?_ ?_
  · simp [oneTask, BoardCommand.BetweenLists]
  · simp [BoardCommand.BetweenLists]
  · simp [BoardCommand.KeepsTasks]

end Clt
