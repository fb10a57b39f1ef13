import Clt.Files.Rewrite
import Clt.Task.Board
import Clt.Task.SessionLink
import Clt.Text.RawLines

/-!
# Writing the text of one task

`write_task_entry_content` puts a new text in the place of the one that was listed: a line of a
Markdown list, a task file, or the write-up of a task folder. It refuses when something else
stands there by now. A task that is linked to a session this way is listed with the link.
-/

namespace Clt

open Files

/-! ## The write -/

/-- `directory_task_detail_path`. -/
def directoryTaskDetail (children : Folder) : Text :=
  (taskDetailFiles.find? fun name => (node? children name).isSome).getD "task.md".toList

/-- The file with the text of a task. -/
def taskFilePath (board : Folder) (status : TaskStatus) : TaskSource → List Text
  | .markdownLine _ => [status.filename]
  | .path name false => [status.dirName, name]
  | .path name true =>
    [status.dirName, name,
      directoryTaskDetail ((folderAtPath board [status.dirName, name]).getD [])]

/-- The line of a listed task. -/
def taskLine (content : Text) : Text := "- ".toList ++ singleLineContent content

/-- `write_task_entry_content`, on a board whose tasks have just been read. -/
def writeTaskEntryContent (board : Folder) (status : TaskStatus) (entry : TaskEntry)
    (content : Text) : Option Folder :=
  let file := taskFilePath board status entry.source
  match entry.source with
  | .markdownLine lineIndex =>
    match storeContent board status with
    | .list stored =>
      let lines := Text.lines stored
      if lines[lineIndex]?.bind (stripPrefix "- ".toList) = some entry.content then
        some (setFile board (Text.writeLines (lines.set lineIndex (taskLine content))) file)
      else none
    | _ => none
  | .path name isDir =>
    let replacement := Text.trimEnd content ++ ['\n']
    match fileAtPath board file, folderAtPath board file with
    | some stored, _ =>
      if stored = entry.content then some (setFile board replacement file) else none
    | none, some _ => none
    | none, none =>
      if isDir = true ∧ (folderAtPath board [status.dirName, name]).isSome = true ∧
          Text.trimEnd entry.content = titleFromPath name then
        some (setFile board replacement file)
      else none

/-! ## Where listed tasks stand -/

section Listed

variable {toLowercase : Text → Text} {board after tasks : Folder} {status other : TaskStatus}
  {entry : TaskEntry} {content sessionId text : Text} {i : Nat} {name : Text}

theorem mem_readMarkdownEntries :
    entry ∈ readMarkdownEntries text ↔ ∃ i line, (Text.lines text)[i]? = some line ∧
      stripPrefix "- ".toList line = some entry.content ∧
      entry.source = .markdownLine i ∧ entry.hasSubtasks = false := by
  unfold readMarkdownEntries
  rw [List.mem_filterMap]
  constructor
  · rintro ⟨⟨line, i⟩, hmem, hentry⟩
    obtain ⟨taskText, hstrip, rfl⟩ := Option.map_eq_some_iff.mp hentry
    exact ⟨i, line, List.mem_zipIdx_iff_getElem?.mp hmem, hstrip, rfl, rfl⟩
  · rintro ⟨i, line, hline, hstrip, hsource, hsub⟩
    refine ⟨(line, i), List.mem_zipIdx_iff_getElem?.mpr hline, ?_⟩
    obtain ⟨source, taskText, subtasks⟩ := entry
    cases hsource
    cases hsub
    dsimp only at hstrip ⊢
    rw [hstrip]
    rfl

theorem mem_readDirectoryEntries :
    entry ∈ readDirectoryEntries toLowercase tasks ↔
      ∃ task ∈ tasks, isHidden task.1 = false ∧ entry = directoryEntry task := by
  unfold readDirectoryEntries directoryTaskPaths
  simp only [List.mem_map, (Listing.sortByKey_perm _ _).mem_iff, List.mem_filter,
    Bool.not_eq_true']
  constructor
  · rintro ⟨task, ⟨hmem, hshown⟩, rfl⟩
    exact ⟨task, hmem, hshown, rfl⟩
  · rintro ⟨task, hmem, hshown, rfl⟩
    exact ⟨task, ⟨hmem, hshown⟩, rfl⟩

/-- Only what is a folder and what is a file decides whether the stores can be read. -/
theorem blockedNodes_congr {directoryMode : Bool} {a b : Option Node × Option Node}
    (hdir : a.1.map isFolder = b.1.map isFolder) (hfile : a.2.map isFolder = b.2.map isFolder) :
    blockedNodes directoryMode a = blockedNodes directoryMode b := by
  rcases a with ⟨_ | _ | _, _ | _ | _⟩ <;> rcases b with ⟨_ | _ | _, _ | _ | _⟩ <;>
    first | rfl | (simp [isFolder] at hdir hfile)

theorem isSome_folderAt (F : Folder) (name : Text) :
    (folderAt F name).isSome = ((node? F name).map isFolder == some true) := by
  unfold folderAt
  rcases node? F name with _ | _ | _ <;> rfl

/-- A node that stays a file or a folder. -/
theorem not_blocked_setNode {node : Node} (hfree : ¬ Blocked board)
    (hkind : (node? board name).map isFolder = some (isFolder node)) :
    ¬ Blocked (setNode board name node) := by
  have hkinds (other : Text) : (node? (setNode board name node) other).map isFolder =
      (node? board other).map isFolder := by
    rw [node?_setNode]
    by_cases h : name = other
    · rw [if_pos h, ← h, hkind]
      rfl
    · rw [if_neg h]
  have hmode : isDirectoryMode (setNode board name node) = isDirectoryMode board := by
    unfold isDirectoryMode
    congr 1
    funext status
    rw [isSome_folderAt, isSome_folderAt, hkinds]
  rintro ⟨status, hblocked⟩
  refine hfree ⟨status, ?_⟩
  rw [hmode] at hblocked
  rw [← hblocked]
  exact blockedNodes_congr (hkinds _).symm (hkinds _).symm

/-- A task of the status is listed under the source, and carries the session. -/
def Carries (toLowercase : Text → Text) (board : Folder) (status : TaskStatus)
    (source : TaskSource) (sessionId : Text) : Prop :=
  ∃ entries, readTaskEntries toLowercase board status = some entries ∧
    ∃ entry ∈ entries, entry.source = source ∧
      recoverableCodexSessionIdFromTaskContent entry.content = some sessionId

/-- A linked text can be stored with a line feed behind it. -/
theorem recoverable_newline (content : Text) (hs : isSessionId sessionId = true) :
    recoverableCodexSessionIdFromTaskContent
      (Text.trimEnd (taskContentWithCodexSession content sessionId) ++ ['\n']) =
        some sessionId := by
  rw [taskContentWithCodexSession_eq]
  have hend : Text.trimEnd (Text.trimEnd (linked (linkProse content sessionId) sessionId
      (taskContentIsStopped content)) ++ ['\n']) = Text.trimEnd (linked
        (linkProse content sessionId) sessionId (taskContentIsStopped content)) := by
    rw [Text.trimEnd_append_of_whitespace _ (w := ['\n']) (List.forall_mem_singleton.mpr rfl),
      Text.trimEnd_trimEnd]
  exact recoverable_linked_of_trimEnd hs hend

theorem recoverable_singleLineContent (content : Text) (hs : isSessionId sessionId = true) :
    recoverableCodexSessionIdFromTaskContent
      (singleLineContent (taskContentWithCodexSession content sessionId)) = some sessionId := by
  have hlinks := (session_links content sessionId hs).recoverable _ List.mem_cons_self
  unfold singleLineContent
  dsimp only
  rw [hlinks.1]
  exact ((session_links _ sessionId hs).recoverable _ List.mem_cons_self).1

theorem findSome?_setNode {children : Folder} {names : List Text} {detail : Text}
    (h : names.find? (fun name => (node? children name).isSome) = some detail) (text : Text) :
    names.findSome? (fileAt (setNode children detail (.file text))) = some text := by
  induction names with
  | nil => cases h
  | cons name names ih =>
    rw [List.findSome?_cons, fileAt_setNode_file]
    by_cases hsame : detail = name
    · rw [if_pos hsame]
    · rw [if_neg hsame]
      rw [List.find?_cons] at h
      split at h
      · exact absurd (Option.some.inj h).symm hsame
      · rename_i hmissing
        have hnone : fileAt children name = none := by
          rw [Option.isSome_eq_false_iff, Option.isNone_iff_eq_none] at hmissing
          rw [fileAt, hmissing]
        rw [hnone]
        exact ih h

/-- The write-up that is written is the one that is read. -/
theorem readDirectoryTaskContent_setNode (children : Folder) (text : Text) :
    readDirectoryTaskContent (setNode children (directoryTaskDetail children) (.file text)) =
      some text := by
  unfold readDirectoryTaskContent directoryTaskDetail
  cases hfound : taskDetailFiles.find? fun name => (node? children name).isSome with
  | some detail => exact findSome?_setNode hfound text
  | none =>
    rw [Option.getD_none, taskDetailFiles, List.findSome?_cons, fileAt_setNode_file, if_pos rfl]

theorem mem_storeEntries (h : entry ∈ storeEntries toLowercase (storeContent board status)) :
    (∃ text i, storeContent board status = .list text ∧ entry.source = .markdownLine i) ∨
      ∃ tasks task, storeContent board status = .tasks tasks ∧ task ∈ tasks ∧
        isHidden task.1 = false ∧ entry = directoryEntry task := by
  cases hstore : storeContent board status with
  | tasks tasks =>
    rw [hstore] at h
    obtain ⟨task, hmem, hshown, rfl⟩ := mem_readDirectoryEntries.mp h
    exact .inr ⟨tasks, task, rfl, hmem, hshown, rfl⟩
  | list text =>
    rw [hstore] at h
    obtain ⟨i, line, -, -, hsource, -⟩ := mem_readMarkdownEntries.mp h
    exact .inl ⟨text, i, rfl, hsource⟩
  | nothing =>
    rw [hstore] at h
    cases h

theorem storeContent_list (h : storeContent board status = .list text) :
    folderAt board status.dirName = none ∧ fileAt board status.filename = some text := by
  unfold storeContent at h
  split at h
  · cases h
  · rename_i hdir hfile
    cases h
    exact ⟨hdir, hfile⟩
  · cases h

theorem storeContent_tasks (h : storeContent board status = .tasks tasks) :
    folderAt board status.dirName = some tasks := by
  unfold storeContent at h
  split at h
  · rename_i hdir
    cases h
    exact hdir
  · cases h
  · cases h

theorem carries_of_mem (hfree : ¬ Blocked board)
    (h : entry ∈ storeEntries toLowercase (storeContent board status))
    (hsession : recoverableCodexSessionIdFromTaskContent entry.content = some sessionId) :
    Carries toLowercase board status entry.source sessionId :=
  ⟨_, readTaskEntries_eq_some hfree, entry, h, rfl, hsession⟩

/-- A linked text ends in a word. -/
theorem exists_word_withCodexSession (content : Text) (hs : isSessionId sessionId = true) :
    ∃ t w, taskContentWithCodexSession content sessionId = t ++ w ∧ Text.IsWord w := by
  rw [taskContentWithCodexSession_eq, linked]
  split
  · exact ⟨_, taskStoppedMarker, List.append_cons .., isWord_taskStoppedMarker⟩
  · split
    · exact ⟨[], sessionLink sessionId, rfl, isWord_sessionLink hs⟩
    · exact ⟨_, sessionLink sessionId, List.append_cons .., isWord_sessionLink hs⟩

theorem getLast?_taskLine (content : Text) (hs : isSessionId sessionId = true) :
    (taskLine (taskContentWithCodexSession content sessionId)).getLast? ≠ some '\r' := by
  have hlinked : ∃ prose, singleLineContent (taskContentWithCodexSession content sessionId) =
      taskContentWithCodexSession prose sessionId := by
    unfold singleLineContent
    dsimp only
    rw [((session_links content sessionId hs).recoverable _ List.mem_cons_self).1]
    exact ⟨_, rfl⟩
  obtain ⟨prose, hprose⟩ := hlinked
  obtain ⟨t, w, hsplit, hne, hword⟩ := exists_word_withCodexSession prose hs
  rw [taskLine, hprose, hsplit, ← List.append_assoc, List.getLast?_append_of_ne_nil _ hne]
  intro hlast
  have hreturn := hword '\r' (List.mem_of_getLast? hlast)
  cases hreturn

theorem taskLine_ne_nil (content : Text) : taskLine content ≠ [] :=
  List.append_ne_nil_of_left_ne_nil (by decide) _

theorem newline_not_mem_taskLine (content : Text) : '\n' ∉ taskLine content := by
  intro hmem
  rcases List.mem_append.mp hmem with hmem | hmem
  · revert hmem
    decide
  · exact newline_not_mem_singleLineContent _ hmem

/-- A line of a Markdown list that is linked is listed with its link. -/
theorem carries_setLine (hfree : ¬ Blocked board) (hstore : storeContent board status = .list text)
    (hi : i < (Text.lines text).length) (hs : isSessionId sessionId = true) :
    Carries toLowercase (setNode board status.filename (.file (Text.writeLines
      ((Text.lines text).set i (taskLine (taskContentWithCodexSession content sessionId))))))
      status (.markdownLine i) sessionId := by
  obtain ⟨hdir, hfile⟩ := storeContent_list hstore
  let line := taskLine (taskContentWithCodexSession content sessionId)
  have hline : '\n' ∉ line := newline_not_mem_taskLine _
  have hkind : (node? board status.filename).map isFolder = some false := by
    unfold fileAt at hfile
    split at hfile
    · rename_i hnode
      rw [hnode]
      rfl
    · cases hfile
  have hread : Text.lines (Text.writeLines ((Text.lines text).set i line)) =
      ((Text.lines text).set i line).map Text.stripCr := by
    refine Text.lines_writeLines ?_ ?_
    · intro l hl
      rcases List.mem_or_eq_of_mem_set hl with hl | rfl
      · exact Text.not_mem_of_mem_lines hl
      · exact hline
    · intro hblank
      have hmem : line ∈ (Text.lines text).set i line := List.mem_set hi line
      rw [hblank, List.mem_singleton] at hmem
      exact taskLine_ne_nil _ hmem
  have hafter : storeContent (setNode board status.filename (.file (Text.writeLines
      ((Text.lines text).set i line)))) status =
        .list (Text.writeLines ((Text.lines text).set i line)) := by
    have hsame : folderAt (setNode board status.filename (.file (Text.writeLines
        ((Text.lines text).set i line)))) status.dirName = none := by
      rw [folderAt, node?_setNode, if_neg (dirName_ne_filename status).symm]
      exact hdir
    rw [storeContent, hsame, fileAt_setNode_file, if_pos rfl]
  let entry : TaskEntry := ⟨.markdownLine i,
    singleLineContent (taskContentWithCodexSession content sessionId), false⟩
  have hmem : entry ∈ storeEntries toLowercase (storeContent (setNode board status.filename
      (.file (Text.writeLines ((Text.lines text).set i line)))) status) := by
    rw [hafter]
    refine mem_readMarkdownEntries.mpr ⟨i, line, ?_, rfl, rfl, rfl⟩
    rw [hread, List.getElem?_map, List.getElem?_set_self hi, Option.map_some,
      Text.stripCr_eq_self.mpr (getLast?_taskLine content hs)]
  exact carries_of_mem (not_blocked_setNode hfree hkind) hmem
    (recoverable_singleLineContent content hs)

/-- A task of a folder that is linked is listed with its link. -/
theorem carries_setTask {node : Node} (hfree : ¬ Blocked board)
    (hstore : storeContent board status = .tasks tasks) (hshown : isHidden name = false)
    (hsession : recoverableCodexSessionIdFromTaskContent
      (directoryEntry (name, node)).content = some sessionId) :
    Carries toLowercase (setNode board status.dirName (.folder (setNode tasks name node)))
      status (directoryEntry (name, node)).source sessionId := by
  have hdir := storeContent_tasks hstore
  have hkind : (node? board status.dirName).map isFolder = some true := by
    have hsome := isSome_folderAt board status.dirName
    rw [hdir, Option.isSome_some] at hsome
    exact beq_iff_eq.mp hsome.symm
  have hafter : storeContent (setNode board status.dirName (.folder (setNode tasks name node)))
      status = .tasks (setNode tasks name node) := by
    rw [storeContent, folderAt_setNode_folder, if_pos rfl]
  refine carries_of_mem (not_blocked_setNode hfree hkind) ?_ hsession
  rw [hafter]
  exact mem_readDirectoryEntries.mpr ⟨(name, node), mem_setNode .., hshown, rfl⟩

/-- Every other file has the bytes that it had, and so has every other line of a list. -/
structure KeepsOthers (board after : Folder) (status : TaskStatus) (source : TaskSource) :
    Prop where
  files : ∀ path ≠ taskFilePath board status source, fileAtPath after path = fileAtPath board path
  lines : ∀ i text, source = .markdownLine i → fileAt board status.filename = some text →
    ∃ text', fileAt after status.filename = some text' ∧ Text.KeepsOtherLines i text text'

/-- Where the task is a line of a list, no other line of the list ends in a carriage return. -/
def PlainLines (board : Folder) (status : TaskStatus) (source : TaskSource) : Prop :=
  ∀ i text, source = .markdownLine i → fileAt board status.filename = some text →
    Text.OthersWithoutCr i text

theorem writeTaskEntryContent_path {x : TaskEntry} {isDir : Bool}
    (hsource : x.source = .path name isDir)
    (hw : writeTaskEntryContent board status x content = some after) :
    after = setFile board (Text.trimEnd content ++ ['\n'])
        (taskFilePath board status (.path name isDir)) ∧
      folderAtPath board (taskFilePath board status (.path name isDir)) = none ∧
      ((fileAtPath board (taskFilePath board status (.path name isDir))).isSome = true ∨
        isDir = true ∧ (folderAtPath board [status.dirName, name]).isSome = true) := by
  unfold writeTaskEntryContent at hw
  dsimp only at hw
  rw [hsource] at hw
  dsimp only at hw
  split at hw
  · rename_i stored hfile
    split at hw
    · cases hw
      exact ⟨rfl, folderAtPath_of_fileAtPath hfile, .inl (by rw [hfile]; rfl)⟩
    · cases hw
  · cases hw
  · rename_i hfile hfolder
    split at hw
    · rename_i hnew
      cases hw
      exact ⟨rfl, hfolder, .inr ⟨hnew.1, hnew.2.1⟩⟩
    · cases hw

/-- The folder of a task that is a folder. -/
theorem folderAtPath_task {detail : Text} (hdir : folderAt board status.dirName = some tasks)
    (h : (fileAtPath board [status.dirName, name, detail]).isSome = true ∨
      (folderAtPath board [status.dirName, name]).isSome = true) :
    ∃ children, folderAt tasks name = some children := by
  rcases h with h | h
  · rw [fileAtPath, hdir, Option.bind_some, fileAtPath] at h
    · cases hchildren : folderAt tasks name with
      | some children => exact ⟨children, rfl⟩
      | none =>
        rw [hchildren] at h
        cases h
    all_goals exact List.cons_ne_nil _ _
  · rw [folderAtPath, hdir, Option.bind_some, folderAtPath] at h
    cases hchildren : folderAt tasks name with
    | some children => exact ⟨children, rfl⟩
    | none =>
      rw [hchildren] at h
      cases h

/-- Linking a listed task to a session: it is listed with the link, and the others stay as they
are when the list is plain. -/
theorem writeTaskEntryContent_link {x : TaskEntry} (hfree : ¬ Blocked board)
    (he : entry ∈ storeEntries toLowercase (storeContent board status))
    (hsource : x.source = entry.source) (hs : isSessionId sessionId = true)
    (hw : writeTaskEntryContent board status x (taskContentWithCodexSession x.content sessionId) =
      some after) :
    Carries toLowercase after status entry.source sessionId ∧
      (KeepsOthers board after status entry.source ↔ PlainLines board status entry.source) := by
  rcases mem_storeEntries he with ⟨text, i, hstore, hline⟩ |
      ⟨tasks, ⟨name, node⟩, hstore, hmem, hshown, rfl⟩
  · unfold writeTaskEntryContent at hw
    dsimp only at hw
    rw [hsource, hline] at hw
    rw [hline]
    dsimp only at hw
    rw [hstore] at hw
    dsimp only at hw
    split at hw
    · rename_i hthere
      cases hw
      obtain ⟨hdir, hfile⟩ := storeContent_list hstore
      have hi : i < (Text.lines text).length := by
        by_contra hge
        rw [List.getElem?_eq_none (Nat.le_of_not_lt hge)] at hthere
        cases hthere
      have hfolder : folderAtPath board [status.filename] = none :=
        folderAtPath_of_fileAtPath (show fileAtPath board [status.filename] = some text from hfile)
      have hkeeps := Text.keepsOtherLines_iff hi
        (newline_not_mem_taskLine (taskContentWithCodexSession x.content sessionId))
        (taskLine_ne_nil _)
      refine ⟨carries_setLine hfree hstore hi hs, ⟨fun h j text' hsame htext' => ?_, fun h => ?_⟩⟩
      · cases hsame
        obtain ⟨written, hwritten, hlines⟩ := h.lines i text rfl hfile
        rw [taskFilePath, setFile_singleton, fileAt_setNode_file, if_pos rfl] at hwritten
        rw [← Option.some.inj hwritten] at hlines
        rw [← Option.some.inj (hfile.symm.trans htext')]
        exact hkeeps.mp hlines
      · refine ⟨fun path hpath => fileAtPath_setFile_of_ne hfolder hpath, ?_⟩
        intro j text' hsame htext'
        cases hsame
        cases Option.some.inj (hfile.symm.trans htext')
        exact ⟨_, by rw [taskFilePath, setFile_singleton, fileAt_setNode_file, if_pos rfl],
          hkeeps.mpr (h i text rfl hfile)⟩
    · cases hw
  · have hdir := storeContent_tasks hstore
    have hothers {after : Folder} (source : TaskSource) {isDir : Bool}
        (h : source = .path name isDir)
        (hfiles : ∀ path ≠ taskFilePath board status source,
          fileAtPath after path = fileAtPath board path) :
        KeepsOthers board after status source ↔ PlainLines board status source := by
      subst h
      exact iff_of_true ⟨hfiles, fun _ _ h => by cases h⟩ fun _ _ h => by cases h
    cases node with
    | file stored =>
      obtain ⟨rfl, hfolder, -⟩ := writeTaskEntryContent_path hsource hw
      refine ⟨?_, hothers _ rfl fun path hpath => fileAtPath_setFile_of_ne hfolder hpath⟩
      rw [taskFilePath, setFile_cons_cons hdir, setFile_singleton]
      exact carries_setTask hfree hstore hshown (recoverable_newline x.content hs)
    | folder listed =>
      obtain ⟨rfl, hfolder, hthere⟩ := writeTaskEntryContent_path hsource hw
      refine ⟨?_, hothers _ rfl fun path hpath => fileAtPath_setFile_of_ne hfolder hpath⟩
      obtain ⟨children, hchildren⟩ := folderAtPath_task hdir (hthere.imp_right And.right)
      have hfound : folderAtPath board [status.dirName, name] = some children := by
        rw [folderAtPath, hdir, Option.bind_some, folderAtPath, hchildren]
        rfl
      rw [taskFilePath, hfound, Option.getD_some, setFile_cons_cons hdir,
        setFile_cons_cons hchildren, setFile_singleton]
      refine carries_setTask hfree hstore hshown ?_
      dsimp only [directoryEntry]
      rw [readDirectoryTaskContent_setNode, Option.getD_some]
      exact recoverable_newline x.content hs

end Listed

end Clt
