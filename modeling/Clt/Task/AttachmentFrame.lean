import Clt.Task.Attachment

/-!
# What attaching a session changes

Both stages write at most the one task that they have identified, and that task is not manual and
has no other session. The link stage reports an attached session also where the search for the
session comes upon another task, one that is stopped or has its link away from its end; and a
Markdown list with carriage returns is written without them.
-/

namespace Clt

open Files

/-! ## Searches -/

section FindSome

variable {α β : Type} {f : α → Option (Option β)} {l : List α}

theorem findSomeM?_eq_none (h : l.findSomeM? f = some none) : ∀ a ∈ l, f a = some none := by
  induction l with
  | nil => exact List.forall_mem_nil _
  | cons a l ih =>
    rw [List.findSomeM?] at h
    cases hfa : f a with
    | none =>
      rw [hfa] at h
      cases h
    | some found =>
      rw [hfa] at h
      cases found with
      | some b => cases h
      | none => exact List.forall_mem_cons.mpr ⟨hfa, ih h⟩

theorem exists_of_findSomeM? {b : β} (h : l.findSomeM? f = some (some b)) :
    ∃ a ∈ l, f a = some (some b) := by
  induction l with
  | nil => cases h
  | cons a l ih =>
    rw [List.findSomeM?] at h
    cases hfa : f a with
    | none =>
      rw [hfa] at h
      cases h
    | some found =>
      rw [hfa] at h
      cases found with
      | some b' =>
        cases h
        exact ⟨a, List.mem_cons_self, hfa⟩
      | none =>
        obtain ⟨a', ha', hfound⟩ := ih h
        exact ⟨a', List.mem_cons_of_mem _ ha', hfound⟩

theorem findSomeM?_congr {g : α → Option (Option β)} (h : ∀ a ∈ l, f a = g a) :
    l.findSomeM? f = l.findSomeM? g := by
  induction l with
  | nil => rfl
  | cons a l ih =>
    rw [List.findSomeM?, List.findSomeM?, h a List.mem_cons_self,
      ih fun a' ha' => h a' (List.mem_cons_of_mem _ ha')]

end FindSome

section Search

variable {toLowercase : Text → Text} {recoverDisplacedMarker : Bool} {sessionId : Text}
  {board : Folder} {found : FoundTask} {status : TaskStatus} {entry : TaskEntry} {n : Nat}

theorem TaskStatus.mem_sessionSearchOrder (status : TaskStatus) :
    status ∈ TaskStatus.sessionSearchOrder := by cases status <;> decide

theorem taskForCodexSession_nil (n : Nat) :
    taskForCodexSession toLowercase recoverDisplacedMarker sessionId n [] = some none := by
  cases n with
  | zero => rfl
  | succ n => rfl

/-- The search goes through every board inside the board: more depth finds nothing else. -/
theorem taskForCodexSession_depth {m : Nat} (hn : depth board < n) (hm : depth board < m) :
    taskForCodexSession toLowercase recoverDisplacedMarker sessionId n board =
      taskForCodexSession toLowercase recoverDisplacedMarker sessionId m board := by
  induction n generalizing board m with
  | zero => omega
  | succ n ih =>
    cases m with
    | zero => omega
    | succ m =>
      refine findSomeM?_congr fun status _ => Option.bind_congr fun tasks _ =>
        findSomeM?_congr fun task _ => ?_
      congr 1
      split
      · rename_i name _ _
        dsimp only
        congr 1
        cases hinner : folderAtPath board [status.dirName, name] with
        | none => exact (taskForCodexSession_nil n).trans (taskForCodexSession_nil m).symm
        | some inner =>
          have hdepth : depth inner + 2 ≤ depth board := depth_folderAtPath hinner
          have hinnerN : depth inner < n := by omega
          have hinnerM : depth inner < m := by omega
          exact ih hinnerN hinnerM
      · rfl

/-- A search that finds nothing has read every store. -/
theorem taskForCodexSession_eq_none
    (h : taskForCodexSession toLowercase recoverDisplacedMarker sessionId (n + 1) board =
      some none) (status : TaskStatus) :
    ∃ entries, readTaskEntries toLowercase board status = some entries ∧ ∀ entry ∈ entries,
      linkedSession recoverDisplacedMarker entry.content ≠ some sessionId ∧
      ∀ name, entry.hasSubtasks = true → entry.source = .path name true →
        taskForCodexSession toLowercase recoverDisplacedMarker sessionId n
          ((folderAtPath board [status.dirName, name]).getD []) = some none := by
  have hstatus := findSomeM?_eq_none h status status.mem_sessionSearchOrder
  obtain ⟨entries, hread, hentries⟩ := Option.bind_eq_some_iff.mp hstatus
  refine ⟨entries, hread, fun entry hentry => ?_⟩
  have htask := findSomeM?_eq_none hentries entry hentry
  split at htask
  · cases htask
  · rename_i hother
    refine ⟨hother, fun name hsub hsource => ?_⟩
    rw [hsub, hsource] at htask
    obtain ⟨inner, hinner, hmapped⟩ := Option.map_eq_some_iff.mp htask
    rw [hinner, Option.map_eq_none_iff.mp hmapped]

/-- What a search finds is a task of the board, or found on a board inside it. -/
theorem taskForCodexSession_eq_some
    (h : taskForCodexSession toLowercase recoverDisplacedMarker sessionId (n + 1) board =
      some (some found)) :
    ∃ status entries, readTaskEntries toLowercase board status = some entries ∧
      ∃ entry ∈ entries,
        (linkedSession recoverDisplacedMarker entry.content = some sessionId ∧
          found = ⟨[], status, entry⟩) ∨
        ∃ name inner, entry.hasSubtasks = true ∧ entry.source = .path name true ∧
          taskForCodexSession toLowercase recoverDisplacedMarker sessionId n
            ((folderAtPath board [status.dirName, name]).getD []) = some (some inner) ∧
          found = { inner with folders := status.dirName :: name :: inner.folders } := by
  obtain ⟨status, -, hstatus⟩ := exists_of_findSomeM? h
  obtain ⟨entries, hread, hentries⟩ := Option.bind_eq_some_iff.mp hstatus
  obtain ⟨entry, hentry, htask⟩ := exists_of_findSomeM? hentries
  refine ⟨status, entries, hread, entry, hentry, ?_⟩
  split at htask
  · rename_i hlinked
    exact .inl ⟨hlinked, (Option.some.inj (Option.some.inj htask)).symm⟩
  · split at htask
    · rename_i name hsub hsource
      obtain ⟨inner, hinner, hmapped⟩ := Option.map_eq_some_iff.mp htask
      obtain ⟨x, rfl, rfl⟩ := Option.map_eq_some_iff.mp hmapped
      exact .inr ⟨name, x, hsub, hsource, hinner, rfl⟩
    · cases htask

/-- What is found has the link that was searched for. -/
theorem linkedSession_of_found
    (h : taskForCodexSession toLowercase recoverDisplacedMarker sessionId n board =
      some (some found)) :
    linkedSession recoverDisplacedMarker found.entry.content = some sessionId := by
  induction n generalizing board found with
  | zero => cases h
  | succ n ih =>
    obtain ⟨status, entries, -, entry, -, ⟨hlinked, rfl⟩ | ⟨name, inner, -, -, hinner, rfl⟩⟩ :=
      taskForCodexSession_eq_some h
    · exact hlinked
    · show linkedSession _ inner.entry.content = _
      exact ih hinner

/-- A task that only the search for displaced links finds has no link at its end. -/
theorem codexSession_ne_of_displaced
    (h : taskForCodexSession toLowercase true sessionId n board = some (some found))
    (hterminal : taskForCodexSession toLowercase false sessionId n board = some none) :
    codexSessionIdFromTaskContent found.entry.content ≠ some sessionId := by
  induction n generalizing board found with
  | zero => cases h
  | succ n ih =>
    obtain ⟨status, entries, hread, entry, hentry, hfound⟩ := taskForCodexSession_eq_some h
    obtain ⟨entries', hread', hnone⟩ := taskForCodexSession_eq_none hterminal status
    cases Option.some.inj (hread.symm.trans hread')
    rcases hfound with ⟨-, rfl⟩ | ⟨name, inner, hsub, hsource, hinner, rfl⟩
    · exact (hnone entry hentry).1
    · show codexSessionIdFromTaskContent inner.entry.content ≠ _
      exact ih hinner ((hnone entry hentry).2 name hsub hsource)

/-- A task that is found on the board itself is listed there. -/
theorem mem_of_found (h : taskForCodexSession toLowercase recoverDisplacedMarker sessionId n board =
      some (some found)) (hroot : found.folders = []) :
    ∃ entries, readTaskEntries toLowercase board found.status = some entries ∧
      found.entry ∈ entries := by
  cases n with
  | zero => cases h
  | succ n =>
    obtain ⟨status, entries, hread, entry, hentry, ⟨-, rfl⟩ | ⟨name, inner, -, -, -, rfl⟩⟩ :=
      taskForCodexSession_eq_some h
    · exact ⟨entries, hread, hentry⟩
    · cases hroot

theorem not_blocked_of_search
    (h : taskForCodexSessionInBoard toLowercase recoverDisplacedMarker sessionId board =
      some none) : ¬ Blocked board := by
  intro hblocked
  obtain ⟨status, hnone⟩ : ∃ status, readTaskEntries toLowercase board status = none :=
    exists_readTaskEntries_eq_none hblocked
  obtain ⟨entries, hread, -⟩ := taskForCodexSession_eq_none h status
  rw [hnone] at hread
  cases hread

end Search

/-! ## Listed tasks -/

section Listed

variable {toLowercase : Text → Text} {board after : Folder} {status : TaskStatus}
  {entry other x : TaskEntry} {sessionId : Text} {entries : List TaskEntry}

/-- The tasks of each folder have different names. -/
def TasksNamed (board : Folder) : Prop :=
  ∀ status tasks, folderAt board (TaskStatus.dirName status) = some tasks →
    (tasks.map Prod.fst).Nodup

theorem eq_of_source (hnamed : TasksNamed board)
    (h : entry ∈ storeEntries toLowercase (storeContent board status))
    (h' : other ∈ storeEntries toLowercase (storeContent board status))
    (hsource : entry.source = other.source) : entry = other := by
  cases hstore : storeContent board status with
  | tasks tasks =>
    rw [hstore] at h h'
    obtain ⟨task, hmem, -, rfl⟩ := mem_readDirectoryEntries.mp h
    obtain ⟨task', hmem', -, rfl⟩ := mem_readDirectoryEntries.mp h'
    have hname (task : Text × Node) :
        (directoryEntry task).source = .path task.1 (isFolder task.2) := by
      rcases task with ⟨name, _ | _⟩ <;> rfl
    rw [hname, hname] at hsource
    have hnodup := hnamed status tasks (storeContent_tasks hstore)
    rw [List.inj_on_of_nodup_map hnodup hmem hmem' (TaskSource.path.inj hsource).1]
  | list text =>
    rw [hstore] at h h'
    obtain ⟨i, line, hline, hcontent, hs, hsub⟩ := mem_readMarkdownEntries.mp h
    obtain ⟨j, line', hline', hcontent', hs', hsub'⟩ := mem_readMarkdownEntries.mp h'
    rw [hs, hs'] at hsource
    cases hsource
    rw [hline] at hline'
    cases hline'
    rw [hcontent] at hcontent'
    obtain ⟨source, content, subtasks⟩ := entry
    obtain ⟨source', content', subtasks'⟩ := other
    simp_all
  | nothing =>
    rw [hstore] at h
    cases h

/-- A listed line can be written. -/
theorem exists_write_line {i : Nat} (content : Text)
    (h : entry ∈ storeEntries toLowercase (storeContent board status))
    (hline : entry.source = .markdownLine i) (hsource : x.source = entry.source) :
    (∃ after, writeTaskEntryContent board status x content = some after) ↔
      x.content = entry.content := by
  rcases mem_storeEntries h with ⟨text, j, hstore, hj⟩ | ⟨tasks, task, -, -, -, rfl⟩
  · rw [hj] at hline
    cases hline
    rw [hstore] at h
    obtain ⟨j, line, hread, hcontent, hs, -⟩ := mem_readMarkdownEntries.mp h
    rw [hj] at hs
    cases hs
    have hthere : (Text.lines text)[i]?.bind (stripPrefix "- ".toList) = some entry.content := by
      rw [hread]
      exact hcontent
    unfold writeTaskEntryContent
    dsimp only
    rw [hsource, hj]
    dsimp only
    rw [hstore]
    dsimp only
    rw [hthere]
    constructor
    · rintro ⟨after, hafter⟩
      split at hafter
      · rename_i hsame
        exact (Option.some.inj hsame).symm
      · cases hafter
    · intro hsame
      rw [if_pos (by rw [hsame])]
      exact ⟨_, rfl⟩
  · rcases task with ⟨name, _ | _⟩ <;> cases hline

end Listed

/-! ## The attachment -/

section Attach

variable {toLowercase : Text → Text} {board : Folder} {status : TaskStatus} {entry : TaskEntry}
  {sessionId : Text}

/-- The attachment goes through to the task: nothing is found that links to the session but the
task itself, and the task has no session. -/
def Links (toLowercase : Text → Text) (board : Folder) (status : TaskStatus) (entry : TaskEntry)
    (sessionId : Text) : Prop :=
  match taskForCodexSessionInBoard toLowercase true sessionId board with
  | some none => recoverableCodexSessionIdFromTaskContent entry.content = none
  | some (some found) => found.sameSource status entry.source = true ∧
      found.entry.content = entry.content ∧
      codexSessionIdFromTaskContent found.entry.content ≠ some sessionId
  | none => False

/-- What an attachment makes of the board. -/
inductive AttachmentEffect (toLowercase : Text → Text) (board : Folder) (status : TaskStatus)
    (entry : TaskEntry) (sessionId : Text) : Folder × Option Text → Prop
  | refused (h : Links toLowercase board status entry sessionId →
        ∀ i, entry.source ≠ .markdownLine i)
      (hsame : ∀ found,
        taskForCodexSessionInBoard toLowercase true sessionId board = some (some found) →
          found.sameSource status entry.source = true) :
      AttachmentEffect toLowercase board status entry sessionId (board, none)
  /-- Another task has the session already. -/
  | elsewhere (found : FoundTask) (content : Text)
      (hfound : taskForCodexSessionInBoard toLowercase true sessionId board = some (some found))
      (h : found.sameSource status entry.source = false ∨
        codexSessionIdFromTaskContent found.entry.content = some sessionId) :
      AttachmentEffect toLowercase board status entry sessionId (board, some content)
  | linked (x : TaskEntry) (after : Folder) (content : Text)
      (hsource : x.source = entry.source)
      (hwrite : writeTaskEntryContent board status x
        (taskContentWithCodexSession x.content sessionId) = some after)
      (hlinks : Links toLowercase board status entry sessionId) :
      AttachmentEffect toLowercase board status entry sessionId (after, some content)

/-- A task on the board that the search finds at the place of a listed task is that task. -/
theorem found_sameSource {found : FoundTask} (hnamed : TasksNamed board) (hfree : ¬ Blocked board)
    (he : entry ∈ storeEntries toLowercase (storeContent board status))
    (hfound : taskForCodexSessionInBoard toLowercase true sessionId board = some (some found))
    (hsame : found.sameSource status entry.source = true) :
    found.entry.source = entry.source ∧
      ((∀ i, entry.source ≠ .markdownLine i) → found.entry = entry) := by
  unfold FoundTask.sameSource at hsame
  split at hsame
  · rename_i i j hi hj
    rw [hi, hj, beq_iff_eq.mp hsame]
    exact ⟨rfl, fun h => absurd rfl (h j)⟩
  · rename_i name isDir name' isDir' hsource hsource'
    simp only [Bool.and_eq_true, beq_iff_eq] at hsame
    obtain ⟨⟨⟨hroot, hstatus⟩, rfl⟩, rfl⟩ := hsame
    have hsources : found.entry.source = entry.source := hsource.trans hsource'.symm
    obtain ⟨entries, hread, hmem⟩ := mem_of_found hfound hroot
    rw [hstatus, readTaskEntries_eq_some hfree] at hread
    rw [← Option.some.inj hread] at hmem
    exact ⟨hsources, fun _ => eq_of_source hnamed hmem he hsources⟩
  · cases hsame

theorem attachmentEffect (hnamed : TasksNamed board) (hfree : ¬ Blocked board)
    (he : entry ∈ storeEntries toLowercase (storeContent board status)) :
    AttachmentEffect toLowercase board status entry sessionId
      (attachCodexSessionToTaskAfterLock toLowercase board status entry sessionId) := by
  unfold attachCodexSessionToTaskAfterLock
  dsimp only
  split
  · rename_i hsearch
    refine .refused (fun hlinks => ?_) fun _ h => by rw [hsearch] at h; cases h
    rw [Links, hsearch] at hlinks
    exact hlinks.elim
  · rename_i found hfound
    split
    · rename_i helsewhere
      exact .elsewhere found _ hfound helsewhere
    · rename_i hhere
      rw [not_or, Bool.not_eq_false] at hhere
      obtain ⟨hsource, hsame⟩ := found_sameSource hnamed hfree he hfound hhere.1
      have hlinks (hcontent : found.entry.content = entry.content) :
          Links toLowercase board status entry sessionId := by
        rw [Links, hfound]
        exact ⟨hhere.1, hcontent, hhere.2⟩
      split
      · rename_i after hwrite
        refine .linked found.entry after _ hsource hwrite (hlinks ?_)
        cases hplace : entry.source with
        | markdownLine i => exact (exists_write_line _ he hplace hsource).mp ⟨after, hwrite⟩
        | path name isDir =>
          rw [hsame fun i hi => by rw [hplace] at hi; cases hi]
      · rename_i hwrite
        refine .refused (fun hlinks' i hi => ?_) fun found' h => ?_
        swap
        · rw [← Option.some.inj (Option.some.inj (hfound.symm.trans h))]
          exact hhere.1
        rw [Links, hfound] at hlinks'
        obtain ⟨after, hafter⟩ := (exists_write_line
          (taskContentWithCodexSession found.entry.content sessionId) he hi hsource).mpr hlinks'.2.1
        rw [hwrite] at hafter
        cases hafter
  · rename_i hsearch
    have hcurrent : ((readTaskEntries toLowercase board status).bind fun entries =>
        entries.find? fun current => current.source = entry.source) = some entry := by
      rw [readTaskEntries_eq_some hfree, Option.bind_some]
      cases hfind : (storeEntries toLowercase (storeContent board status)).find?
          fun current => current.source = entry.source with
      | none => exact absurd (decide_eq_true rfl) (List.find?_eq_none.mp hfind entry he)
      | some current =>
        have hsource : current.source = entry.source := by simpa using List.find?_some hfind
        rw [eq_of_source hnamed (List.mem_of_find?_eq_some hfind) he hsource]
    have hnot : recoverableCodexSessionIdFromTaskContent entry.content ≠ some sessionId := by
      obtain ⟨entries, hread, hnone⟩ := taskForCodexSession_eq_none hsearch status
      rw [readTaskEntries_eq_some hfree] at hread
      rw [← Option.some.inj hread] at hnone
      exact (hnone entry he).1
    have hnone : ∀ found,
        taskForCodexSessionInBoard toLowercase true sessionId board = some (some found) →
          found.sameSource status entry.source = true := by
      intro found h
      rw [hsearch] at h
      cases h
    rw [hcurrent]
    dsimp only
    rw [if_neg (not_not.mpr rfl)]
    split
    · rename_i howner
      refine .refused (fun hlinks => ?_) hnone
      rw [Links, hsearch] at hlinks
      rw [hlinks] at howner
      cases howner
    · rename_i howner
      have hlinks : Links toLowercase board status entry sessionId := by
        rw [Links, hsearch]
        cases hsession : recoverableCodexSessionIdFromTaskContent entry.content with
        | none => rfl
        | some owner =>
          rw [hsession] at hnot howner
          simp only [Option.any_some, decide_eq_true_eq, not_not] at howner
          exact absurd (congrArg some howner) hnot
      split
      · rename_i after hwrite
        exact .linked entry after _ rfl hwrite hlinks
      · rename_i hwrite
        refine .refused (fun _ i hi => ?_) hnone
        obtain ⟨after, hafter⟩ := (exists_write_line
          (taskContentWithCodexSession entry.content sessionId) he hi rfl).mpr rfl
        rw [hwrite] at hafter
        cases hafter

/-- What is asked of a stage that may write one task: it writes no other, and the task that it
writes was not manual and had no other session. -/
structure AttachesTo (toLowercase : Text → Text) (board after : Folder) (sessionId : Text)
    (target : Option (TaskStatus × TaskEntry)) : Prop where
  untouched : target = none → after = board
  listed : ∀ status entry, target = some (status, entry) →
    ∃ entries, readTaskEntries toLowercase board status = some entries ∧ entry ∈ entries
  eligible : ∀ status entry, target = some (status, entry) → after ≠ board →
    taskContentIsManual entry.content = false ∧
      ∀ owner, recoverableCodexSessionIdFromTaskContent entry.content = some owner →
        owner = sessionId
  others : ∀ status entry, target = some (status, entry) →
    KeepsOthers board after status entry.source

theorem AttachesTo.refl (toLowercase : Text → Text) (board : Folder) (sessionId : Text)
    {target : Option (TaskStatus × TaskEntry)}
    (hlisted : ∀ status entry, target = some (status, entry) →
      ∃ entries, readTaskEntries toLowercase board status = some entries ∧ entry ∈ entries) :
    AttachesTo toLowercase board board sessionId target where
  untouched _ := rfl
  listed := hlisted
  eligible _ _ _ h := absurd rfl h
  others _ _ _ := ⟨fun _ _ => rfl, fun _ text _ h => ⟨text, h, fun _ _ _ hl => hl⟩⟩

/-- A task that has no session, or has this one already, is the session's own. -/
theorem Links.owner (h : Links toLowercase board status entry sessionId) {owner : Text}
    (howner : recoverableCodexSessionIdFromTaskContent entry.content = some owner) :
    owner = sessionId := by
  unfold Links at h
  split at h
  · rw [h] at howner
    cases howner
  · rename_i found hfound
    have hlinked : recoverableCodexSessionIdFromTaskContent found.entry.content =
        some sessionId := linkedSession_of_found hfound
    rw [h.2.1, howner] at hlinked
    exact Option.some.inj hlinked
  · exact h.elim

/-- A listed task that is attached: the other tasks are kept exactly when its list is plain, if
the attachment goes through to it. -/
theorem attachesTo_iff (hs : isSessionId sessionId = true) (hnamed : TasksNamed board)
    (hfree : ¬ Blocked board) (he : entry ∈ storeEntries toLowercase (storeContent board status))
    (hmanual : taskContentIsManual entry.content = false) :
    AttachesTo toLowercase board
        (attachCodexSessionToTaskAfterLock toLowercase board status entry sessionId).1 sessionId
        (some (status, entry)) ↔
      (Links toLowercase board status entry sessionId →
        PlainLines board status entry.source) := by
  have hlisted : ∀ status' entry', some (status, entry) = some (status', entry') →
      ∃ entries, readTaskEntries toLowercase board status' = some entries ∧ entry' ∈ entries := by
    rintro _ _ ⟨⟩
    exact ⟨_, readTaskEntries_eq_some hfree, he⟩
  have hline (h : ∀ i, entry.source ≠ .markdownLine i) : PlainLines board status entry.source :=
    fun i _ hi => absurd hi (h i)
  generalize hresult : attachCodexSessionToTaskAfterLock toLowercase board status entry sessionId =
    result
  have heffect : AttachmentEffect toLowercase board status entry sessionId result :=
    hresult ▸ attachmentEffect hnamed hfree he
  cases heffect with
  | refused h _ => exact iff_of_true (.refl _ _ _ hlisted) fun hlinks => hline (h hlinks)
  | elsewhere found content hfound h =>
    refine iff_of_true (.refl _ _ _ hlisted) fun hlinks => ?_
    rw [Links, hfound] at hlinks
    dsimp only at hlinks
    rcases h with h | h
    · rw [h] at hlinks
      cases hlinks.1
    · exact absurd h hlinks.2.2
  | linked x after content hsource hwrite hlinks =>
    have hkeeps := (writeTaskEntryContent_link hfree he hsource hs hwrite).2
    constructor
    · intro h _
      exact hkeeps.mp (h.others status entry rfl)
    · intro hplain
      refine ⟨nofun, hlisted, ?_, ?_⟩
      · rintro _ _ ⟨⟩ -
        exact ⟨hmanual, fun owner howner => hlinks.owner howner⟩
      · rintro _ _ ⟨⟩
        exact hkeeps.mpr (hplain hlinks)

/-- The task carries the session after the attachment, when another task does not have it. -/
theorem carries_iff (hs : isSessionId sessionId = true) (hnamed : TasksNamed board)
    (hfree : ¬ Blocked board) (he : entry ∈ storeEntries toLowercase (storeContent board status))
    (hterminal : taskForCodexSessionInBoard toLowercase false sessionId board = some none) :
    ((attachCodexSessionToTaskAfterLock toLowercase board status entry sessionId).2.isSome = true →
        Carries toLowercase
          (attachCodexSessionToTaskAfterLock toLowercase board status entry sessionId).1
          status entry.source sessionId) ↔
      ∀ found, taskForCodexSessionInBoard toLowercase true sessionId board = some (some found) →
        found.sameSource status entry.source = true ∨
          recoverableCodexSessionIdFromTaskContent entry.content = some sessionId := by
  generalize hresult : attachCodexSessionToTaskAfterLock toLowercase board status entry sessionId =
    result
  have heffect : AttachmentEffect toLowercase board status entry sessionId result :=
    hresult ▸ attachmentEffect hnamed hfree he
  cases heffect with
  | refused h hsame => exact iff_of_true nofun fun found hfound => .inl (hsame found hfound)
  | elsewhere found content hfound h =>
    constructor
    · intro hcarries found' hfound'
      obtain ⟨entries, hread, other, hother, hsource, hsession⟩ := hcarries rfl
      rw [readTaskEntries_eq_some hfree] at hread
      rw [← Option.some.inj hread] at hother
      rw [eq_of_source hnamed hother he hsource] at hsession
      exact .inr hsession
    · intro hown _
      have hdisplaced := codexSession_ne_of_displaced hfound hterminal
      rcases hown found hfound with hsame | hsession
      · rcases h with h | h
        · rw [h] at hsame
          cases hsame
        · exact absurd h hdisplaced
      · exact carries_of_mem hfree he hsession
  | linked x after content hsource hwrite hlinks =>
    refine iff_of_true (fun _ => ?_) fun found hfound => .inl ?_
    · exact (writeTaskEntryContent_link hfree he hsource hs hwrite).1
    · rw [Links, hfound] at hlinks
      exact hlinks.1

end Attach

/-! ## Which task is identified -/

section Identified

variable {α β : Type} [BEq β] {key : α → β}

theorem mem_of_sole {l : List α} {x : α} (h : sole l = some x) : x ∈ l := by
  unfold sole at h
  split at h
  · cases h
    exact List.mem_singleton_self _
  · cases h

theorem unmatched_subset (remaining : List β) (l : List α) : unmatched key remaining l ⊆ l := by
  induction l generalizing remaining with
  | nil => exact List.Subset.refl _
  | cons x rest ih =>
    rw [unmatched]
    split
    · exact List.subset_cons_of_subset _ (ih _)
    · exact List.cons_subset_cons _ (ih _)

theorem newlyAddedTaskEntry_mem {before : List Text} {entries : List TaskEntry} {entry : TaskEntry}
    (h : newlyAddedTaskEntry before entries = some entry) : entry ∈ entries := by
  unfold newlyAddedTaskEntry at h
  dsimp only at h
  split at h
  · cases h
  · split at h
    · exact List.mem_of_getElem? h
    · cases h
    · exact unmatched_subset _ _ (mem_of_sole h)

theorem activeTask_mem {taskSelection : AgentTaskSelection} {doingBefore : List Text}
    {blockedBefore : List BlockedTaskSnapshot} {doing : List TaskEntry} {entry : TaskEntry}
    (h : activeTask taskSelection doingBefore blockedBefore doing = some entry) :
    entry ∈ doing ∧ taskContentIsManual entry.content = false := by
  have hmem : entry ∈ doing.filter fun task => !taskContentIsManual task.content := by
    unfold activeTask at h
    cases taskSelection with
    | nextTodo => exact newlyAddedTaskEntry_mem h
    | resumeDoing => exact mem_of_sole h
    | recoverBlocked =>
      rcases Option.or_eq_some_iff.mp h with h | ⟨-, h⟩
      · exact newlyAddedTaskEntry_mem h
      · split at h
        · split at h
          · exact (List.mem_filter.mp (mem_of_sole h)).1
          · cases h
        · cases h
    | _ => cases h
  simpa using List.mem_filter.mp hmem

variable {toLowercase : Text → Text} {board : Folder} {job : AgentRunJob} {status : TaskStatus}
  {entry : TaskEntry}

theorem blockedTasks_mem {tasks : List (TaskStatus × TaskEntry)}
    (h : blockedTasks toLowercase board = some tasks) (hmem : (status, entry) ∈ tasks) :
    (∃ entries, readTaskEntries toLowercase board status = some entries ∧ entry ∈ entries) ∧
      taskContentIsManual entry.content = false := by
  obtain ⟨todo, htodo, h⟩ := Option.bind_eq_some_iff.mp h
  obtain ⟨doing, hdoing, h⟩ := Option.bind_eq_some_iff.mp h
  cases h
  rcases List.mem_append.mp hmem with hmem | hmem <;>
    obtain ⟨task, htask, ⟨⟩⟩ := List.mem_map.mp hmem <;>
    obtain ⟨hin, hblocked⟩ := List.mem_filter.mp htask <;>
    simp only [Bool.and_eq_true, Bool.not_eq_true'] at hblocked
  · exact ⟨⟨todo, htodo, hin⟩, hblocked.2⟩
  · exact ⟨⟨doing, hdoing, hin⟩, hblocked.2⟩

theorem finishedTask_mem (h : finishedTask toLowercase board job = some (some (status, entry))) :
    (∃ entries, readTaskEntries toLowercase board status = some entries ∧ entry ∈ entries) ∧
      taskContentIsManual entry.content = false := by
  obtain ⟨completed, hcompleted, h⟩ := Option.bind_eq_some_iff.mp h
  obtain ⟨blocked, hblocked, h⟩ := Option.bind_eq_some_iff.mp h
  have h := Option.some.inj h
  split at h
  · cases h
    obtain ⟨entries, hread, hadded⟩ := Option.bind_eq_some_iff.mp hcompleted
    have hmem := newlyAddedTaskEntry_mem (Option.some.inj hadded)
    obtain ⟨hin, hmanual⟩ := List.mem_filter.mp hmem
    exact ⟨⟨entries, hread, hin⟩, by simpa using hmanual⟩
  · cases h
    obtain ⟨tasks, htasks, hchanged⟩ := Option.bind_eq_some_iff.mp hblocked
    refine blockedTasks_mem htasks ?_
    rcases Option.or_eq_some_iff.mp (Option.some.inj hchanged) with h | ⟨-, h⟩
    · exact unmatched_subset _ _ (mem_of_sole h)
    · split at h
      · exact mem_of_sole h
      · cases h
  · cases h

end Identified

/-! ## Both stages -/

section Stages

variable {toLowercase : Text → Text} {board : Folder} {sessionId : Text}

/-- The task in Doing that the session of a running agent goes to. -/
def attachTarget (toLowercase : Text → Text) (board : Folder) (taskSelection : AgentTaskSelection)
    (doingTaskContentsBefore : List Text) (blockedTaskSnapshotsBefore : List BlockedTaskSnapshot) :
    Option (TaskStatus × TaskEntry) :=
  if taskSelection = .supervisorReview then none
  else ((readTaskEntries toLowercase board .doing).bind
    (activeTask taskSelection doingTaskContentsBefore blockedTaskSnapshotsBefore)).map
      (Prod.mk .doing)

/-- The task that the session of an ended run goes to, where no task has it at its end yet. -/
def linkTarget (toLowercase : Text → Text) (board : Folder) (job : AgentRunJob)
    (sessionId : Text) : Option (TaskStatus × TaskEntry) :=
  if job.taskSelection = .supervisorReview ∨ job.taskSelection = .resumeSession then none
  else
    match taskForCodexSessionInBoard toLowercase false sessionId board with
    | some none => (finishedTask toLowercase board job).join
    | _ => none

/-- If the session goes to a line of the Doing list, the list is plain. -/
def AttachesToPlain (toLowercase : Text → Text) (board : Folder)
    (taskSelection : AgentTaskSelection) (doingTaskContentsBefore : List Text)
    (blockedTaskSnapshotsBefore : List BlockedTaskSnapshot) (sessionId : Text)
    (selectedTaskIdentity : Option Text) : Prop :=
  ∀ entry, attachTarget toLowercase board taskSelection doingTaskContentsBefore
      blockedTaskSnapshotsBefore = some (.doing, entry) →
    taskForCodexSessionInBoard toLowercase true sessionId board = some none →
    recoverableCodexSessionIdFromTaskContent entry.content = none →
    (∀ identity ∈ selectedTaskIdentity, durableTaskIdentity entry.content = some identity) →
      PlainLines board .doing entry.source

/-- What is asked of the link stage: that an attached session is on the task that it identified. -/
structure LinksTo (toLowercase : Text → Text) (board : Folder)
    (result : Folder × Option AgentSessionLinkResult) (sessionId : Text)
    (target : Option (TaskStatus × TaskEntry)) : Prop
    extends AttachesTo toLowercase board result.1 sessionId target where
  carries : result.2 = some .attached → ∃ status entry, target = some (status, entry) ∧
    Carries toLowercase result.1 status entry.source sessionId

/-- If the session goes to a line of a list, the list is plain; and the search for the session
comes upon no other task, unless the identified one has it already. -/
def LinksToPlain (toLowercase : Text → Text) (board : Folder) (job : AgentRunJob)
    (sessionId : Text) : Prop :=
  ∀ status entry, linkTarget toLowercase board job sessionId = some (status, entry) →
    (Links toLowercase board status entry sessionId → PlainLines board status entry.source) ∧
      ∀ found, taskForCodexSessionInBoard toLowercase true sessionId board = some (some found) →
        found.sameSource status entry.source = true ∨
          recoverableCodexSessionIdFromTaskContent entry.content = some sessionId

theorem attachesTo_stage_iff (hs : isSessionId sessionId = true) (hnamed : TasksNamed board)
    (taskSelection : AgentTaskSelection) (doingBefore : List Text)
    (blockedBefore : List BlockedTaskSnapshot) (selectedTaskIdentity : Option Text) :
    AttachesTo toLowercase board (attachCodexSessionToActiveTask toLowercase board taskSelection
        doingBefore blockedBefore sessionId selectedTaskIdentity).1 sessionId
        (attachTarget toLowercase board taskSelection doingBefore blockedBefore) ↔
      AttachesToPlain toLowercase board taskSelection doingBefore blockedBefore sessionId
        selectedTaskIdentity := by
  have hlisted : ∀ status entry, attachTarget toLowercase board taskSelection doingBefore
      blockedBefore = some (status, entry) →
        ∃ entries, readTaskEntries toLowercase board status = some entries ∧ entry ∈ entries := by
    intro status entry h
    unfold attachTarget at h
    split at h
    · cases h
    · obtain ⟨task, htask, ⟨⟩⟩ := Option.map_eq_some_iff.mp h
      obtain ⟨entries, hread, hactive⟩ := Option.bind_eq_some_iff.mp htask
      exact ⟨entries, hread, (activeTask_mem hactive).1⟩
  -- Where nothing is written, the board is as it was and no attachment goes through.
  have hstays (hnot : ∀ entry, attachTarget toLowercase board taskSelection doingBefore
      blockedBefore = some (.doing, entry) →
        taskForCodexSessionInBoard toLowercase true sessionId board = some none →
        recoverableCodexSessionIdFromTaskContent entry.content = none →
        ¬ ∀ identity ∈ selectedTaskIdentity,
          durableTaskIdentity entry.content = some identity) :
      AttachesTo toLowercase board board sessionId
          (attachTarget toLowercase board taskSelection doingBefore blockedBefore) ↔
        AttachesToPlain toLowercase board taskSelection doingBefore blockedBefore sessionId
          selectedTaskIdentity :=
    iff_of_true (.refl _ _ _ hlisted) fun entry htarget hsearch hnone hidentity =>
      absurd hidentity (hnot entry htarget hsearch hnone)
  unfold attachCodexSessionToActiveTask
  split
  · rename_i hreview
    refine hstays fun entry h => ?_
    rw [attachTarget, if_pos hreview] at h
    cases h
  rename_i hreview
  split
  · rename_i hsearch
    exact hstays fun _ _ h => by rw [hsearch] at h; cases h
  · rename_i hsearch
    exact hstays fun _ _ h => by rw [hsearch] at h; cases h
  rename_i hsearch
  have hfree := not_blocked_of_search hsearch
  split
  · rename_i hread
    rw [readTaskEntries_eq_some hfree] at hread
    cases hread
  rename_i doing hread
  have htarget : attachTarget toLowercase board taskSelection doingBefore blockedBefore =
      (activeTask taskSelection doingBefore blockedBefore doing).map (Prod.mk .doing) := by
    rw [attachTarget, if_neg hreview, hread, Option.bind_some]
  split
  · rename_i hactive
    refine hstays fun entry h => ?_
    rw [htarget, hactive] at h
    cases h
  rename_i task hactive
  rw [hactive, Option.map_some] at htarget
  split
  · rename_i hother
    refine hstays fun entry h _ hnone hidentity => ?_
    rw [htarget] at h
    cases h
    rcases hother with howner | hidentity'
    · rw [hnone] at howner
      cases howner
    · obtain ⟨identity, hmem, hne⟩ := (Option.any_eq_true ..).mp hidentity'
      exact absurd (hidentity identity hmem) (of_decide_eq_true hne)
  rename_i hown
  rw [not_or] at hown
  obtain ⟨hmem, hmanual⟩ := activeTask_mem hactive
  have he : task ∈ storeEntries toLowercase (storeContent board .doing) := by
    rw [readTaskEntries_eq_some hfree] at hread
    rwa [Option.some.inj hread]
  rw [htarget, AttachesToPlain, htarget]
  refine (attachesTo_iff hs hnamed hfree he hmanual).trans ?_
  have hlinks : Links toLowercase board .doing task sessionId ↔
      recoverableCodexSessionIdFromTaskContent task.content = none := by
    rw [Links, hsearch]
  rw [hlinks]
  constructor
  · rintro h entry ⟨⟩ - hnone -
    exact h hnone
  · intro h hnone
    refine h task rfl hsearch hnone fun identity hidentity => ?_
    by_contra hne
    exact hown.2 ((Option.any_eq_true ..).mpr ⟨identity, hidentity, decide_eq_true hne⟩)

theorem linksTo_stage_iff (hs : isSessionId sessionId = true) (hnamed : TasksNamed board)
    (job : AgentRunJob) (runStatus : String) :
    LinksTo toLowercase board
        (linkAgentSessionAfterRunStage toLowercase board job sessionId runStatus) sessionId
        (linkTarget toLowercase board job sessionId) ↔
      LinksToPlain toLowercase board job sessionId := by
  have hnothing {result : Option AgentSessionLinkResult} (hresult : result ≠ some .attached)
      (htarget : linkTarget toLowercase board job sessionId = none) :
      LinksTo toLowercase board (board, result) sessionId
          (linkTarget toLowercase board job sessionId) ↔
        LinksToPlain toLowercase board job sessionId := by
    have hlisted : ∀ status entry, linkTarget toLowercase board job sessionId =
        some (status, entry) →
          ∃ entries, readTaskEntries toLowercase board status = some entries ∧ entry ∈ entries := by
      intro status entry h
      rw [htarget] at h
      cases h
    refine iff_of_true ⟨.refl _ _ _ hlisted, fun h => absurd h hresult⟩ fun status entry h => ?_
    rw [htarget] at h
    cases h
  unfold linkAgentSessionAfterRunStage
  split
  · rename_i hreview
    exact hnothing nofun (if_pos (.inl hreview))
  rename_i hreview
  split
  · rename_i hsearch
    refine hnothing nofun ?_
    rw [linkTarget, hsearch]
    split <;> rfl
  · rename_i hsearch
    refine hnothing nofun ?_
    rw [linkTarget, hsearch]
    split <;> rfl
  rename_i hterminal
  split
  · rename_i hresume
    have htarget : linkTarget toLowercase board job sessionId = none := if_pos (.inr hresume)
    split
    · exact hnothing nofun htarget
    · exact hnothing nofun htarget
  rename_i hresume
  have htarget : linkTarget toLowercase board job sessionId =
      (finishedTask toLowercase board job).join := by
    rw [linkTarget, if_neg (not_or.mpr ⟨hreview, hresume⟩), hterminal]
  split
  · rename_i hfinished
    exact hnothing nofun (by rw [htarget, hfinished]; rfl)
  · rename_i status entry hfinished
    rw [hfinished, Option.join_some] at htarget
    obtain ⟨⟨entries, hread, hmem⟩, hmanual⟩ := finishedTask_mem hfinished
    have hfree := not_blocked_of_search hterminal
    have he : entry ∈ storeEntries toLowercase (storeContent board status) := by
      rw [readTaskEntries_eq_some hfree] at hread
      rwa [Option.some.inj hread]
    have hattaches := attachesTo_iff hs hnamed hfree he hmanual
    have hcarries := carries_iff hs hnamed hfree he hterminal
    rw [LinksToPlain, htarget]
    constructor
    · rintro h _ _ ⟨⟩
      refine ⟨hattaches.mp h.toAttachesTo, hcarries.mp fun hsome => ?_⟩
      obtain ⟨content, hcontent⟩ := Option.isSome_iff_exists.mp hsome
      obtain ⟨_, _, ⟨⟩, hentry⟩ := h.carries (congrArg (Option.map _) hcontent)
      exact hentry
    · intro h
      obtain ⟨hplain, hown⟩ := h status entry rfl
      refine ⟨hattaches.mpr hplain, fun hattached => ⟨status, entry, rfl, hcarries.mpr hown ?_⟩⟩
      obtain ⟨content, hcontent, -⟩ := Option.map_eq_some_iff.mp hattached
      rw [hcontent]
      rfl
  · rename_i hfinished
    have htarget : linkTarget toLowercase board job sessionId = none := by
      rw [htarget, hfinished]
      rfl
    split
    · exact hnothing nofun htarget
    · exact hnothing nofun htarget

/-- Attaching the session of a run, while it works and after it, changes the task that is
identified and no other, and an attached session is on that task, exactly when lists that are
written are plain and no other task has the session away from its end. -/
theorem session_attached_iff {during after : Folder} (hs : isSessionId sessionId = true)
    (hduring : TasksNamed during) (hafter : TasksNamed after) (job : AgentRunJob)
    (doingTaskContentsBefore : List Text) (selectedTaskIdentity : Option Text)
    (runStatus : String) :
    (AttachesTo toLowercase during
        (attachCodexSessionToActiveTask toLowercase during job.taskSelection
          doingTaskContentsBefore job.blockedTaskSnapshotsBefore sessionId
          selectedTaskIdentity).1 sessionId
        (attachTarget toLowercase during job.taskSelection doingTaskContentsBefore
          job.blockedTaskSnapshotsBefore) ∧
      LinksTo toLowercase after
        (linkAgentSessionAfterRunStage toLowercase after job sessionId runStatus) sessionId
        (linkTarget toLowercase after job sessionId)) ↔
    AttachesToPlain toLowercase during job.taskSelection doingTaskContentsBefore
        job.blockedTaskSnapshotsBefore sessionId selectedTaskIdentity ∧
      LinksToPlain toLowercase after job sessionId :=
  and_congr (attachesTo_stage_iff hs hduring ..) (linksTo_stage_iff hs hafter ..)

/-- A board of four lists. -/
def markdownBoard (todo doing done : String) : Folder :=
  [("todo.md".toList, .file todo.toList), ("doing.md".toList, .file doing.toList),
    ("done.md".toList, .file done.toList), ("backlog.md".toList, .file [])]

theorem tasksNamed_markdownBoard (todo doing done : String) :
    TasksNamed (markdownBoard todo doing done) := by
  intro status tasks h
  have hnone : folderAt (markdownBoard todo doing done) status.dirName = none := by
    cases status <;> rfl
  rw [hnone] at h
  cases h

/-- A run of the next task, on a board that had no task done or blocked before. -/
def nextTodoJob : AgentRunJob := ⟨.nextTodo, [], []⟩

/-- The task that was completed in one of the lists, on its second line. -/
def builtTask : TaskEntry := ⟨.markdownLine 1, "Built".toList, false⟩

/-- The board after the run. -/
def builtBoard : Folder := markdownBoard "" "" "# Done\n- Built\n"

theorem plainLines_builtBoard : PlainLines builtBoard .done builtTask.source := by
  intro i text hi htext j hj l hlt hl
  have hfile : fileAt builtBoard (TaskStatus.filename .done) =
      some "# Done\n- Built\n".toList := rfl
  have hraw : Text.rawLines "# Done\n- Built\n".toList =
      ["# Done".toList, "- Built".toList, []] := by decide
  cases Option.some.inj (hfile.symm.trans htext)
  rw [hraw] at hlt hl
  match j, hlt with
  | 0, _ => cases hl; decide
  | 1, _ => cases hl; decide

theorem session_attached_built :
    AttachesTo (List.map Char.toLower) (markdownBoard "" "" "")
        (attachCodexSessionToActiveTask (List.map Char.toLower) (markdownBoard "" "" "") .nextTodo
          [] [] "s".toList none).1 "s".toList
        (attachTarget (List.map Char.toLower) (markdownBoard "" "" "") .nextTodo [] []) ∧
      LinksTo (List.map Char.toLower) builtBoard
        (linkAgentSessionAfterRunStage (List.map Char.toLower) builtBoard nextTodoJob "s".toList
          "success") "s".toList
        (linkTarget (List.map Char.toLower) builtBoard nextTodoJob "s".toList) := by
  refine (session_attached_iff rfl (tasksNamed_markdownBoard "" "" "")
    (tasksNamed_markdownBoard "" "" "# Done\n- Built\n") nextTodoJob [] none "success").mpr ⟨?_, ?_⟩
  · intro entry h
    have hnone : attachTarget (List.map Char.toLower) (markdownBoard "" "" "") .nextTodo [] [] =
        none := by decide
    cases hnone.symm.trans h
  · intro status entry h
    have htarget : linkTarget (List.map Char.toLower) builtBoard nextTodoJob "s".toList =
        some (.done, builtTask) := by decide
    have hsearch : taskForCodexSessionInBoard (List.map Char.toLower) true "s".toList builtBoard =
        some none := by decide
    cases htarget.symm.trans h
    exact ⟨fun _ => plainLines_builtBoard, fun found hfound => by cases hsearch.symm.trans hfound⟩

/-- A stopped task has the session, and another task is completed. -/
def stoppedBoard : Folder := markdownBoard "- Old codex:s clt:stopped\n" "" "# Done\n- Built\n"

/-- The completed task is reported as attached, and it has no session. -/
theorem attached_without_link :
    ¬ ∀ (toLowercase : Text → Text) (during after : Folder) (sessionId : Text) (job : AgentRunJob)
        (doingTaskContentsBefore : List Text) (selectedTaskIdentity : Option Text)
        (runStatus : String), isSessionId sessionId = true → TasksNamed during →
        TasksNamed after →
        AttachesTo toLowercase during
          (attachCodexSessionToActiveTask toLowercase during job.taskSelection
            doingTaskContentsBefore job.blockedTaskSnapshotsBefore sessionId
            selectedTaskIdentity).1 sessionId
          (attachTarget toLowercase during job.taskSelection doingTaskContentsBefore
            job.blockedTaskSnapshotsBefore) ∧
        LinksTo toLowercase after
          (linkAgentSessionAfterRunStage toLowercase after job sessionId runStatus) sessionId
          (linkTarget toLowercase after job sessionId) := by
  intro h
  have hnamed : TasksNamed stoppedBoard :=
    tasksNamed_markdownBoard "- Old codex:s clt:stopped\n" "" "# Done\n- Built\n"
  have hlinks := (h (List.map Char.toLower) stoppedBoard stoppedBoard "s".toList nextTodoJob []
    none "success" rfl hnamed hnamed).2
  have htarget : linkTarget (List.map Char.toLower) stoppedBoard nextTodoJob "s".toList =
      some (.done, builtTask) := by decide
  have hattached : (linkAgentSessionAfterRunStage (List.map Char.toLower) stoppedBoard nextTodoJob
      "s".toList "success").2 = some .attached := by decide
  have hread : readTaskEntries (List.map Char.toLower) (linkAgentSessionAfterRunStage
      (List.map Char.toLower) stoppedBoard nextTodoJob "s".toList "success").1 .done =
        some [builtTask] := by decide
  obtain ⟨status, entry, htarget', entries, hread', listed, hlisted, -, hsession⟩ :=
    hlinks.carries hattached
  cases htarget.symm.trans htarget'
  cases hread.symm.trans hread'
  cases List.mem_singleton.mp hlisted
  have hnone : recoverableCodexSessionIdFromTaskContent builtTask.content = none := by
    decide
  cases hnone.symm.trans hsession

end Stages

end Clt
