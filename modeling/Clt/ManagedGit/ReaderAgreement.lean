import Clt.ManagedGit.BoardReading

/-!
# When the two readers agree

Both readers walk the same items, so their entries differ by what each sees of the Markdown
lists alone (`entries_differ`): the Git reader takes an indented first line for an entry, and
the worktree reader an empty last one.
-/

namespace Clt

open Files

/-! ## Markdown lists -/

theorem stripPrefix_dash {line content : Text} :
    stripPrefix "- ".toList line = some content ↔ line = '-' :: ' ' :: content := by
  unfold stripPrefix
  constructor
  · intro h
    split at h
    · rename_i hprefix
      obtain ⟨rest, rfl⟩ := List.isPrefixOf_iff_prefix.mp hprefix
      rw [List.drop_left] at h
      rw [← Option.some.inj h]
      rfl
    · cases h
  · rintro rfl
    rfl

theorem stripPrefix_of_whitespace {c : Char} (hc : Text.isWhitespace c = true) (line : Text) :
    stripPrefix "- ".toList (c :: line) = none := by
  rw [Option.eq_none_iff_forall_ne_some]
  intro content h
  have hdash : c = '-' := (List.cons.inj (stripPrefix_dash.mp h)).1
  rw [hdash] at hc
  exact absurd hc (by decide)

theorem stripPrefix_of_blank {line : Text} (h : Text.isBlankLine line = true) :
    stripPrefix "- ".toList line = none := by
  cases line with
  | nil => rfl
  | cons c line =>
    rw [Text.isBlankLine_cons, Bool.and_eq_true] at h
    exact stripPrefix_of_whitespace h.1 line

theorem filterMap_of_blank {ls : List Text} (h : ∀ l ∈ ls, Text.isBlankLine l = true) :
    ls.filterMap (stripPrefix "- ".toList) = [] :=
  List.filterMap_eq_nil_iff.mpr fun l hl => stripPrefix_of_blank (h l hl)

/-- The entry that the indentation of the first line hides, which is the first that is not
blank. -/
def indentedEntry (text : Text) : List Text :=
  match (Text.lines text).find? fun line => !Text.isBlankLine line with
  | some (c :: line) =>
    if Text.isWhitespace c then (stripPrefix "- ".toList (Text.trimStart (c :: line))).toList else []
  | _ => []

/-- The entry without a text on the last line, which is the last that is not blank. -/
def emptyLastEntry (text : Text) : List Text :=
  match ((Text.lines text).filter fun line => !Text.isBlankLine line).getLast? with
  | some line =>
    match stripPrefix "- ".toList line with
    | some content => if Text.isBlankLine content then [[]] else []
    | none => []
  | none => []

theorem listEntries_trimStart (text : Text) :
    listEntries (Text.trimStart text) = indentedEntry text ++ listEntries text := by
  unfold listEntries indentedEntry
  rcases Text.lines_trimStart text with ⟨hblank, htrim⟩ | ⟨B, x, L, hlines, hB, hx, htrim⟩
  · have hnone : (Text.lines text).find? (fun line => !Text.isBlankLine line) = none :=
      List.find?_eq_none.mpr fun l hl => by simp [hblank l hl]
    rw [htrim, hnone, filterMap_of_blank hblank]
    rfl
  · have hfirst : (Text.lines text).find? (fun line => !Text.isBlankLine line) = some x := by
      have hnone : B.find? (fun line => !Text.isBlankLine line) = none :=
        List.find?_eq_none.mpr fun l hl => by simp [hB l hl]
      rw [hlines, List.find?_append, hnone]
      simp [hx]
    rw [hfirst, htrim, hlines, List.filterMap_append, filterMap_of_blank hB, List.nil_append]
    cases x with
    | nil => cases hx
    | cons c line =>
      cases hc : Text.isWhitespace c with
      | true =>
        simp only [hc, if_pos, List.filterMap_cons, stripPrefix_of_whitespace hc]
        cases stripPrefix "- ".toList (Text.trimStart (c :: line)) <;> rfl
      | false =>
        simp only [hc, Text.trimStart_cons_of_not_whitespace hc]
        rfl

/-- What is left of the last line when its end is trimmed. -/
theorem stripPrefix_trimEnd {line : Text} (h : Text.isBlankLine line = false) :
    (stripPrefix "- ".toList line).toList.map Text.trim =
      (stripPrefix "- ".toList (Text.trimEnd line)).toList.map Text.trim ++
        (match stripPrefix "- ".toList line with
        | some content => if Text.isBlankLine content then [[]] else []
        | none => []) := by
  cases hline : stripPrefix "- ".toList line with
  | none =>
    have hnone : stripPrefix "- ".toList (Text.trimEnd line) = none := by
      rw [Option.eq_none_iff_forall_ne_some]
      intro content hcontent
      obtain ⟨rest, hrest⟩ := Text.isPrefix_trimEnd line
      rw [stripPrefix_dash.mp hcontent] at hrest
      exact absurd (stripPrefix_dash.mpr hrest.symm) (by rw [hline]; nofun)
    rw [hnone]
    rfl
  | some content =>
    obtain rfl := stripPrefix_dash.mp hline
    cases hblank : Text.isBlankLine content with
    | true =>
      have htrim : Text.trimEnd ('-' :: ' ' :: content) = ['-'] := by
        have hrest : Text.isBlankLine (' ' :: content) = true := by
          rw [Text.isBlankLine_cons, hblank]
          rfl
        rw [Text.trimEnd_cons h, Text.trimEnd_eq_nil_iff.mpr hrest]
      rw [htrim]
      simp [hblank, Text.trim_eq_nil_iff.mpr hblank, stripPrefix]
    | false =>
      have hrest : Text.isBlankLine (' ' :: content) = false := by
        rw [Text.isBlankLine_cons, hblank, Bool.and_false]
      have htrim : Text.trimEnd ('-' :: ' ' :: content) = '-' :: ' ' :: Text.trimEnd content := by
        rw [Text.trimEnd_cons h, Text.trimEnd_cons hrest]
      rw [htrim, stripPrefix_dash.mpr rfl]
      simp [hblank, Text.trim_trimEnd]

theorem listEntries_trimEnd (text : Text) :
    (listEntries text).map Text.trim =
      (listEntries (Text.trimEnd text)).map Text.trim ++ emptyLastEntry text := by
  unfold listEntries emptyLastEntry
  rcases Text.lines_trimEnd text with ⟨hblank, htrim⟩ | ⟨L, y, B, hlines, hB, hy, htrim⟩
  · have hnone : (Text.lines text).filter (fun line => !Text.isBlankLine line) = [] :=
      List.filter_eq_nil_iff.mpr fun l hl => by simp [hblank l hl]
    rw [htrim, hnone, filterMap_of_blank hblank]
    rfl
  · have hlast : ((Text.lines text).filter fun line => !Text.isBlankLine line).getLast? = some y := by
      have hnone : B.filter (fun line => !Text.isBlankLine line) = [] :=
        List.filter_eq_nil_iff.mpr fun l hl => by simp [hB l hl]
      rw [hlines, List.filter_append, List.filter_cons_of_pos (by simp [hy]), hnone,
        List.getLast?_concat]
    have hentries : ∀ l : Text, [l].filterMap (stripPrefix "- ".toList) =
        (stripPrefix "- ".toList l).toList := by
      intro l
      rw [List.filterMap_cons]
      cases stripPrefix "- ".toList l <;> rfl
    rw [hlast, htrim, hlines, ← List.singleton_append, List.filterMap_append, List.filterMap_append,
      List.filterMap_append, filterMap_of_blank hB, List.append_nil, hentries, hentries,
      List.map_append, List.map_append, stripPrefix_trimEnd hy, List.append_assoc]

/-- A list as the two readers see it. -/
theorem listEntries_trim (text : Text) :
    (listEntries (Text.trim text)).map Text.trim ++ emptyLastEntry (Text.trimStart text) =
      (indentedEntry text).map Text.trim ++ (listEntries text).map Text.trim := by
  rw [Text.trim, ← listEntries_trimEnd, listEntries_trimStart, List.map_append]

/-! ## Board trees -/

/-- An entry without the whitespace around its text. -/
def GitTaskProofEntry.trimmed (entry : GitTaskProofEntry) : GitTaskProofEntry :=
  { entry with content := Text.trim entry.content }

/-- The entries of one status with these texts. -/
def entriesOf (status : TaskStatus) (texts : List Text) : List GitTaskProofEntry :=
  texts.map fun content => { status := status.dirName, content := content }

/-- What the Git reader alone takes for an entry. -/
def BoardItem.onlyInGitTree : BoardItem → List GitTaskProofEntry
  | .list status text => entriesOf status ((indentedEntry text).map Text.trim)
  | _ => []

/-- What the worktree reader alone takes for an entry. -/
def BoardItem.onlyInWorktree : BoardItem → List GitTaskProofEntry
  | .list status text => entriesOf status (emptyLastEntry (Text.trimStart text))
  | _ => []

theorem map_trimmed_entriesOf (status : TaskStatus) (texts : List Text) :
    (entriesOf status texts).map GitTaskProofEntry.trimmed = entriesOf status (texts.map Text.trim) := by
  simp [entriesOf, GitTaskProofEntry.trimmed, Function.comp_def]

theorem trim_committedText (task : Text × Node) :
    Text.trim (committedText task) = Text.trim (taskText task) := by
  obtain ⟨name, content | children⟩ := task
  · exact Text.trim_trim content
  · show Text.trim (((readDirectoryTaskContent children).map Text.trim).getD _) =
      Text.trim ((readDirectoryTaskContent children).getD _)
    cases readDirectoryTaskContent children with
    | none => rfl
    | some content => exact Text.trim_trim content

theorem item_differs (item : BoardItem) :
    item.inGitTree.map GitTaskProofEntry.trimmed ++ item.onlyInWorktree =
      item.onlyInGitTree ++ item.inWorktree.map GitTaskProofEntry.trimmed := by
  cases item with
  | board b => rfl
  | task status task =>
    simp [BoardItem.inGitTree, BoardItem.inWorktree, BoardItem.onlyInWorktree,
      BoardItem.onlyInGitTree, GitTaskProofEntry.trimmed, trim_committedText]
  | list status text =>
    show (entriesOf status _).map _ ++ entriesOf status _ =
      entriesOf status _ ++ (entriesOf status _).map _
    rw [map_trimmed_entriesOf, map_trimmed_entriesOf, entriesOf, entriesOf, entriesOf, entriesOf,
      ← List.map_append, ← List.map_append, listEntries_trim]

/-- The readers of a board tree differ by the lists alone. -/
theorem entries_differ (items : List BoardItem) :
    ((items.flatMap BoardItem.inGitTree).map GitTaskProofEntry.trimmed ++
        items.flatMap BoardItem.onlyInWorktree).Perm
      (items.flatMap BoardItem.onlyInGitTree ++
        (items.flatMap BoardItem.inWorktree).map GitTaskProofEntry.trimmed) := by
  rw [List.map_flatMap, List.map_flatMap]
  refine (List.flatMap_append_perm items _ _).trans ?_
  refine List.Perm.trans ?_ (List.flatMap_append_perm items _ _).symm
  rw [List.flatMap_congr fun item _ => item_differs item]

/-- The fuel beyond the depth of a tree makes no difference. -/
theorem boardItems_eq {board : Folder} {fuel fuel' : Nat} (hwf : WfFolder board)
    (h : depth board < fuel) (h' : depth board < fuel') :
    boardItems fuel board = boardItems fuel' board := by
  induction fuel generalizing board fuel' with
  | zero => omega
  | succ fuel ih =>
    obtain ⟨fuel', rfl⟩ : ∃ n, fuel' = n + 1 := ⟨fuel' - 1, by omega⟩
    rw [boardItems, boardItems]
    congr 1
    refine List.flatMap_congr fun status _ => ?_
    unfold statusItems
    cases hcontent : storeContent board status with
    | nothing => rfl
    | list text => rfl
    | tasks tasks =>
      have htasks := folderAt_of_storeContent hcontent
      refine List.flatMap_congr fun task htask => ?_
      cases hnested : boardOfTask task with
      | none => rfl
      | some nested =>
        have hmem : task ∈ tasks := (List.mem_filter.mp htask).1
        obtain ⟨hwfNested, hdepth⟩ := depth_boardOfTask hwf htasks hmem hnested
        show _ :: boardItems fuel nested = _ :: boardItems fuel' nested
        have hfuel : depth nested < fuel := by omega
        have hfuel' : depth nested < fuel' := by omega
        rw [ih hwfNested hfuel hfuel']

/-- The boards, tasks and lists of a tree. -/
def allItems (board : Folder) : List BoardItem := boardItems (depth board + 1) board

/-- A Git tree that holds the files of a board: regular files, and those alone. -/
structure CommittedBoard where
  board : Folder
  wf : WfFolder board
  tree : List GitTreeEntry
  regular : ∀ entry ∈ tree, entry.isRegular = true
  files : contents tree = filesUnder ("tasks".toList ++ ['/']) board

theorem le_foldr_max {n : Nat} {l : List Nat} (h : n ∈ l) : n ≤ l.foldr max 0 := by
  induction l with
  | nil => cases h
  | cons m l ih =>
    rw [List.foldr_cons]
    rcases List.mem_cons.mp h with rfl | h
    · exact Nat.le_max_left _ _
    · have := ih h
      omega

theorem CommittedBoard.depth_le (c : CommittedBoard) :
    depth c.board ≤ ((c.tree.map GitTreeEntry.path).map List.length).foldr max 0 := by
  by_cases hne : c.board = []
  · rw [hne]
    exact Nat.zero_le _
  · obtain ⟨child, hchild, hdepth⟩ := exists_mem_depth hne
    obtain ⟨f, hf, hlen⟩ := exists_deep_file ("tasks".toList ++ ['/'] ++ child.1)
      (c.wf.nodes child hchild)
    have hmem : f ∈ contents c.tree := by
      rw [c.files]
      exact mem_filesUnder.mpr ⟨child, hchild, hf⟩
    obtain ⟨entry, hentry, rfl⟩ := List.mem_map.mp hmem
    have hmax : entry.path.length ≤
        ((c.tree.map GitTreeEntry.path).map List.length).foldr max 0 :=
      le_foldr_max (List.mem_map_of_mem (List.mem_map_of_mem hentry))
    have hlen' : ("tasks".toList ++ ['/'] ++ child.1).length + child.2.depth ≤ entry.path.length := hlen
    omega

/-- The Git reader of the whole tree. -/
theorem gitRefTaskEntries_collects (c : CommittedBoard) :
    Collects (gitRefTaskEntries c.tree) ((allItems c.board).flatMap BoardItem.inGitTree) := by
  have hregular : c.tree.filter GitTreeEntry.isRegular = c.tree := List.filter_eq_self.mpr c.regular
  have hlists : Lists (contents c.tree) "tasks".toList c.board := by
    rw [c.files]
    exact lists_root c.wf
  have hfuel := Nat.lt_succ_of_le c.depth_le
  rw [gitRefTaskEntries, hregular, allItems, boardItems_eq c.wf (Nat.lt_succ_self _) hfuel]
  exact collectGitRefBoardTaskEntries_collects hlists hfuel

/-- Two readings give the same entries, up to their order and the whitespace around texts. -/
def SameEntries (a b : Option (List GitTaskProofEntry)) : Prop :=
  ∃ xs ys, a = some xs ∧ b = some ys ∧
    (xs.map GitTaskProofEntry.trimmed).Perm (ys.map GitTaskProofEntry.trimmed)

/-- A board is read from a Git tree as from the worktree exactly when no board of the tree is
blocked and the entries that each reader alone finds are the same. -/
theorem git_tree_agrees_iff (toLowercase : Text → Text) (c : CommittedBoard) :
    SameEntries (gitRefTaskEntries c.tree) (worktreeTaskEntries toLowercase c.board) ↔
      (∀ b, BoardItem.board b ∈ allItems c.board → ¬ Blocked b) ∧
        ((allItems c.board).flatMap BoardItem.onlyInGitTree).Perm
          ((allItems c.board).flatMap BoardItem.onlyInWorktree) := by
  obtain ⟨found, hfound, hperm⟩ := gitRefTaskEntries_collects c
  have hdiffer := entries_differ (allItems c.board)
  by_cases hfree : ∀ b, BoardItem.board b ∈ allItems c.board → ¬ Blocked b
  · obtain ⟨read, hread, hpermRead⟩ :=
      collectTaskEntries_collects toLowercase c.wf (Nat.lt_succ_self _) hfree
    have hgit := hperm.map GitTaskProofEntry.trimmed
    have hworktree := hpermRead.map GitTaskProofEntry.trimmed
    refine ⟨?_, ?_⟩
    · rintro ⟨xs, ys, hxs, hys, hsame⟩
      obtain rfl := Option.some.inj (hfound.symm.trans hxs)
      obtain rfl := Option.some.inj (hread.symm.trans hys)
      refine ⟨hfree, ?_⟩
      -- The same entries are taken away from both sides.
      have hboth := hdiffer.symm.trans
        (((hgit.symm.trans hsame).trans hworktree).append_right _)
      exact (List.perm_append_right_iff _).mp (hboth.trans List.perm_append_comm)
    · rintro ⟨-, hlists⟩
      refine ⟨found, read, hfound, hread, (hgit.trans ?_).trans hworktree.symm⟩
      have hboth := hdiffer.trans (hlists.append_right _)
      exact (List.perm_append_right_iff _).mp (hboth.trans List.perm_append_comm)
  · refine ⟨?_, fun h => absurd h.1 hfree⟩
    rintro ⟨xs, ys, -, hys, -⟩
    simp only [not_forall, not_not] at hfree
    obtain ⟨b, hb, hblocked⟩ := hfree
    have hnone : worktreeTaskEntries toLowercase c.board = none :=
      collectTaskEntries_eq_none c.wf hb hblocked
    rw [hnone] at hys
    cases hys

/-- A board with one Markdown list, as it is committed. -/
def listBoard (text : Text) : CommittedBoard where
  board := [("todo.md".toList, .file text)]
  wf := ⟨by simp, by simp [IsName], by simpa using .file text⟩
  tree := [{ mode := "100644".toList, objectType := "blob".toList, path := "tasks/todo.md".toList
             content := text }]
  regular := fun entry h => by
    rw [List.mem_singleton.mp h]
    rfl
  files := rfl

/-- An entry without a text at the end of a list is lost in the Git tree. -/
theorem empty_entry_lost :
    gitRefTaskEntries (listBoard "# To Do Tasks\n- write the report\n- ".toList).tree =
      some [{ status := "todo".toList, content := "write the report".toList }] ∧
    worktreeTaskEntries id (listBoard "# To Do Tasks\n- write the report\n- ".toList).board =
      some [{ status := "todo".toList, content := "write the report".toList },
        { status := "todo".toList, content := [] }] ∧
    ¬ SameEntries (gitRefTaskEntries (listBoard "# To Do Tasks\n- write the report\n- ".toList).tree)
      (worktreeTaskEntries id (listBoard "# To Do Tasks\n- write the report\n- ".toList).board) := by
  have hgit : gitRefTaskEntries (listBoard "# To Do Tasks\n- write the report\n- ".toList).tree =
      some [{ status := "todo".toList, content := "write the report".toList }] := by decide
  have hworktree : worktreeTaskEntries id
      (listBoard "# To Do Tasks\n- write the report\n- ".toList).board =
      some [{ status := "todo".toList, content := "write the report".toList },
        { status := "todo".toList, content := [] }] := by decide
  refine ⟨hgit, hworktree, ?_⟩
  rintro ⟨xs, ys, hxs, hys, hsame⟩
  rw [hgit] at hxs
  rw [hworktree] at hys
  have hlength := hsame.length_eq
  rw [← Option.some.inj hxs, ← Option.some.inj hys] at hlength
  exact absurd hlength (by decide)

end Clt
