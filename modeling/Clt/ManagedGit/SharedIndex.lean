import Clt.Task.Board
import Clt.Task.InclusiveLines

/-!
# Correcting the staged Done board

`correct_shared_index` puts the selected entry of the staged Done board where the sealed board
has it. It rebuilds the text from what stands before the entry's text in the sealed board, the
entry, and the staged text without the entry. The other staged lines are kept when these three
meet at the ends of lines.
-/

namespace Clt

open Text

/-! ## The entry of a session -/

/-- The line is an entry that links to the session. -/
def isEntryOf (session line : Text) : Bool :=
  "- ".toList.isPrefixOf line && codexSessionIdFromTaskContent (trim line) == some session

/-- The loop of `selected_line_removed` over the lines that are left. -/
def removeSelected (session : Text) (selected : Option Text) (rest : Text) :
    List Text → Option (Text × Text)
  | [] => selected.map fun line => (line, rest)
  | line :: ls =>
    if isEntryOf session line then
      if selected.isSome then none else removeSelected session (some line) rest ls
    else removeSelected session selected (rest ++ line) ls

/-- `selected_line_removed`: the only entry of the session, and the text without it. -/
def selectedLineRemoved (text session : Text) : Option (Text × Text) :=
  removeSelected session none [] (splitInclusive text)

/-! ## The correction -/

/-- What the shared index has for the Done board. -/
structure SharedIndex where
  /-- What `git show` prints, when the index has one Done board. -/
  board : Option Text
  /-- What `git ls-files --stage` prints. -/
  entries : Except String Text

/-- Git, as far as the correction writes with it. -/
structure BoardGit where
  /-- `git hash-object -w --stdin`: the id of the blob that is stored. -/
  hashObject : Text → Except String Text
  /-- `git update-index --cacheinfo`, with the mode, the id and the path. -/
  updateIndex : Text → Except String Unit
  /-- What `git ls-files --stage` prints after the index was written. -/
  entriesAfter : Text → Except String Text

/-- `DONE_PATH`. -/
def donePath : Text := "tasks/done.md".toList

/-- The end of `correct_shared_index`: the corrected board is stored and staged. -/
def stageCorrected (git : BoardGit) (index : SharedIndex) (corrected : Text) :
    Except String Unit × SharedIndex :=
  match index.entries with
  | .error error => (.error error, index)
  | .ok entries =>
    match splitWhitespace entries with
    | [mode, _, ['0'], _] =>
      match git.hashObject corrected with
      | .error error => (.error error, index)
      | .ok oid =>
        let info := mode ++ [','] ++ trim oid ++ [','] ++ donePath
        match git.updateIndex info with
        | .error error => (.error error, index)
        | .ok () => (.ok (), { board := some corrected, entries := git.entriesAfter info })
    | _ => (.error "Shared index contains an unresolved Done-board merge", index)

/-- `correct_shared_index`. The sealed board is what its blob holds. -/
def correctSharedIndex (git : BoardGit) (sealed : Except String Text) (index : SharedIndex)
    (session : Text) : Except String Unit × SharedIndex :=
  match sealed with
  | .error error => (.error error, index)
  | .ok expected =>
    match selectedLineRemoved expected session with
    | none => (.error "Sealed Done entry is ambiguous", index)
    | some (selected, _) =>
      match findText selected expected with
      | none => (.error "Sealed Done entry disappeared", index)
      | some start =>
        let pre := expected.take start
        if (lines pre).any fun line => "- ".toList.isPrefixOf line then
          (.error "Automatic order repair requires the selected task to be the first Done entry",
            index)
        else
          match index.board with
          | none => (.error "Shared index has no unambiguous Done board", index)
          | some staged =>
            match selectedLineRemoved staged session with
            | none => (.error "Shared index no longer has the exact selected Done entry", index)
            | some (stagedSelected, remainder) =>
              if stagedSelected == selected && pre.isPrefixOf remainder then
                let corrected := pre ++ selected ++ remainder.drop pre.length
                if corrected == staged then (.ok (), index) else stageCorrected git index corrected
              else
                (.error ("Shared index changed the selected task or board heading; preserve " ++
                  "those edits for explicit recovery"), index)

/-! ## What a correction should do -/

/-- The lines of a board that are not the session's entry. -/
def otherLines (session board : Text) : List Text :=
  (splitInclusive board).filter fun line => !isEntryOf session line

/-- The tasks that a board lists. -/
def taskTexts (board : Text) : List Text := (readMarkdownEntries board).map TaskEntry.content

/-- The result is the sealed heading, the entry as a line of its own and the other staged lines. -/
structure CorrectsTo (session expected staged result : Text) (heading : List Text)
    (selected : Text) (others : List Text) : Prop where
  entry : isEntryOf session selected = true
  sealed_eq : ∃ tail, splitInclusive expected = heading ++ selected :: tail
  staged_eq : otherLines session staged = heading ++ others
  result_eq : splitInclusive result = heading ++ selected :: others
  once : (splitInclusive result).filter (isEntryOf session) = [selected]
  tasks : ∃ text before after before' after', taskTexts staged = before ++ text :: after ∧
    taskTexts result = before' ++ text :: after' ∧ before ++ after = before' ++ after'

/-- What the sealed board has before the session's entry. -/
def sealedHeading (session expected : Text) : Text :=
  ((splitInclusive expected).takeWhile fun line => !isEntryOf session line).flatten

/-- The sealed heading, the entry and the staged text meet at the ends of lines: the staged text
has the whole heading, the entry ends in a line feed or nothing comes after it, and its text
stands nowhere in the heading but at the very end. -/
structure MeetsAtLineEnds (session expected staged selected : Text) : Prop where
  heading : sealedHeading session expected <+: (otherLines session staged).flatten
  ended : selected.getLast? = some '\n' ∨
    (otherLines session staged).flatten = sealedHeading session expected
  first : ∃ start, findText selected expected = some start ∧
    (start = (sealedHeading session expected).length ∨
      start + selected.length = (sealedHeading session expected).length)

/-! ## The entry and the other lines -/

section Entry

variable {session text selected remainder : Text}

theorem removeSelected_eq_some {found : Option Text} {rest : Text} {ls : List Text} :
    removeSelected session found rest ls = some (selected, remainder) ↔
      found.toList ++ ls.filter (isEntryOf session) = [selected] ∧
        remainder = rest ++ (ls.filter fun line => !isEntryOf session line).flatten := by
  induction ls generalizing found rest with
  | nil =>
    rw [removeSelected, List.filter_nil, List.append_nil, List.filter_nil, List.flatten_nil,
      List.append_nil]
    cases found with
    | none => simp
    | some line => simp [eq_comm]
  | cons line ls ih =>
    rw [removeSelected]
    by_cases hline : isEntryOf session line = true
    · rw [if_pos hline, List.filter_cons_of_pos hline, List.filter_cons_of_neg (by simp [hline])]
      cases found with
      | none => rw [Option.isSome_none, if_neg Bool.false_ne_true, ih]; rfl
      | some first =>
        rw [Option.isSome_some, if_pos rfl]
        simp
    · rw [if_neg hline, List.filter_cons_of_neg hline, List.filter_cons_of_pos (by simp [hline]),
        ih, List.flatten_cons, List.append_assoc]

theorem selectedLineRemoved_eq_some :
    selectedLineRemoved text session = some (selected, remainder) ↔
      (splitInclusive text).filter (isEntryOf session) = [selected] ∧
        remainder = (otherLines session text).flatten := by
  rw [selectedLineRemoved, removeSelected_eq_some]
  rfl

/-- The lines around the only one of its kind. -/
theorem exists_of_filter_singleton {α : Type} {p : α → Bool} {ls : List α} {x : α}
    (h : ls.filter p = [x]) :
    ∃ before after, ls = before ++ x :: after ∧ p x = true ∧ (∀ l ∈ before, p l = false) ∧
      ∀ l ∈ after, p l = false := by
  obtain ⟨before, after, rfl, hbefore, hx, hafter⟩ := List.filter_eq_cons_iff.mp h
  refine ⟨before, after, rfl, hx, fun l hl => ?_, fun l hl => ?_⟩
  · exact Bool.eq_false_iff.mpr (hbefore l hl)
  · exact Bool.eq_false_iff.mpr (List.filter_eq_nil_iff.mp hafter l hl)

theorem filter_not_around {α : Type} {p : α → Bool} {before after : List α} {x : α}
    (hx : p x = true) (hbefore : ∀ l ∈ before, p l = false) (hafter : ∀ l ∈ after, p l = false) :
    (before ++ x :: after).filter (fun l => !p l) = before ++ after := by
  rw [List.filter_append, List.filter_cons_of_neg (by simp [hx]),
    List.filter_eq_self.mpr fun l hl => by simp [hbefore l hl],
    List.filter_eq_self.mpr fun l hl => by simp [hafter l hl]]

theorem takeWhile_around {α : Type} {p : α → Bool} {before after : List α} {x : α}
    (hx : p x = true) (hbefore : ∀ l ∈ before, p l = false) :
    (before ++ x :: after).takeWhile (fun l => !p l) = before := by
  rw [List.takeWhile_append_of_pos fun l hl => by simp [hbefore l hl],
    List.takeWhile_cons_of_neg (by simp [hx]), List.append_nil]

theorem inclusiveLines_otherLines (session board : Text) :
    InclusiveLines (otherLines session board) :=
  (inclusiveLines_splitInclusive board).sublist List.filter_sublist

end Entry

/-! ## Texts that commute -/

section Commute

variable {selected middle pre : Text} {heading ls : List Text}

theorem forall_eq_of_cons_eq_append {α : Type} {x : α} {ls : List α} (h : x :: ls = ls ++ [x]) :
    ∀ l ∈ ls, l = x := by
  induction ls with
  | nil => exact fun l hl => absurd hl List.not_mem_nil
  | cons y ls ih =>
    obtain ⟨rfl, htail⟩ := List.cons.inj h
    intro l hl
    rcases List.mem_cons.mp hl with rfl | hl
    · rfl
    · exact ih htail l hl

/-- An entry that can change places with the end of the heading is that end, or nothing stands
between them. -/
theorem eq_nil_or_eq_of_commute (hterm : ∀ l ∈ heading, IsTerminated l)
    (hpre : pre ++ middle = heading.flatten) (hentry : selected ∉ heading)
    (hline : IsLine selected) (hcomm : selected ++ middle = middle ++ selected) :
    middle = [] ∨ middle = selected := by
  by_cases hnil : middle = []
  · exact .inl hnil
  refine .inr ?_
  have hend : middle.getLast? = some '\n' := by
    rcases getLast?_flatten hterm with hempty | hend
    · rw [hempty, List.append_eq_nil_iff] at hpre
      exact absurd hpre.2 hnil
    · rwa [← hpre, List.getLast?_append_of_ne_nil _ hnil] at hend
  have hselected : IsTerminated selected := by
    refine hline.isTerminated ?_
    rw [← hend, ← List.getLast?_append_of_ne_nil selected hnil, hcomm,
      List.getLast?_append_of_ne_nil _ hline.ne_nil]
  have hcons : selected :: splitInclusive middle = splitInclusive middle ++ [selected] := by
    rw [← splitInclusive_terminated hselected, hcomm, splitInclusive_append (.inr hend),
      splitInclusive_line hselected.isLine]
  have hall := forall_eq_of_cons_eq_append hcons
  -- A second copy would be a line of the heading.
  obtain ⟨first, ls, hsplit⟩ := List.exists_cons_of_ne_nil (splitInclusive_ne_nil hnil)
  rw [hsplit] at hall
  have hmiddle : middle = selected ++ ls.flatten := by
    rw [← flatten_splitInclusive middle, hsplit, List.flatten_cons, hall first List.mem_cons_self]
  by_cases hls : ls = []
  · rw [hmiddle, hls, List.flatten_nil, List.append_nil]
  have hmem : selected ∈ heading := by
    have hlines := (InclusiveLines.of_terminated hterm).splitInclusive_flatten
    have hsecond : (pre ++ selected).getLast? = some '\n' := by
      rw [List.getLast?_append_of_ne_nil _ hselected.ne_nil, hselected.getLast?]
    rw [← hlines, ← hpre, hmiddle, ← List.append_assoc, splitInclusive_append (.inr hsecond),
      List.mem_append]
    refine .inr ?_
    obtain ⟨next, rest, rfl⟩ := List.exists_cons_of_ne_nil hls
    have hnext : next = selected := hall next (List.mem_cons_of_mem _ List.mem_cons_self)
    rw [List.flatten_cons, hnext, splitInclusive_terminated hselected]
    exact List.mem_cons_self
  exact absurd hmem hentry

end Commute

/-! ## Runs of the correction -/

/-- The text in front of the first place where the pattern stands. -/
theorem findText_eq_some {pattern t : Text} {start : Nat} (h : findText pattern t = some start) :
    start ≤ t.length ∧ (∃ after, t = t.take start ++ (pattern ++ after)) ∧
      ∀ j < start, ¬ pattern <+: t.drop j := by
  rw [findText, List.find?_range_eq_some] at h
  obtain ⟨hfound, hmem, hfirst⟩ := h
  obtain ⟨after, hafter⟩ := List.isPrefixOf_iff_prefix.mp hfound
  refine ⟨Nat.lt_succ_iff.mp (List.mem_range.mp hmem), ⟨after, ?_⟩, fun j hj hprefix => ?_⟩
  · rw [hafter, List.take_append_drop]
  · have := hfirst j hj
    rw [List.isPrefixOf_iff_prefix.mpr hprefix] at this
    cases this

/-- What the correction puts together. -/
def correctedBoard (expected selected remainder : Text) (start : Nat) : Text :=
  expected.take start ++ selected ++ remainder.drop (expected.take start).length

/-- What the correction has checked when it puts the board together. -/
structure CorrectionGuards (session expected staged selected : Text) (start : Nat) : Prop where
  sealed_entry : (splitInclusive expected).filter (isEntryOf session) = [selected]
  first : findText selected expected = some start
  heading : (lines (expected.take start)).any (fun line => "- ".toList.isPrefixOf line) = false
  staged_entry : (splitInclusive staged).filter (isEntryOf session) = [selected]
  starts : expected.take start <+: (otherLines session staged).flatten

section Run

variable {git : BoardGit} {sealedBoard : Except String Text} {index : SharedIndex}
  {session : Text}

theorem stageCorrected_cases (git : BoardGit) (index : SharedIndex) (corrected : Text) :
    (stageCorrected git index corrected).1 = .ok () ∧
        (stageCorrected git index corrected).2.board = some corrected ∨
      (stageCorrected git index corrected).1 ≠ .ok () ∧
        (stageCorrected git index corrected).2 = index := by
  unfold stageCorrected
  split
  · exact .inr ⟨nofun, rfl⟩
  · split
    · split
      · exact .inr ⟨nofun, rfl⟩
      · dsimp only
        split
        · exact .inr ⟨nofun, rfl⟩
        · exact .inl ⟨rfl, rfl⟩
    · exact .inr ⟨nofun, rfl⟩

/-- A correction fails and leaves the index, or has checked its guards and leaves the board that
it put together. -/
theorem correctSharedIndex_cases (git : BoardGit) (sealedBoard : Except String Text)
    (index : SharedIndex) (session : Text) :
    (correctSharedIndex git sealedBoard index session).1 ≠ .ok () ∧
        (correctSharedIndex git sealedBoard index session).2 = index ∨
      ∃ expected staged selected start, sealedBoard = .ok expected ∧ index.board = some staged ∧
        CorrectionGuards session expected staged selected start ∧
        ((correctSharedIndex git sealedBoard index session).1 = .ok () ∧
          (correctSharedIndex git sealedBoard index session).2.board = some (correctedBoard
            expected selected (otherLines session staged).flatten start)) := by
  unfold correctSharedIndex
  cases hexpected : sealedBoard with
  | error error => exact .inl ⟨nofun, rfl⟩
  | ok expected =>
    dsimp only
    cases hsealed : selectedLineRemoved expected session with
    | none => exact .inl ⟨nofun, rfl⟩
    | some found =>
      obtain ⟨selected, rest⟩ := found
      dsimp only
      cases hfirst : findText selected expected with
      | none => exact .inl ⟨nofun, rfl⟩
      | some start =>
        dsimp only
        split
        · exact .inl ⟨nofun, rfl⟩
        rename_i hheading
        cases hboard : index.board with
        | none => exact .inl ⟨nofun, rfl⟩
        | some staged =>
          dsimp only
          cases hstaged : selectedLineRemoved staged session with
          | none => exact .inl ⟨nofun, rfl⟩
          | some found =>
            obtain ⟨stagedSelected, remainder⟩ := found
            dsimp only
            split
            · rename_i hguard
              rw [Bool.and_eq_true, beq_iff_eq, List.isPrefixOf_iff_prefix] at hguard
              obtain ⟨rfl, hprefix⟩ := hguard
              obtain ⟨hone, rfl⟩ := selectedLineRemoved_eq_some.mp hstaged
              have hguards : CorrectionGuards session expected staged stagedSelected start :=
                ⟨(selectedLineRemoved_eq_some.mp hsealed).1, hfirst,
                  Bool.eq_false_iff.mpr hheading, hone, hprefix⟩
              split
              · rename_i hsame
                rw [beq_iff_eq] at hsame
                refine .inr ⟨expected, staged, stagedSelected, start, rfl, rfl, hguards, rfl, ?_⟩
                rw [hboard, correctedBoard, hsame]
              · rcases stageCorrected_cases git index (expected.take start ++ stagedSelected ++
                  (otherLines session staged).flatten.drop (expected.take start).length)
                  with hdone | hfailed
                · exact .inr ⟨expected, staged, stagedSelected, start, rfl, rfl, hguards, hdone⟩
                · exact .inl hfailed
            · exact .inl ⟨nofun, rfl⟩

/-- A board that is as the correction would put it together stays. -/
theorem correctSharedIndex_of_guards {expected staged selected : Text} {start : Nat}
    (hboard : index.board = some staged)
    (hguards : CorrectionGuards session expected staged selected start)
    (hsame : correctedBoard expected selected (otherLines session staged).flatten start = staged) :
    correctSharedIndex git (.ok expected) index session = (.ok (), index) := by
  have hsealed : selectedLineRemoved expected session =
      some (selected, (otherLines session expected).flatten) :=
    selectedLineRemoved_eq_some.mpr ⟨hguards.sealed_entry, rfl⟩
  have hstaged : selectedLineRemoved staged session =
      some (selected, (otherLines session staged).flatten) :=
    selectedLineRemoved_eq_some.mpr ⟨hguards.staged_entry, rfl⟩
  have hprefix : (selected == selected &&
      (expected.take start).isPrefixOf (otherLines session staged).flatten) = true := by
    rw [beq_self_eq_true, Bool.true_and, List.isPrefixOf_iff_prefix]
    exact hguards.starts
  unfold correctSharedIndex
  dsimp only
  rw [hsealed]
  dsimp only
  rw [hguards.first]
  dsimp only
  rw [hguards.heading, if_neg Bool.false_ne_true, hboard]
  dsimp only
  rw [hstaged]
  dsimp only
  rw [if_pos hprefix, if_pos]
  rw [beq_iff_eq]
  exact hsame

end Run

/-! ## Tasks of a board -/

section Tasks

variable {session board selected : Text}

/-- The task that a line lists. -/
def lineTask (line : Text) : Option Text := stripPrefix "- ".toList (withoutLineEnd line)

theorem taskTexts_eq (board : Text) : taskTexts board = (splitInclusive board).filterMap lineTask := by
  rw [taskTexts, content_readMarkdownEntries, lines_eq_map_splitInclusive, List.filterMap_map]
  rfl

/-- The end of a line is not part of the dash that makes it an entry. -/
theorem lineTask_isSome (h : isEntryOf session selected = true) : (lineTask selected).isSome := by
  rw [isEntryOf, Bool.and_eq_true, List.isPrefixOf_iff_prefix] at h
  obtain ⟨⟨rest, hrest⟩, -⟩ := h
  have hdash : selected = '-' :: ' ' :: rest := hrest.symm
  have hkeeps : "- ".toList <+: withoutLineEnd selected := by
    rw [hdash, withoutLineEnd]
    split
    · cases rest with
      | nil => rename_i hend; exact absurd (Option.some.inj hend) (by decide)
      | cons c rest =>
        rw [List.dropLast_cons_cons, List.dropLast_cons_cons, stripCr]
        split
        · cases hlast : (c :: rest).dropLast with
          | nil =>
            rename_i hcr
            rw [hlast] at hcr
            exact absurd (Option.some.inj hcr) (by decide)
          | cons d ds => exact ⟨(d :: ds).dropLast, rfl⟩
        · exact ⟨_, rfl⟩
    · exact ⟨rest, rfl⟩
  rw [lineTask, stripPrefix, if_pos (List.isPrefixOf_iff_prefix.mpr hkeeps)]
  rfl

end Tasks

/-! ## When the staged lines are kept -/

section Kept

variable {session expected staged selected : Text} {start : Nat}

/-- The sealed board around its entry. -/
structure SealedParts (session expected selected : Text) (start : Nat) (heading tail : List Text)
    (middle : Text) : Prop where
  split_eq : splitInclusive expected = heading ++ selected :: tail
  entry : isEntryOf session selected = true
  no_entry : ∀ l ∈ heading, isEntryOf session l = false
  terminated : ∀ l ∈ heading, IsTerminated l
  line : IsLine selected
  heading_eq : sealedHeading session expected = heading.flatten
  pre_eq : expected.take start ++ middle = heading.flatten
  length_eq : (expected.take start).length = start

theorem CorrectionGuards.parts (h : CorrectionGuards session expected staged selected start) :
    ∃ heading tail middle, SealedParts session expected selected start heading tail middle := by
  obtain ⟨heading, tail, hsplit, hentry, hheading, -⟩ := exists_of_filter_singleton h.sealed_entry
  have hlines := inclusiveLines_splitInclusive expected
  rw [hsplit] at hlines
  have hexpected : expected = heading.flatten ++ (selected ++ tail.flatten) := by
    rw [← flatten_splitInclusive expected, hsplit, List.flatten_append, List.flatten_cons]
  obtain ⟨hle, -, hfirst⟩ := findText_eq_some h.first
  have hstart : start ≤ heading.flatten.length := by
    by_contra hlt
    refine hfirst heading.flatten.length (by omega) ?_
    rw [hexpected, List.drop_left]
    exact List.prefix_append _ _
  refine ⟨heading, tail, heading.flatten.drop start, hsplit, hentry, hheading,
    hlines.terminated_of_append (List.cons_ne_nil _ _), hlines.append_right.isLine, ?_, ?_,
    List.length_take_of_le hle⟩
  · rw [sealedHeading, hsplit, takeWhile_around hentry hheading]
  · rw [hexpected, List.take_append_of_le_length hstart, List.take_append_drop]

/-- The corrected board when the staged one has the whole sealed heading. -/
theorem correctedBoard_eq {heading tail : List Text} {middle rest : Text}
    (hparts : SealedParts session expected selected start heading tail middle)
    (hrest : heading.flatten ++ rest = (otherLines session staged).flatten) :
    correctedBoard expected selected (otherLines session staged).flatten start =
      expected.take start ++ (selected ++ middle ++ rest) := by
  rw [correctedBoard, ← hrest, ← hparts.pre_eq, List.append_assoc (expected.take start) middle,
    List.drop_left, List.append_assoc, List.append_assoc selected]

theorem correctsTo_of_meets (hguards : CorrectionGuards session expected staged selected start)
    (hmeets : MeetsAtLineEnds session expected staged selected) :
    ∃ heading others, CorrectsTo session expected staged
      (correctedBoard expected selected (otherLines session staged).flatten start)
      heading selected others := by
  obtain ⟨heading, tail, middle, hparts⟩ := hguards.parts
  obtain ⟨rest, hrest⟩ := hmeets.heading
  rw [hparts.heading_eq] at hrest
  have hcommute : expected.take start ++ (selected ++ middle ++ rest) =
      heading.flatten ++ (selected ++ rest) := by
    obtain ⟨start', hfirst, hend⟩ := hmeets.first
    cases hguards.first.symm.trans hfirst
    rw [hparts.heading_eq, ← hparts.pre_eq, List.length_append, hparts.length_eq] at hend
    rw [← hparts.pre_eq]
    rcases hend with hend | hend
    · have hnil : middle = [] := List.length_eq_zero_iff.mp (by omega)
      rw [hnil, List.append_nil, List.append_nil]
    · obtain ⟨-, ⟨after, hafter⟩, -⟩ := findText_eq_some hguards.first
      have hexpected : expected = expected.take start ++ (middle ++ (selected ++ tail.flatten)) := by
        rw [← List.append_assoc, hparts.pre_eq, ← List.flatten_cons, ← List.flatten_append,
          ← hparts.split_eq, flatten_splitInclusive]
      have hsame : selected ++ after = middle ++ (selected ++ tail.flatten) :=
        List.append_cancel_left (hafter.symm.trans hexpected)
      have hmiddle : selected = middle := (List.append_inj hsame (by omega)).1
      rw [← hmiddle, List.append_assoc, List.append_assoc]
  have hothers : otherLines session staged = heading ++ splitInclusive rest := by
    rw [← (inclusiveLines_otherLines session staged).splitInclusive_flatten, ← hrest,
      splitInclusive_flatten_append hparts.terminated]
  have hresult : splitInclusive (correctedBoard expected selected
      (otherLines session staged).flatten start) = heading ++ selected :: splitInclusive rest := by
    rw [correctedBoard_eq hparts hrest, hcommute, splitInclusive_flatten_append hparts.terminated]
    congr 1
    rcases hmeets.ended with hend | hnone
    · exact splitInclusive_terminated (hparts.line.isTerminated hend) rest
    · have hnil : rest = [] := by
        rw [hparts.heading_eq] at hnone
        exact List.append_cancel_left (hrest.trans (hnone.trans (List.append_nil _).symm))
      rw [hnil, List.append_nil, splitInclusive_line hparts.line]
      rfl
  have hfree : ∀ l ∈ splitInclusive rest, isEntryOf session l = false := by
    intro l hl
    have hmem : l ∈ otherLines session staged := hothers ▸ List.mem_append_right _ hl
    simpa using (List.mem_filter.mp hmem).2
  obtain ⟨before, after, hstaged, -, hbefore, hafter⟩ :=
    exists_of_filter_singleton hguards.staged_entry
  obtain ⟨text, htext⟩ := Option.isSome_iff_exists.mp (lineTask_isSome hparts.entry)
  have hlisted : before ++ after = heading ++ splitInclusive rest := by
    rw [← hothers, otherLines, hstaged, filter_not_around hparts.entry hbefore hafter]
  refine ⟨heading, splitInclusive rest, hparts.entry, ⟨tail, hparts.split_eq⟩, hothers, hresult,
    ?_, text, before.filterMap lineTask, after.filterMap lineTask, heading.filterMap lineTask,
    (splitInclusive rest).filterMap lineTask, ?_, ?_, ?_⟩
  · rw [hresult, List.filter_append, List.filter_cons_of_pos hparts.entry,
      List.filter_eq_nil_iff.mpr fun l hl => Bool.eq_false_iff.mp (hparts.no_entry l hl),
      List.filter_eq_nil_iff.mpr fun l hl => Bool.eq_false_iff.mp (hfree l hl)]
    rfl
  · rw [taskTexts_eq, hstaged, List.filterMap_append, List.filterMap_cons_some htext]
  · rw [taskTexts_eq, hresult, List.filterMap_append, List.filterMap_cons_some htext]
  · rw [← List.filterMap_append, hlisted, List.filterMap_append]

theorem meets_of_correctsTo (hguards : CorrectionGuards session expected staged selected start)
    {heading others : List Text} {found : Text}
    (h : CorrectsTo session expected staged
      (correctedBoard expected selected (otherLines session staged).flatten start)
      heading found others) :
    MeetsAtLineEnds session expected staged selected := by
  obtain ⟨heading', tail', middle, hparts⟩ := hguards.parts
  obtain ⟨tail, hsealed⟩ := h.sealed_eq
  -- The sealed board has one entry, so both ways to split it at its entry are one.
  have hone := hguards.sealed_entry
  rw [hsealed, List.filter_append, List.filter_cons_of_pos h.entry] at hone
  have hnone : heading.filter (isEntryOf session) = [] := by
    cases hfilter : heading.filter (isEntryOf session) with
    | nil => rfl
    | cons l ls =>
      rw [hfilter] at hone
      have := congrArg List.length hone
      simp at this
  rw [hnone, List.nil_append, List.cons.injEq] at hone
  obtain ⟨rfl, -⟩ := hone
  have hheading : sealedHeading session expected = heading.flatten := by
    rw [sealedHeading, hsealed, takeWhile_around h.entry fun l hl =>
      Bool.eq_false_iff.mpr (List.filter_eq_nil_iff.mp hnone l hl)]
  have hremainder : heading.flatten ++ others.flatten = (otherLines session staged).flatten := by
    rw [h.staged_eq, List.flatten_append]
  refine ⟨⟨others.flatten, by rw [hheading, hremainder]⟩, ?_, start, hguards.first, ?_⟩
  · have hlines := inclusiveLines_splitInclusive
      (correctedBoard expected found (otherLines session staged).flatten start)
    rw [h.result_eq] at hlines
    by_cases hnil : others = []
    · refine .inr ?_
      rw [← hremainder, hnil, List.flatten_nil, List.append_nil, hheading]
    · exact .inl (hlines.append_right.isTerminated hnil).getLast?
  · have hsame : heading.flatten = heading'.flatten := hheading.symm.trans hparts.heading_eq
    have hresult := flatten_splitInclusive
      (correctedBoard expected found (otherLines session staged).flatten start)
    rw [h.result_eq, List.flatten_append, List.flatten_cons,
      correctedBoard_eq hparts (hsame ▸ hremainder), hsame, ← hparts.pre_eq, List.append_assoc]
      at hresult
    have hcomm : found ++ middle = middle ++ found := by
      have := List.append_cancel_left hresult
      rw [← List.append_assoc] at this
      exact (List.append_cancel_right this).symm
    have hentry : found ∉ heading' := fun hmem => by
      have := hparts.no_entry found hmem
      rw [h.entry] at this
      cases this
    have hlength : (expected.take start ++ middle).length = heading'.flatten.length :=
      congrArg List.length hparts.pre_eq
    rw [List.length_append, hparts.length_eq] at hlength
    rw [hparts.heading_eq, ← hlength]
    rcases eq_nil_or_eq_of_commute hparts.terminated hparts.pre_eq hentry hparts.line hcomm
      with hnil | hselected
    · exact .inl (by rw [hnil]; rfl)
    · exact .inr (by rw [hselected])

end Kept

/-- A correction of the staged board that keeps every other line, and that a second one leaves. -/
def Corrects (git : BoardGit) (index : SharedIndex) (session expected staged : Text) : Prop :=
  ∃ heading selected others result,
    (correctSharedIndex git (.ok expected) index session).2.board = some result ∧
    CorrectsTo session expected staged result heading selected others ∧
    ∀ git', correctSharedIndex git' (.ok expected)
      (correctSharedIndex git (.ok expected) index session).2 session =
        (.ok (), (correctSharedIndex git (.ok expected) index session).2)

/-- A correction that fails leaves the index. One that succeeds keeps the other staged lines
exactly when the sealed heading, the entry and the staged text meet at the ends of lines. -/
theorem correctSharedIndex_keeps_iff (git : BoardGit) (sealedBoard : Except String Text)
    (index : SharedIndex) (session : Text) :
    ((correctSharedIndex git sealedBoard index session).1 ≠ .ok () →
      (correctSharedIndex git sealedBoard index session).2 = index) ∧
    ∀ expected staged selected, sealedBoard = .ok expected → index.board = some staged →
      (splitInclusive expected).filter (isEntryOf session) = [selected] →
      (correctSharedIndex git sealedBoard index session).1 = .ok () →
      (Corrects git index session expected staged ↔
        MeetsAtLineEnds session expected staged selected) := by
  rcases correctSharedIndex_cases git sealedBoard index session with
    ⟨hfailed, hsame⟩ | ⟨expected, staged, selected, start, rfl, hboard, hguards, hok, hafter⟩
  · exact ⟨fun _ => hsame, fun _ _ _ _ _ _ hok => absurd hok hfailed⟩
  refine ⟨fun hfailed => absurd hok hfailed, ?_⟩
  intro expected' staged' selected' hexpected hstaged hselected _
  cases hexpected
  cases hboard.symm.trans hstaged
  cases hguards.sealed_entry.symm.trans hselected
  constructor
  · rintro ⟨heading, found, others, result, hresult, hcorrects, -⟩
    cases hafter.symm.trans hresult
    exact meets_of_correctsTo hguards hcorrects
  · intro hmeets
    obtain ⟨heading, others, hcorrects⟩ := correctsTo_of_meets hguards hmeets
    refine ⟨heading, selected, others, _, hafter, hcorrects, fun git' => ?_⟩
    -- The other lines of the corrected board are those that the correction started from.
    have hothers : otherLines session (correctedBoard expected selected
        (otherLines session staged).flatten start) = otherLines session staged := by
      have hfree : ∀ l ∈ heading ++ others, isEntryOf session l = false := by
        intro l hl
        rw [← hcorrects.staged_eq] at hl
        simpa using (List.mem_filter.mp hl).2
      change ((splitInclusive _).filter fun line => !isEntryOf session line) = _
      rw [hcorrects.result_eq, hcorrects.staged_eq]
      exact filter_not_around hcorrects.entry (fun l hl => hfree l (List.mem_append_left _ hl))
        fun l hl => hfree l (List.mem_append_right _ hl)
    refine correctSharedIndex_of_guards hafter ⟨hguards.sealed_entry, hguards.first,
      hguards.heading, hcorrects.once, ?_⟩ (by rw [hothers])
    rw [hothers]
    exact hguards.starts

/-- A Git that stores and stages what it is given. -/
def storingGit : BoardGit where
  hashObject _ := .ok "oid\n".toList
  updateIndex _ := .ok ()
  entriesAfter _ := .ok "100644 oid 0\ttasks/done.md".toList

/-- An index with this Done board. -/
def indexOf (board : Text) : SharedIndex :=
  { board := some board, entries := .ok "100644 blob 0\ttasks/done.md".toList }

theorem correctSharedIndex_keeps :
    Corrects storingGit (indexOf "# Done\n- b\n- a codex:s\n".toList) "s".toList
      "# Done\n- a codex:s\n".toList "# Done\n- b\n- a codex:s\n".toList := by
  refine ((correctSharedIndex_keeps_iff storingGit (.ok "# Done\n- a codex:s\n".toList)
    (indexOf "# Done\n- b\n- a codex:s\n".toList) "s".toList).2 _ _ "- a codex:s\n".toList rfl rfl
    (by decide) (by decide)).mpr ⟨by decide, .inl (by decide), 7, by decide, .inl (by decide)⟩

/-- A board that does not end in a line feed gets the next entry on the selected line. -/
theorem joined_lines :
    ¬ ∀ (git : BoardGit) (index : SharedIndex) (session expected staged : Text),
      index.board = some staged →
      (correctSharedIndex git (.ok expected) index session).1 = .ok () →
      Corrects git index session expected staged := by
  intro h
  obtain ⟨heading, selected, others, result, hresult, hcorrects, -⟩ := h storingGit
    (indexOf "# Done\n- b\n- a codex:s".toList) "s".toList "# Done\n- a codex:s".toList
    "# Done\n- b\n- a codex:s".toList rfl (by decide)
  have hboard : (correctSharedIndex storingGit (.ok "# Done\n- a codex:s".toList)
      (indexOf "# Done\n- b\n- a codex:s".toList) "s".toList).2.board =
      some "# Done\n- a codex:s- b\n".toList := by decide
  cases hboard.symm.trans hresult
  have honce : ((splitInclusive "# Done\n- a codex:s- b\n".toList).filter
      (isEntryOf "s".toList)) = [] := by decide
  cases honce.symm.trans hcorrects.once

end Clt
