import Clt.Task.InclusiveLines

/-!
# Whitespace at the end of a task

A task in a list is a line, and a task in a folder is a file that ends in a line feed. What is
read of a task (its session, its markers, its note) does not depend on the whitespace at its end.
-/

namespace Clt

open Text

/-! ## Words -/

section Words

variable {s t : Text}

theorem pieces_of_trimEnd_eq (h : trimEnd s = trimEnd t) : (pieces s).1 = (pieces t).1 := by
  have hs := congrArg Prod.fst (pieces_trimEnd s)
  have ht := congrArg Prod.fst (pieces_trimEnd t)
  rw [← hs, h, ht]

theorem splitWhitespace_of_trimEnd_eq (h : trimEnd s = trimEnd t) :
    splitWhitespace s = splitWhitespace t := by
  rw [splitWhitespace, pieces_of_trimEnd_eq h, splitWhitespace]

theorem taskContentIsStopped_of_trimEnd_eq (h : trimEnd s = trimEnd t) :
    taskContentIsStopped s = taskContentIsStopped t := by
  rw [taskContentIsStopped, lastWord, splitWhitespace_of_trimEnd_eq h, taskContentIsStopped,
    lastWord]

theorem taskContentIsManual_of_trimEnd_eq (h : trimEnd s = trimEnd t) :
    taskContentIsManual s = taskContentIsManual t := by
  rw [taskContentIsManual, splitWhitespace_of_trimEnd_eq h, taskContentIsManual]

theorem codexSessionId_of_trimEnd_eq (h : trimEnd s = trimEnd t) :
    codexSessionIdFromTaskContent s = codexSessionIdFromTaskContent t := by
  rw [codexSessionIdFromTaskContent, lastWord, splitWhitespace_of_trimEnd_eq h,
    codexSessionIdFromTaskContent, lastWord]

/-- Only the last word has the whitespace at the end behind it. -/
theorem filterMap_wordsBeforeGaps {f : Text × Text → Option (Text × Text)} {ps : List Piece}
    (h : ∀ p, ps.getLast? = some p → ∀ gap, f (p.word, gap) = none) (tail tail' : Text) :
    (wordsBeforeGaps ps tail).filterMap f = (wordsBeforeGaps ps tail').filterMap f := by
  induction ps with
  | nil => rfl
  | cons p ps ih =>
    cases ps with
    | nil =>
      have hp := h p rfl
      rw [wordsBeforeGaps, wordsBeforeGaps, List.filterMap_cons_none (hp tail),
        List.filterMap_cons_none (hp tail')]
    | cons q ps =>
      have hrest := ih fun r hr => h r (by rw [List.getLast?_cons_cons]; exact hr)
      rw [wordsBeforeGaps, wordsBeforeGaps, List.filterMap_cons, List.filterMap_cons, hrest]

theorem codexSessionMarkers_of_trimEnd_eq (h : trimEnd s = trimEnd t)
    (hlast : codexSessionIdFromTaskContent s = none) :
    codexSessionMarkersInTaskContent s = codexSessionMarkersInTaskContent t := by
  rw [codexSessionMarkersInTaskContent, codexSessionMarkersInTaskContent,
    pieces_of_trimEnd_eq h]
  refine filterMap_wordsBeforeGaps (fun p hp gap => ?_) _ _
  rw [codexSessionIdFromTaskContent, lastWord, splitWhitespace, pieces_of_trimEnd_eq h,
    List.getLast?_map, hp, Option.map_some, Option.bind_some] at hlast
  dsimp only
  rw [hlast]
  rfl

theorem recoverableSession_of_trimEnd_eq (h : trimEnd s = trimEnd t) :
    recoverableCodexSessionIdFromTaskContent s = recoverableCodexSessionIdFromTaskContent t := by
  have hstopped := taskContentIsStopped_of_trimEnd_eq h
  unfold recoverableCodexSessionIdFromTaskContent taskContentWithoutStopMarker
  rw [hstopped]
  cases taskContentIsStopped t with
  | true => rw [if_pos rfl, if_pos rfl, h]
  | false =>
    rw [if_neg Bool.false_ne_true, if_neg Bool.false_ne_true]
    dsimp only
    have hsession := codexSessionId_of_trimEnd_eq h
    cases hnone : codexSessionIdFromTaskContent s with
    | some sessionId => rw [← hsession, hnone]
    | none =>
      rw [← hsession, hnone]
      dsimp only
      rw [codexSessionMarkers_of_trimEnd_eq h hnone]

end Words

/-! ## Notes -/

section Notes

variable {u v w marker : Text} {index : Nat}

/-- A dated note of the kind begins at the index. -/
def noteBeginsAt (marker uppercase : Text) (index : Nat) : Bool :=
  marker.isPrefixOf (uppercase.drop index) && isNoteAt marker uppercase index

theorem length_of_startsWithTaskNoteDate (h : startsWithTaskNoteDate v = true) :
    11 ≤ v.length := by
  rw [startsWithTaskNoteDate, Bool.and_eq_true, decide_eq_true_eq] at h
  exact h.1

theorem startsWithTaskNoteDate_of_long (hlong : 11 ≤ v.length) (w : Text) :
    startsWithTaskNoteDate (v ++ w) = startsWithTaskNoteDate v := by
  have hzip : (v ++ w).zip "0000-00-00:".toList = v.zip "0000-00-00:".toList := by
    rw [← List.append_nil "0000-00-00:".toList]
    have hlength : (v.take 11).length = "0000-00-00:".toList.length := by
      rw [List.length_take, Nat.min_eq_left hlong]
      rfl
    rw [← List.take_append_drop 11 v, List.append_assoc, List.zip_append hlength,
      List.zip_append hlength, List.zip_nil_right, List.zip_nil_right]
  rw [startsWithTaskNoteDate, startsWithTaskNoteDate, hzip, List.length_append,
    decide_eq_true hlong, decide_eq_true (Nat.le_add_right_of_le hlong)]

/-- A date ends in a colon, which is not whitespace. -/
theorem startsWithTaskNoteDate_append (hw : IsBlank w) :
    startsWithTaskNoteDate (v ++ w) = startsWithTaskNoteDate v := by
  by_cases hlong : 11 ≤ v.length
  · exact startsWithTaskNoteDate_of_long hlong w
  · rw [startsWithTaskNoteDate, startsWithTaskNoteDate, decide_eq_false hlong, Bool.false_and,
      Bool.and_eq_false_iff, or_iff_not_imp_left, decide_eq_false_iff_not, not_not]
    intro hwide
    rw [Bool.eq_false_iff]
    intro hall
    have hten : 10 < ((v ++ w).zip "0000-00-00:".toList).length := by
      rw [List.length_zip]
      exact Nat.lt_min.mpr ⟨hwide, by decide⟩
    have hcolon := List.all_eq_true.mp hall _ (List.getElem_mem hten)
    rw [List.getElem_zip] at hcolon
    have hend : (v ++ w)[10] = ':' := beq_iff_eq.mp hcolon
    have hmem : (v ++ w)[10] ∈ w := by
      rw [List.getElem_append_right (by omega)]
      exact List.getElem_mem _
    have hblank := hw _ hmem
    rw [hend] at hblank
    exact absurd hblank (by decide)

theorem noteBeginsAt_append (hw : IsBlank w) :
    noteBeginsAt marker (u ++ w) index = noteBeginsAt marker u index := by
  by_cases hinside : index + marker.length ≤ u.length
  · have hdrop : (u ++ w).drop (index + marker.length) = u.drop (index + marker.length) ++ w :=
      List.drop_append_of_le_length hinside
    have hnote : isNoteAt marker (u ++ w) index = isNoteAt marker u index := by
      rw [isNoteAt, isNoteAt, hdrop, startsWithTaskNoteDate_append hw,
        List.take_append_of_le_length (by omega)]
    have hprefix : marker.isPrefixOf ((u ++ w).drop index) = marker.isPrefixOf (u.drop index) := by
      rw [Bool.eq_iff_iff, List.isPrefixOf_iff_prefix, List.isPrefixOf_iff_prefix,
        List.drop_append_of_le_length (by omega)]
      have hlong : marker.length ≤ (u.drop index).length := by
        rw [List.length_drop]
        omega
      exact ⟨fun h => List.prefix_of_prefix_length_le h (List.prefix_append _ _) hlong,
        fun h => h.trans (List.prefix_append _ _)⟩
    rw [noteBeginsAt, noteBeginsAt, hnote, hprefix]
  · -- What is left of the text at the end of the marker is blank, and no date.
    have hnone (t : Text) (ht : IsBlank (t.drop (index + marker.length))) :
        noteBeginsAt marker t index = false := by
      rw [noteBeginsAt, isNoteAt, ← List.nil_append (t.drop (index + marker.length)),
        startsWithTaskNoteDate_append ht]
      exact Bool.and_eq_false_iff.mpr (.inr (Bool.and_false _))
    rw [hnone, hnone]
    · rw [List.drop_of_length_le (by omega)]
      exact isBlank_nil
    · rw [List.drop_append, List.drop_of_length_le (by omega), List.nil_append]
      exact fun c hc => hw c (List.mem_of_mem_drop hc)

/-- Where dated notes of the kind begin. -/
def noteIndices (marker uppercase : Text) : List Nat :=
  (List.range uppercase.length).filter (noteBeginsAt marker uppercase)

theorem noteIndices_append (hw : IsBlank w) : noteIndices marker (u ++ w) = noteIndices marker u := by
  have hbegins : noteBeginsAt marker (u ++ w) = noteBeginsAt marker u :=
    funext fun _ => noteBeginsAt_append hw
  rw [noteIndices, noteIndices, hbegins, List.length_append, List.range_add, List.filter_append]
  have hnone : ((List.range w.length).map (u.length + ·)).filter (noteBeginsAt marker u) = [] := by
    refine List.filter_eq_nil_iff.mpr fun index hindex hbegins => ?_
    obtain ⟨offset, -, rfl⟩ := List.mem_map.mp hindex
    rw [noteBeginsAt, isNoteAt, Bool.and_eq_true, Bool.and_eq_true] at hbegins
    have hlength := length_of_startsWithTaskNoteDate hbegins.2.2
    rw [List.length_drop] at hlength
    omega
  rw [hnone, List.append_nil]

theorem toUpper_of_isWhitespace {c : Char} (h : isWhitespace c = true) : c.toUpper = c := by
  have hlower : ¬ (97 ≤ c.toNat ∧ c.toNat ≤ 122) := by
    rintro ⟨hle, hge⟩
    have hnot : isWhitespace c = false := by
      unfold isWhitespace
      simp only [Bool.or_eq_false_iff, Bool.and_eq_false_iff, decide_eq_false_iff_not]
      omega
    rw [hnot] at h
    cases h
  exact dif_neg hlower

theorem map_toUpper_append (hw : IsBlank w) :
    (u ++ w).map Char.toUpper = u.map Char.toUpper ++ w := by
  rw [List.map_append]
  congr 1
  conv_rhs => rw [← List.map_id w]
  exact List.map_congr_left fun c hc => toUpper_of_isWhitespace (hw c hc)

theorem foldl_matchIndices {α : Type} (marker uppercase : Text) (latest : α)
    (f : α → Nat → α) :
    (matchIndices marker uppercase).foldl (fun latest index =>
        if isNoteAt marker uppercase index then f latest index else latest) latest =
      (noteIndices marker uppercase).foldl f latest := by
  rw [← List.foldl_filter, matchIndices, List.filter_filter, noteIndices]
  congr 2
  funext index
  rw [noteBeginsAt, Bool.and_comm]

/-- The last note of a kind, unless a later one is known. -/
def latestOfKind (line : Text) (latest : Option (Nat × TaskBlockingState))
    (kind : Text × TaskBlockingState) : Option (Nat × TaskBlockingState) :=
  (noteIndices kind.1 (line.map Char.toUpper)).foldl (fun latest index =>
    if latest.all (fun found => found.1 < index) then some (index, kind.2) else latest) latest

theorem latestTaskBlockingNoteOnLine_eq (line : Text) :
    latestTaskBlockingNoteOnLine line = [("BLOCKED ".toList, TaskBlockingState.blocked),
      ("UNBLOCKED ".toList, .unblocked), ("COMPLETED ".toList, .unblocked)].foldl
        (latestOfKind line) none := by
  unfold latestTaskBlockingNoteOnLine
  refine List.foldl_ext _ _ _ fun latest kind _ => ?_
  rw [latestOfKind, ← foldl_matchIndices]
  refine List.foldl_ext _ _ _ fun latest index _ => ?_
  cases isNoteAt kind.1 (line.map Char.toUpper) index <;> rfl

theorem latestTaskBlockingNoteOnLine_append (hw : IsBlank w) :
    latestTaskBlockingNoteOnLine (u ++ w) = latestTaskBlockingNoteOnLine u := by
  have hkind : latestOfKind (u ++ w) = latestOfKind u := by
    funext latest kind
    rw [latestOfKind, latestOfKind, map_toUpper_append hw, noteIndices_append hw]
  rw [latestTaskBlockingNoteOnLine_eq, latestTaskBlockingNoteOnLine_eq, hkind]

/-- What a task of one line says about being blocked. -/
def blockedOnLine (line : Text) : Bool :=
  match latestTaskBlockingNoteOnLine line with
  | some (_, state) => state == .blocked
  | none => eqIgnoreAsciiCase (trim ((trim line).dropWhile fun c =>
      c == '#' || c == '-' || c == '*' || c == ' ')) "blocked note:".toList

theorem blockedOnLine_append (hw : IsBlank w) : blockedOnLine (u ++ w) = blockedOnLine u := by
  have htrim : trim (u ++ w) = trim u := by
    rw [← trim_trimEnd, trimEnd_append_of_whitespace u hw, trim_trimEnd]
  rw [blockedOnLine, blockedOnLine, latestTaskBlockingNoteOnLine_append hw, htrim]

theorem taskContentIsBlocked_line {line : Text} (h : IsLine line) :
    taskContentIsBlocked line = blockedOnLine line := by
  rw [taskContentIsBlocked, taskBlockingNote, splitInclusive_line h, blockingNoteFrom,
    blockingNoteFrom, blockedOnLine]
  cases latestTaskBlockingNoteOnLine line with
  | none =>
    dsimp only
    cases eqIgnoreAsciiCase (trim ((trim line).dropWhile fun c =>
      c == '#' || c == '-' || c == '*' || c == ' ')) "blocked note:".toList <;> rfl
  | some found =>
    obtain ⟨index, state⟩ := found
    cases state <;> rfl

theorem eq_trimEnd_append (t : Text) : ∃ w, IsBlank w ∧ t = trimEnd t ++ w := by
  refine ⟨t.rtakeWhile isWhitespace, fun c hc => ?_, (List.rdropWhile_append_rtakeWhile).symm⟩
  exact List.mem_rtakeWhile_imp hc

/-- A line of a list and the file made from it read alike. -/
theorem taskContentIsBlocked_of_trimEnd_eq {s t : Text} (hs : '\n' ∉ s)
    (h : trimEnd s = trimEnd t) (ht : IsLine t) :
    taskContentIsBlocked s = taskContentIsBlocked t := by
  obtain ⟨w, hw, hs'⟩ := eq_trimEnd_append s
  obtain ⟨w', hw', ht'⟩ := eq_trimEnd_append t
  have hright : taskContentIsBlocked t = blockedOnLine (trimEnd s) := by
    rw [taskContentIsBlocked_line ht, ht', blockedOnLine_append hw', h]
  have hleft : taskContentIsBlocked s = blockedOnLine (trimEnd s) := by
    by_cases hnil : s = []
    · subst hnil
      decide
    · rw [taskContentIsBlocked_line (.inr ⟨hnil, hs⟩)]
      conv_lhs => rw [hs']
      exact blockedOnLine_append hw
  rw [hleft, hright]

end Notes

end Clt
