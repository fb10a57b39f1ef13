import Clt.Task.SessionLink
import Clt.Task.TrailingSpace
import Clt.Text.Bytes

/-!
# The note that blocks a task

The lines of a task are read one after the other, and on each line the kinds of notes one after
the other. What is found is the last event of the whole text: a dated note, or the heading of a
section of notes. The offsets count the bytes of the lines, and the index of a note is that in
the line's upper case copy; both are offsets of characters of the text itself.
-/

namespace Clt

open Text

/-! ## Byte offsets -/

/-- `str::match_indices`, with the byte offsets that it gives. -/
def matchIndicesBytes (pattern t : Text) : List Nat :=
  (matchIndices pattern t).map fun index => utf8Len (t.take index)

/-- The body of the inner loop of `latest_task_blocking_note_on_line`; `none` is a panic. -/
def latestNoteAtByte (marker : Text) (state : TaskBlockingState) (uppercase : Text)
    (latest : Option (Nat × TaskBlockingState)) (index : Nat) :
    Option (Option (Nat × TaskBlockingState)) := do
  let before ← sliceTo uppercase index
  let remainder ← sliceFrom uppercase (index + utf8Len marker)
  let hasWordBoundary := before.getLast?.all fun c => !c.isAlphanum && c != '_'
  if hasWordBoundary && startsWithTaskNoteDate remainder &&
      latest.all (fun found => found.1 < index) then
    some (some (index, state))
  else some latest

/-- `latest_task_blocking_note_on_line`, with byte offsets. -/
def latestTaskBlockingNoteBytes (line : Text) : Option (Option (Nat × TaskBlockingState)) :=
  let uppercase := line.map Char.toUpper
  [("BLOCKED ".toList, TaskBlockingState.blocked), ("UNBLOCKED ".toList, .unblocked),
    ("COMPLETED ".toList, .unblocked)].foldlM (fun latest (marker, state) =>
      (matchIndicesBytes marker uppercase).foldlM (latestNoteAtByte marker state uppercase)
        latest) none

/-- The heading of a section of blocking notes. -/
def isBlockedHeading (line : Text) : Bool :=
  eqIgnoreAsciiCase (trim ((trim line).dropWhile fun c =>
    c == '#' || c == '-' || c == '*' || c == ' ')) "blocked note:".toList

/-- What a line that begins at the byte offset makes of the note. -/
def blockingNoteOfLineBytes (content : Text) (note : Option Text) (offset : Nat) (line : Text) :
    Option (Option Text) :=
  (if isBlockedHeading line then (sliceFrom content offset).map some else some note).bind
    fun note => (latestTaskBlockingNoteBytes line).bind fun
      | some (index, state) =>
        if state = .blocked then (sliceFrom content (offset + index)).map some else some none
      | none => some note

/-- The loop of `task_blocking_note`, with the byte offset that it counts. -/
def blockingNoteFromBytes (content : Text) (note : Option Text) (offset : Nat) :
    List Text → Option (Option Text)
  | [] => some note
  | line :: rest => (blockingNoteOfLineBytes content note offset line).bind fun note =>
    blockingNoteFromBytes content note (offset + utf8Len line) rest

/-- `task_blocking_note`, with byte offsets. -/
def taskBlockingNoteBytes (content : Text) : Option (Option Text) :=
  blockingNoteFromBytes content none 0 (splitInclusive content)

section Bytes

variable {marker line : Text} {index : Nat}

/-- What a line makes of the note; the text begins with the line. -/
def blockingNoteOfLine (note : Option Text) (line content : Text) : Option Text :=
  match latestTaskBlockingNoteOnLine line with
  | some (index, state) => if state = .blocked then some (content.drop index) else none
  | none => if isBlockedHeading line then some content else note

theorem blockingNoteFrom_cons (note : Option Text) (line : Text) (rest : List Text) :
    blockingNoteFrom note (line :: rest) =
      blockingNoteFrom (blockingNoteOfLine note line (line ++ rest.flatten)) rest := by
  rw [blockingNoteFrom, List.flatten_cons]
  rfl

/-- The offset of a note that is found on the line. -/
def noteByte (line : Text) (found : Nat × TaskBlockingState) : Nat × TaskBlockingState :=
  (utf8Len (line.take found.1), found.2)

theorem mem_matchIndices {pattern t : Text} (h : index ∈ matchIndices pattern t) :
    index < t.length ∧ pattern <+: t.drop index := by
  rw [matchIndices, List.mem_filter, List.mem_range, List.isPrefixOf_iff_prefix] at h
  exact h

theorem sliceFrom_match {t : Text} (h : marker <+: t.drop index) :
    sliceFrom t (utf8Len (t.take index) + utf8Len marker) =
      some (t.drop (index + marker.length)) := by
  have htake : t.take (index + marker.length) = t.take index ++ marker := by
    rw [List.take_add, ← List.prefix_iff_eq_take.mp h]
  rw [← utf8Len_append, ← htake, sliceFrom_take]

theorem utf8Len_take_toUpper (line : Text) (index : Nat) :
    utf8Len ((line.map Char.toUpper).take index) = utf8Len (line.take index) := by
  rw [← List.map_take, utf8Len_map_toUpper]

/-- What a match adds to what is known. -/
def latestNoteAt (marker : Text) (state : TaskBlockingState) (uppercase : Text)
    (latest : Option (Nat × TaskBlockingState)) (index : Nat) : Option (Nat × TaskBlockingState) :=
  if isNoteAt marker uppercase index && latest.all (fun found => found.1 < index) then
    some (index, state)
  else latest

/-- The latest note lies on the line. -/
def IsOn (line : Text) (latest : Option (Nat × TaskBlockingState)) : Prop :=
  ∀ found, latest = some found → found.1 < line.length

variable {state : TaskBlockingState} {latest : Option (Nat × TaskBlockingState)}

theorem latestNoteAt_isOn (hlatest : IsOn line latest) (hindex : index < line.length) :
    IsOn line (latestNoteAt marker state (line.map Char.toUpper) latest index) := by
  rw [latestNoteAt]
  split
  · intro found hfound
    rw [← Option.some.inj hfound]
    exact hindex
  · exact hlatest

theorem latestNoteAtByte_eq (hlatest : IsOn line latest)
    (hindex : index ∈ matchIndices marker (line.map Char.toUpper)) :
    latestNoteAtByte marker state (line.map Char.toUpper) (latest.map (noteByte line))
        (utf8Len ((line.map Char.toUpper).take index)) =
      some ((latestNoteAt marker state (line.map Char.toUpper) latest index).map
        (noteByte line)) := by
  obtain ⟨hlt, hmatch⟩ := mem_matchIndices hindex
  rw [List.length_map] at hlt
  have hbefore : ((latest.map (noteByte line)).all fun found =>
        decide (found.1 < utf8Len ((line.map Char.toUpper).take index))) =
      latest.all fun found => decide (found.1 < index) := by
    cases latest with
    | none => rfl
    | some found =>
      rw [Option.map_some, Option.all_some, Option.all_some, noteByte, utf8Len_take_toUpper,
        decide_eq_decide]
      exact utf8Len_take_lt_iff (hlatest found rfl) hlt
  rw [latestNoteAtByte, sliceTo_take, sliceFrom_match hmatch]
  simp only [Option.bind_eq_bind, Option.bind_some]
  rw [hbefore, latestNoteAt, isNoteAt]
  split
  · rw [Option.map_some, noteByte, utf8Len_take_toUpper]
  · rfl

/-- The matches of one kind. -/
theorem foldlM_latestNoteAtByte (state : TaskBlockingState) {indices : List Nat} (hlatest : IsOn line latest)
    (hindices : ∀ index ∈ indices, index ∈ matchIndices marker (line.map Char.toUpper)) :
    let found := indices.foldl (latestNoteAt marker state (line.map Char.toUpper)) latest
    IsOn line found ∧
      (indices.map fun index => utf8Len ((line.map Char.toUpper).take index)).foldlM
          (latestNoteAtByte marker state (line.map Char.toUpper)) (latest.map (noteByte line)) =
        some (found.map (noteByte line)) := by
  induction indices generalizing latest with
  | nil => exact ⟨hlatest, rfl⟩
  | cons index indices ih =>
    have hindex := hindices index (List.mem_cons_self ..)
    have hlt := (mem_matchIndices hindex).1
    rw [List.length_map] at hlt
    rw [List.map_cons, List.foldlM_cons, latestNoteAtByte_eq hlatest hindex, Option.bind_eq_bind,
      Option.bind_some, List.foldl_cons]
    exact ih (latestNoteAt_isOn hlatest hlt) fun other hother =>
      hindices other (List.mem_cons_of_mem _ hother)

/-- A note is found at the byte at which its character begins. -/
theorem latestTaskBlockingNoteBytes_eq (line : Text) :
    IsOn line (latestTaskBlockingNoteOnLine line) ∧
      latestTaskBlockingNoteBytes line =
        some ((latestTaskBlockingNoteOnLine line).map (noteByte line)) := by
  rw [latestTaskBlockingNoteBytes, latestTaskBlockingNoteOnLine]
  generalize [("BLOCKED ".toList, TaskBlockingState.blocked), ("UNBLOCKED ".toList, .unblocked),
    ("COMPLETED ".toList, .unblocked)] = kinds
  have hkinds : ∀ latest, IsOn line latest →
      IsOn line (kinds.foldl (fun latest (marker, state) =>
        (matchIndices marker (line.map Char.toUpper)).foldl
          (latestNoteAt marker state (line.map Char.toUpper)) latest) latest) ∧
      kinds.foldlM (fun latest (marker, state) =>
        (matchIndicesBytes marker (line.map Char.toUpper)).foldlM
          (latestNoteAtByte marker state (line.map Char.toUpper)) latest)
          (latest.map (noteByte line)) =
        some ((kinds.foldl (fun latest (marker, state) =>
          (matchIndices marker (line.map Char.toUpper)).foldl
            (latestNoteAt marker state (line.map Char.toUpper)) latest) latest).map
              (noteByte line)) := by
    -- Each kind goes on from what the kinds before it found.
    induction kinds with
    | nil => exact fun latest hlatest => ⟨hlatest, rfl⟩
    | cons kind kinds ih =>
      intro latest hlatest
      obtain ⟨marker, state⟩ := kind
      obtain ⟨hon, hkind⟩ := foldlM_latestNoteAtByte state hlatest
        (fun _ (h : _ ∈ matchIndices marker (line.map Char.toUpper)) => h)
      rw [List.foldl_cons, List.foldlM_cons]
      dsimp only
      rw [matchIndicesBytes, hkind, Option.bind_eq_bind, Option.bind_some]
      exact ih _ hon
  exact hkinds none fun found hfound => by cases hfound

/-- Every slice begins at a character, and is what is left there. -/
theorem blockingNoteOfLineBytes_eq (before : Text) (note : Option Text) (line rest : Text) :
    blockingNoteOfLineBytes (before ++ (line ++ rest)) note (utf8Len before) line =
      some (blockingNoteOfLine note line (line ++ rest)) := by
  have hheading : (if isBlockedHeading line then
        (sliceFrom (before ++ (line ++ rest)) (utf8Len before)).map some else some note) =
      some (if isBlockedHeading line then some (line ++ rest) else note) := by
    rw [sliceFrom_append, Option.map_some, apply_ite some]
  obtain ⟨hon, hline⟩ := latestTaskBlockingNoteBytes_eq line
  rw [blockingNoteOfLineBytes, hheading, hline, blockingNoteOfLine, Option.bind_some,
    Option.bind_some]
  cases hlatest : latestTaskBlockingNoteOnLine line with
  | none => rfl
  | some found =>
    obtain ⟨index, state⟩ := found
    have hindex : index ≤ line.length := (hon _ hlatest).le
    have hslice : sliceFrom (before ++ (line ++ rest)) (utf8Len before + utf8Len (line.take index)) =
        some ((line ++ rest).drop index) := by
      have hsplit : before ++ (line ++ rest) =
          (before ++ line.take index) ++ (line.drop index ++ rest) := by
        rw [List.append_assoc, ← List.append_assoc (line.take index), List.take_append_drop]
      rw [hsplit, ← utf8Len_append, sliceFrom_append,
        List.drop_append_of_le_length hindex]
    -- Only a blocking note is sliced, where its character begins.
    cases state with
    | blocked =>
      rw [Option.map_some, noteByte]
      exact congrArg (Option.map some) hslice
    | unblocked => rfl

theorem blockingNoteFromBytes_eq (before : Text) (note : Option Text) (ls : List Text) :
    blockingNoteFromBytes (before ++ ls.flatten) note (utf8Len before) ls =
      some (blockingNoteFrom note ls) := by
  induction ls generalizing before note with
  | nil => rfl
  | cons line rest ih =>
    rw [blockingNoteFromBytes, List.flatten_cons, blockingNoteOfLineBytes_eq, Option.bind_some,
      blockingNoteFrom_cons, ← List.append_assoc, ← utf8Len_append]
    exact ih (before ++ line) _

theorem taskBlockingNoteBytes_eq (content : Text) :
    taskBlockingNoteBytes content = some (taskBlockingNote content) := by
  have h := blockingNoteFromBytes_eq [] none (splitInclusive content)
  rwa [List.nil_append, flatten_splitInclusive] at h

end Bytes

/-! ## Events -/

/-- The markers of dated notes, and what they say. -/
def blockingNoteKinds : List (Text × TaskBlockingState) :=
  [("BLOCKED ".toList, .blocked), ("UNBLOCKED ".toList, .unblocked),
    ("COMPLETED ".toList, .unblocked)]

/-- A line begins at the position. -/
def IsLineStart (content : Text) (position : Nat) : Prop :=
  position < content.length ∧ ∀ c, (content.take position).getLast? = some c → c = '\n'

/-- The text from the position to the end of the line. -/
def restOfLine (content : Text) (position : Nat) : Text :=
  (content.drop position).takeWhile (· != '\n')

/-- What says at a position of the text that the task is blocked, or that it no longer is. -/
inductive BlockingEvent (content : Text) (position : Nat) : TaskBlockingState → Prop
  | note {marker : Text} {state : TaskBlockingState} (hkind : (marker, state) ∈ blockingNoteKinds)
      (hnote : noteBeginsAt marker (content.map Char.toUpper) position = true) :
      BlockingEvent content position state
  | heading (hstart : IsLineStart content position)
      (hheading : isBlockedHeading (restOfLine content position) = true) :
      BlockingEvent content position .blocked

/-- The last event of the text. -/
structure LastBlockingEvent (content : Text) (position : Nat) (state : TaskBlockingState) :
    Prop where
  event : BlockingEvent content position state
  last : ∀ position' state', BlockingEvent content position' state' → position' ≤ position

/-! ## Notes on a line -/

section Line

variable {line : Text} {index : Nat} {state : TaskBlockingState}
  {seen notes : List (Nat × TaskBlockingState)} {latest : Option (Nat × TaskBlockingState)}

/-- The latest of the notes that were seen. -/
def IsLatest (seen : List (Nat × TaskBlockingState)) :
    Option (Nat × TaskBlockingState) → Prop
  | none => seen = []
  | some found => found ∈ seen ∧ ∀ other ∈ seen, other.1 ≤ found.1

theorem IsLatest.step (h : IsLatest seen latest) (note : Nat × TaskBlockingState) :
    IsLatest (seen ++ [note])
      (if latest.all (fun found => found.1 < note.1) then some note else latest) := by
  cases latest with
  | none =>
    rw [show seen = [] from h]
    exact ⟨List.mem_singleton_self note, fun other hother =>
      (congrArg Prod.fst (List.mem_singleton.mp hother)).le⟩
  | some found =>
    obtain ⟨hfound, hlast⟩ := h
    simp only [Option.all_some, decide_eq_true_eq]
    split
    · rename_i hlt
      refine ⟨List.mem_append_right _ (List.mem_singleton_self note), fun other hother => ?_⟩
      rcases List.mem_append.mp hother with hseen | hnew
      · exact (hlast other hseen).trans hlt.le
      · exact (congrArg Prod.fst (List.mem_singleton.mp hnew)).le
    · rename_i hle
      refine ⟨List.mem_append_left _ hfound, fun other hother => ?_⟩
      rcases List.mem_append.mp hother with hseen | hnew
      · exact hlast other hseen
      · rw [List.mem_singleton.mp hnew]
        exact Nat.not_lt.mp hle

theorem IsLatest.run (h : IsLatest seen latest) (state : TaskBlockingState) (indices : List Nat) :
    IsLatest (seen ++ indices.map fun index => (index, state))
      (indices.foldl (fun latest index =>
        if latest.all (fun found => found.1 < index) then some (index, state) else latest)
        latest) := by
  induction indices generalizing seen latest with
  | nil => rwa [List.map_nil, List.append_nil]
  | cons index indices ih =>
    have hrest := ih (h.step (index, state))
    rwa [List.append_assoc] at hrest

/-- The dated notes of a line, by kind. -/
def notesOnLine (kinds : List (Text × TaskBlockingState)) (line : Text) :
    List (Nat × TaskBlockingState) :=
  kinds.flatMap fun kind =>
    (noteIndices kind.1 (line.map Char.toUpper)).map fun index => (index, kind.2)

theorem lt_length_of_noteBeginsAt {marker uppercase : Text}
    (h : noteBeginsAt marker uppercase index = true) :
    index + marker.length + 11 ≤ uppercase.length := by
  rw [noteBeginsAt, isNoteAt, Bool.and_eq_true, Bool.and_eq_true] at h
  have hdate := length_of_startsWithTaskNoteDate h.2.2
  rw [List.length_drop] at hdate
  omega

theorem mem_notesOnLine {kinds : List (Text × TaskBlockingState)} :
    (index, state) ∈ notesOnLine kinds line ↔
      ∃ marker, (marker, state) ∈ kinds ∧
        noteBeginsAt marker (line.map Char.toUpper) index = true := by
  rw [notesOnLine, List.mem_flatMap]
  constructor
  · rintro ⟨⟨marker, state'⟩, hkind, hmem⟩
    obtain ⟨index', hindex, heq⟩ := List.mem_map.mp hmem
    obtain ⟨rfl, rfl⟩ := Prod.mk.inj heq
    exact ⟨marker, hkind, (List.mem_filter.mp hindex).2⟩
  · rintro ⟨marker, hkind, hnote⟩
    have hlength := lt_length_of_noteBeginsAt hnote
    refine ⟨(marker, state), hkind, List.mem_map.mpr ⟨index, ?_, rfl⟩⟩
    exact List.mem_filter.mpr ⟨List.mem_range.mpr (by omega), hnote⟩

theorem isLatest_latestTaskBlockingNoteOnLine (line : Text) :
    IsLatest (notesOnLine blockingNoteKinds line) (latestTaskBlockingNoteOnLine line) := by
  rw [latestTaskBlockingNoteOnLine_eq]
  show IsLatest _ (blockingNoteKinds.foldl (latestOfKind line) none)
  have hkinds : ∀ seen latest, IsLatest seen latest →
      IsLatest (seen ++ notesOnLine blockingNoteKinds line)
        (blockingNoteKinds.foldl (latestOfKind line) latest) := by
    induction blockingNoteKinds with
    | nil =>
      intro seen latest h
      rwa [notesOnLine, List.flatMap_nil, List.append_nil]
    | cons kind kinds ih =>
      intro seen latest h
      have hrest := ih _ _ (h.run kind.2 (noteIndices kind.1 (line.map Char.toUpper)))
      rwa [List.append_assoc] at hrest
  have hall := hkinds [] none rfl
  rwa [List.nil_append] at hall

end Line

/-! ## Events of a text whose first line is known -/

section Events

variable {line rest body marker : Text} {position : Nat} {state : TaskBlockingState}

/-- What stands behind the end of a line is not compared. -/
theorem isPrefixOf_line {x : Text} (hmarker : '\n' ∉ marker) (r : Text) :
    marker.isPrefixOf (x ++ '\n' :: r) = marker.isPrefixOf x := by
  induction marker generalizing x with
  | nil => rw [List.isPrefixOf_nil_left, List.isPrefixOf_nil_left]
  | cons c marker ih =>
    obtain ⟨hc, hrest⟩ := List.ne_and_not_mem_of_not_mem_cons hmarker
    cases x with
    | nil => rw [List.nil_append, List.isPrefixOf_cons_cons, beq_eq_false_iff_ne.mpr hc.symm]; rfl
    | cons d x => rw [List.cons_append, List.isPrefixOf_cons_cons, List.isPrefixOf_cons_cons, ih hrest]

theorem startsWithTaskNoteDate_line (x r : Text) :
    startsWithTaskNoteDate (x ++ '\n' :: r) = startsWithTaskNoteDate x := by
  by_cases hlong : 11 ≤ x.length
  · exact startsWithTaskNoteDate_of_long hlong _
  · -- The line feed would be a digit, a dash or the colon.
    have hshort : startsWithTaskNoteDate x = false := by
      rw [startsWithTaskNoteDate, decide_eq_false hlong, Bool.false_and]
    rw [hshort, Bool.eq_false_iff]
    intro hdate
    rw [startsWithTaskNoteDate, Bool.and_eq_true] at hdate
    have hin : x.length < ((x ++ '\n' :: r).zip "0000-00-00:".toList).length := by
      rw [List.length_zip, List.length_append, List.length_cons]
      exact Nat.lt_min.mpr ⟨by omega, Nat.not_le.mp hlong⟩
    have hfeed := List.all_eq_true.mp hdate.2 _ (List.getElem_mem hin)
    rw [List.getElem_zip, List.getElem_append_right (Nat.le_refl _)] at hfeed
    simp only [Nat.sub_self, List.getElem_cons_zero] at hfeed
    have hshape : ("0000-00-00:".toList.all fun shape =>
        !(if shape = '0' then ('\n').isDigit else '\n' == shape)) = true := by decide
    have hnot := List.all_eq_true.mp hshape _ (List.getElem_mem (Nat.not_le.mp hlong))
    rw [Bool.not_eq_true'] at hnot
    exact Bool.false_ne_true (hnot.symm.trans hfeed)

/-- A note of a line is one of the text that begins with it. -/
theorem noteBeginsAt_line (hmarker : '\n' ∉ marker) (hposition : position ≤ body.length)
    (r : Text) :
    noteBeginsAt marker (body ++ '\n' :: r) position = noteBeginsAt marker body position := by
  have hprefix : marker.isPrefixOf ((body ++ '\n' :: r).drop position) =
      marker.isPrefixOf (body.drop position) := by
    rw [List.drop_append_of_le_length hposition, isPrefixOf_line hmarker]
  have htake : (body ++ '\n' :: r).take position = body.take position :=
    List.take_append_of_le_length hposition
  rw [noteBeginsAt, noteBeginsAt, hprefix, isNoteAt, isNoteAt, htake]
  cases hmatch : marker.isPrefixOf (body.drop position) with
  | false => rfl
  | true =>
    have hlength := (List.isPrefixOf_iff_prefix.mp hmatch).length_le
    rw [List.length_drop] at hlength
    by_cases hend : position + marker.length ≤ body.length
    · rw [List.drop_append_of_le_length hend, startsWithTaskNoteDate_line]
    · have hnil : marker = [] := List.length_eq_zero_iff.mp (by omega)
      rw [hnil, List.length_nil, Nat.add_zero, List.drop_append_of_le_length hposition,
        startsWithTaskNoteDate_line]

/-- Behind a line feed the notes are those of the rest. -/
theorem noteBeginsAt_rest (marker line r : Text) (hend : line.getLast? = some '\n') (position : Nat) :
    noteBeginsAt marker (line ++ r) (line.length + position) = noteBeginsAt marker r position := by
  have hlast : (line ++ r.take position).getLast?.all (fun c => !c.isAlphanum && c != '_') =
      (r.take position).getLast?.all fun c => !c.isAlphanum && c != '_' := by
    rw [List.getLast?_append, hend]
    cases (r.take position).getLast? <;> rfl
  rw [noteBeginsAt, noteBeginsAt, isNoteAt, isNoteAt, Nat.add_assoc, List.drop_length_add_append,
    List.drop_length_add_append, List.take_length_add_append, hlast]

/-- Only the first position of a line has nothing, or a line feed, before it. -/
theorem eq_zero_of_isLineStart (hbody : '\n' ∉ body) (hposition : position ≤ body.length)
    (h : ∀ c, (body.take position).getLast? = some c → c = '\n') : position = 0 := by
  by_contra hne
  have htaken : body.take position ≠ [] := by
    rw [Ne, List.take_eq_nil_iff, not_or]
    exact ⟨hne, fun hnil => hne (Nat.le_zero.mp (by rwa [hnil] at hposition))⟩
  have hlast := List.getLast?_eq_some_getLast htaken
  exact hbody (h _ hlast ▸ List.mem_of_mem_take (List.mem_of_getLast? hlast))

theorem isLineStart_line (hbody : '\n' ∉ body) (hposition : position ≤ body.length) (r : Text)
    (h : IsLineStart (body ++ '\n' :: r) position) : position = 0 :=
  eq_zero_of_isLineStart hbody hposition fun c hc =>
    h.2 c (by rwa [List.take_append_of_le_length hposition])

theorem isLineStart_rest (hend : line.getLast? = some '\n') (r : Text) :
    IsLineStart (line ++ r) (line.length + position) ↔ IsLineStart r position := by
  rw [IsLineStart, IsLineStart, List.length_append, Nat.add_lt_add_iff_left,
    List.take_length_add_append, List.getLast?_append, hend]
  refine and_congr_right fun _ => ⟨fun h c hc => h c (by rw [hc, Option.some_or]), fun h c hc => ?_⟩
  cases hlast : (r.take position).getLast? with
  | none =>
    rw [hlast, Option.none_or] at hc
    exact (Option.some.inj hc).symm
  | some d =>
    rw [hlast, Option.some_or] at hc
    exact h c (hlast.trans hc)

theorem restOfLine_line (hbody : '\n' ∉ body) (r : Text) :
    restOfLine (body ++ '\n' :: r) 0 = body := by
  rw [restOfLine, List.drop_zero, List.takeWhile_append_of_pos]
  · rw [List.takeWhile_cons_of_neg (by decide), List.append_nil]
  · exact fun c hc => bne_iff_ne.mpr fun heq => hbody (heq ▸ hc)

theorem restOfLine_self (hbody : '\n' ∉ body) : restOfLine body 0 = body := by
  rw [restOfLine, List.drop_zero, List.takeWhile_eq_self_iff]
  exact fun c hc => bne_iff_ne.mpr fun heq => hbody (heq ▸ hc)

theorem marker_of_kind (h : (marker, state) ∈ blockingNoteKinds) : '\n' ∉ marker := by
  have hall : ∀ kind ∈ blockingNoteKinds, '\n' ∉ kind.1 := by decide
  exact hall _ h

theorem map_toUpper_line (body r : Text) :
    (body ++ '\n' :: r).map Char.toUpper = body.map Char.toUpper ++ '\n' :: r.map Char.toUpper :=
  List.map_append

/-- The events of the first line. -/
theorem blockingEvent_line (hbody : '\n' ∉ body) (hposition : position ≤ body.length) (r : Text) :
    BlockingEvent (body ++ '\n' :: r) position state ↔ BlockingEvent body position state := by
  have hlength : position ≤ (body.map Char.toUpper).length := by rwa [List.length_map]
  constructor
  · rintro (⟨hkind, hnote⟩ | ⟨hstart, hheading⟩)
    · rw [map_toUpper_line, noteBeginsAt_line (marker_of_kind hkind) hlength] at hnote
      exact .note hkind hnote
    · obtain rfl := isLineStart_line hbody hposition r hstart
      rw [restOfLine_line hbody] at hheading
      refine .heading ⟨List.length_pos_iff.mpr fun hnil => ?_, fun c hc => ?_⟩
        (by rwa [restOfLine_self hbody])
      · rw [hnil] at hheading
        exact absurd hheading (by decide)
      · rw [List.take_zero] at hc
        cases hc
  · rintro (⟨hkind, hnote⟩ | ⟨hstart, hheading⟩)
    · refine .note hkind ?_
      rwa [map_toUpper_line, noteBeginsAt_line (marker_of_kind hkind) hlength]
    · have hfirst : IsLineStart (body ++ '\n' :: r) position :=
        ⟨by rw [List.length_append]; exact Nat.lt_add_right _ hstart.1, fun c hc =>
          hstart.2 c (by rwa [List.take_append_of_le_length hposition] at hc)⟩
      obtain rfl := isLineStart_line hbody hposition r hfirst
      rw [restOfLine_self hbody] at hheading
      exact .heading hfirst (by rwa [restOfLine_line hbody])

/-- The events behind the first line. -/
theorem blockingEvent_rest (hend : line.getLast? = some '\n') (r : Text) :
    BlockingEvent (line ++ r) (line.length + position) state ↔ BlockingEvent r position state := by
  have hupper : (line.map Char.toUpper).getLast? = some '\n' := by
    rw [List.getLast?_map, hend]
    rfl
  have hnote (marker : Text) :
      noteBeginsAt marker ((line ++ r).map Char.toUpper) (line.length + position) =
        noteBeginsAt marker (r.map Char.toUpper) position := by
    have h := noteBeginsAt_rest marker (line.map Char.toUpper) (r.map Char.toUpper)
      hupper position
    rwa [List.length_map, ← List.map_append] at h
  have hrest : restOfLine (line ++ r) (line.length + position) = restOfLine r position := by
    rw [restOfLine, restOfLine, List.drop_length_add_append]
  constructor
  · rintro (⟨hkind, hbegins⟩ | ⟨hstart, hheading⟩)
    · exact .note hkind (by rwa [hnote] at hbegins)
    · exact .heading ((isLineStart_rest hend r).mp hstart) (by rwa [hrest] at hheading)
  · rintro (⟨hkind, hbegins⟩ | ⟨hstart, hheading⟩)
    · exact .note hkind (by rwa [hnote])
    · exact .heading ((isLineStart_rest hend r).mpr hstart) (by rwa [hrest])

theorem BlockingEvent.lt_length {content : Text} (h : BlockingEvent content position state) :
    position < content.length := by
  rcases h with ⟨-, hnote⟩ | ⟨hstart, -⟩
  · have hlength := lt_length_of_noteBeginsAt hnote
    rw [List.length_map] at hlength
    omega
  · exact hstart.1

/-! ## The last event -/

/-- What follows from the last event, or without one. -/
def FollowsEvents (content : Text) (note result : Option Text) (text : Text) : Prop :=
  (∃ position state, LastBlockingEvent content position state ∧
    result = if state = .blocked then some (text.drop position) else none) ∨
  (∀ position state, ¬ BlockingEvent content position state) ∧ result = note

/-- A line makes of the note what its last event says. -/
theorem blockingNoteOfLine_body (hbody : '\n' ∉ body) (note : Option Text) (text : Text) :
    FollowsEvents body note (blockingNoteOfLine note body text) text := by
  have hlatest := isLatest_latestTaskBlockingNoteOnLine body
  rw [blockingNoteOfLine]
  have hposition {position : Nat} {state : TaskBlockingState}
      (h : BlockingEvent body position state) :
      (position, state) ∈ notesOnLine blockingNoteKinds body ∨
        position = 0 ∧ state = .blocked ∧ isBlockedHeading body = true := by
    rcases h with ⟨hkind, hnote⟩ | ⟨hstart, hheading⟩
    · exact .inl (mem_notesOnLine.mpr ⟨_, hkind, hnote⟩)
    · obtain rfl := eq_zero_of_isLineStart hbody hstart.1.le hstart.2
      rw [restOfLine_self hbody] at hheading
      exact .inr ⟨rfl, rfl, hheading⟩
  cases hfound : latestTaskBlockingNoteOnLine body with
  | some found =>
    obtain ⟨index, state⟩ := found
    rw [hfound] at hlatest
    obtain ⟨hmem, hlast⟩ := hlatest
    obtain ⟨marker, hkind, hnote⟩ := mem_notesOnLine.mp hmem
    -- A heading stands at the first position, so no note comes before it.
    refine .inl ⟨index, state, ⟨.note hkind hnote, fun position' state' h => ?_⟩, rfl⟩
    rcases hposition h with hnotes | ⟨rfl, -, -⟩
    · exact hlast _ hnotes
    · exact Nat.zero_le _
  | none =>
    rw [hfound] at hlatest
    have hnone : notesOnLine blockingNoteKinds body = [] := hlatest
    cases hheading : isBlockedHeading body with
    | true =>
      have hstart : IsLineStart body 0 := by
        refine ⟨List.length_pos_iff.mpr fun hnil => ?_, fun c hc => by cases hc⟩
        rw [hnil] at hheading
        exact absurd hheading (by decide)
      refine .inl ⟨0, .blocked, ⟨.heading hstart (by rwa [restOfLine_self hbody]), ?_⟩, rfl⟩
      intro position' state' h
      rcases hposition h with hnotes | ⟨hzero, -, -⟩
      · rw [hnone] at hnotes
        cases hnotes
      · exact hzero.le
    | false =>
      refine .inr ⟨fun position state h => ?_, rfl⟩
      rcases hposition h with hnotes | ⟨-, -, htrue⟩
      · rw [hnone] at hnotes
        cases hnotes
      · rw [hheading] at htrue
        cases htrue

/-- The line feed at the end of a line says nothing. -/
theorem blockingNoteOfLine_feed (note : Option Text) (body text : Text) :
    blockingNoteOfLine note (body ++ ['\n']) text = blockingNoteOfLine note body text := by
  have hblank : IsBlank ['\n'] := by
    intro c hc
    rw [List.mem_singleton.mp hc]
    decide
  have htrim : trim (body ++ ['\n']) = trim body := by
    rw [← trim_trimEnd, trimEnd_append_of_whitespace body hblank, trim_trimEnd]
  rw [blockingNoteOfLine, blockingNoteOfLine, latestTaskBlockingNoteOnLine_append hblank,
    isBlockedHeading, htrim]
  rfl

theorem blockingNoteFrom_events (content : Text) (note : Option Text) :
    FollowsEvents content note (blockingNoteFrom note (splitInclusive content)) content := by
  induction content using text_induction generalizing note with
  | hnil =>
    refine .inr ⟨fun position state h => ?_, rfl⟩
    exact absurd h.lt_length (Nat.not_lt_zero _)
  | hlast line hne hfree =>
    rw [splitInclusive_of_not_mem hne hfree, blockingNoteFrom_cons, List.flatten_nil,
      List.append_nil, blockingNoteFrom]
    exact blockingNoteOfLine_body hfree note line
  | hcons line rest hline ih =>
    have hend := hline.getLast?
    rw [splitInclusive_terminated hline, blockingNoteFrom_cons, flatten_splitInclusive]
    obtain ⟨body, rfl, hbody⟩ := hline
    have hlength : (body ++ ['\n']).length = body.length + 1 := List.length_append
    have htext : body ++ ['\n'] ++ rest = body ++ '\n' :: rest := by
      rw [List.append_assoc, List.singleton_append]
    have hevent {position : Nat} {state : TaskBlockingState}
        (h : BlockingEvent (body ++ ['\n'] ++ rest) position state) :
        position ≤ body.length ∧ BlockingEvent body position state ∨
          ∃ offset, position = (body ++ ['\n']).length + offset ∧
            BlockingEvent rest offset state := by
      rcases Nat.lt_or_ge body.length position with hbehind | hfirst
      · obtain ⟨offset, rfl⟩ := Nat.exists_eq_add_of_le (hlength.le.trans hbehind)
        exact .inr ⟨offset, rfl, (blockingEvent_rest hend rest).mp h⟩
      · rw [htext, blockingEvent_line hbody hfirst] at h
        exact .inl ⟨hfirst, h⟩
    -- An event behind the line overrides what the line says; without one the line decides.
    rcases ih (blockingNoteOfLine note (body ++ ['\n']) (body ++ ['\n'] ++ rest)) with
      ⟨offset, state, hlast, hresult⟩ | ⟨hnone, hresult⟩
    · refine .inl ⟨(body ++ ['\n']).length + offset, state,
        ⟨(blockingEvent_rest hend rest).mpr hlast.event, fun position' state' h => ?_⟩, ?_⟩
      · rcases hevent h with ⟨hfirst, -⟩ | ⟨offset', rfl, hrest⟩
        · omega
        · exact Nat.add_le_add_left (hlast.last _ _ hrest) _
      · rw [hresult, List.drop_length_add_append]
    · rw [hresult, blockingNoteOfLine_feed]
      rcases blockingNoteOfLine_body hbody note (body ++ ['\n'] ++ rest) with
        ⟨position, state, hlast, hline⟩ | ⟨hempty, hline⟩
      · have hin := hlast.event.lt_length
        refine .inl ⟨position, state, ⟨?_, fun position' state' h => ?_⟩, hline⟩
        · rw [htext, blockingEvent_line hbody hin.le]
          exact hlast.event
        · rcases hevent h with ⟨-, hbodyEvent⟩ | ⟨offset', -, hrest⟩
          · exact hlast.last _ _ hbodyEvent
          · exact absurd hrest (hnone _ _)
      · refine .inr ⟨fun position' state' h => ?_, hline⟩
        rcases hevent h with ⟨-, hbodyEvent⟩ | ⟨offset', -, hrest⟩
        · exact hempty _ _ hbodyEvent
        · exact hnone _ _ hrest

/-! ## One event at a position -/

theorem isWhitespace_of_isAlpha {c : Char} (h : c.isAlpha = true) : isWhitespace c = false := by
  have halphanum : (c.isAlpha || c.isDigit) = true := by rw [h, Bool.true_or]
  have hchar : (c.isAlphanum || c == '-') = true := Bool.or_eq_true_iff.mpr (.inl halphanum)
  exact not_isWhitespace_of_sessionChar hchar

theorem trim_cons {c : Char} (h : isWhitespace c = false) (t : Text) :
    trim (c :: t) = c :: trimEnd t := by
  rw [trim, trimStart_cons_of_not_whitespace h]
  exact trimEnd_cons (by rw [isBlankLine_cons, h, Bool.false_and])

/-- A heading that begins with a letter begins with a `b`. -/
theorem toLower_of_isBlockedHeading {c : Char} {t : Text} (hc : c.isAlpha = true)
    (h : isBlockedHeading (c :: t) = true) : c.toLower = 'b' := by
  have hblank := isWhitespace_of_isAlpha hc
  have hkept : (c == '#' || c == '-' || c == '*' || c == ' ') = false := by
    rw [Bool.eq_false_iff]
    intro hmark
    simp only [Bool.or_eq_true, beq_iff_eq] at hmark
    rcases hmark with ((rfl | rfl) | rfl) | rfl <;> exact absurd hc (by decide)
  rw [isBlockedHeading, trim_cons hblank, List.dropWhile_cons_of_neg (by rw [hkept]; decide),
    trim_cons hblank, eqIgnoreAsciiCase, beq_iff_eq, List.map_cons] at h
  exact (List.cons.inj h).1

/-- A note begins with the first letter of its marker. -/
theorem head_of_noteBeginsAt {content : Text} (hkind : (marker, state) ∈ blockingNoteKinds)
    (hnote : noteBeginsAt marker (content.map Char.toUpper) position = true) :
    ∃ c t, content.drop position = c :: t ∧ marker.head? = some c.toUpper := by
  have hmarkers : ∀ kind ∈ blockingNoteKinds, kind.1 ≠ [] := by decide
  rw [noteBeginsAt, Bool.and_eq_true, List.isPrefixOf_iff_prefix, ← List.map_drop] at hnote
  obtain ⟨tail, htail⟩ := hnote.1
  obtain ⟨d, marker, rfl⟩ := List.exists_cons_of_ne_nil (hmarkers _ hkind)
  cases hdrop : content.drop position with
  | nil =>
    rw [hdrop] at htail
    cases htail
  | cons c t =>
    rw [hdrop, List.map_cons, List.cons_append] at htail
    exact ⟨c, t, rfl, congrArg some (List.cons.inj htail).1⟩

/-- A note that begins where a heading does says that the task is blocked. -/
theorem blocked_of_heading {content : Text} (hkind : (marker, state) ∈ blockingNoteKinds)
    (hnote : noteBeginsAt marker (content.map Char.toUpper) position = true)
    (hheading : isBlockedHeading (restOfLine content position) = true) : state = .blocked := by
  have hletters : (blockingNoteKinds.all fun kind => kind.1.head?.all fun d =>
      [d, Char.ofNat (d.toNat + 32)].all fun c =>
        c.isAlpha && (c.toLower != 'b' || kind.2 == .blocked)) = true := by decide
  obtain ⟨c, t, hdrop, hhead⟩ := head_of_noteBeginsAt hkind hnote
  have hletter := List.all_eq_true.mp hletters _ hkind
  rw [hhead, Option.all_some, List.all_eq_true] at hletter
  have hcase := hletter c (List.mem_pair.mpr (eq_of_toUpper c))
  rw [Bool.and_eq_true] at hcase
  obtain ⟨halpha, hblocked⟩ := hcase
  have hfeed : (c != '\n') = true := by
    rw [bne_iff_ne]
    rintro rfl
    exact absurd halpha (by decide)
  rw [restOfLine, hdrop, List.takeWhile_cons, if_pos hfeed] at hheading
  rw [toLower_of_isBlockedHeading halpha hheading] at hblocked
  simpa using hblocked

theorem BlockingEvent.unique {content : Text} {state' : TaskBlockingState}
    (h : BlockingEvent content position state) (h' : BlockingEvent content position state') :
    state = state' := by
  rcases h with ⟨hkind, hnote⟩ | ⟨-, hheading⟩ <;> rcases h' with ⟨hkind', hnote'⟩ | ⟨-, hheading'⟩
  · have hheads : ∀ kind ∈ blockingNoteKinds, ∀ kind' ∈ blockingNoteKinds,
        kind.1.head? = kind'.1.head? → kind.2 = kind'.2 := by decide
    obtain ⟨c, t, hdrop, hhead⟩ := head_of_noteBeginsAt hkind hnote
    obtain ⟨c', t', hdrop', hhead'⟩ := head_of_noteBeginsAt hkind' hnote'
    rw [hdrop] at hdrop'
    obtain ⟨rfl, -⟩ := List.cons.inj hdrop'
    exact hheads _ hkind _ hkind' (hhead.trans hhead'.symm)
  · exact blocked_of_heading hkind hnote hheading'
  · exact (blocked_of_heading hkind' hnote' hheading).symm
  · rfl

theorem LastBlockingEvent.unique {content : Text} {position' : Nat} {state' : TaskBlockingState}
    (h : LastBlockingEvent content position state)
    (h' : LastBlockingEvent content position' state') :
    position = position' ∧ state = state' := by
  obtain rfl := Nat.le_antisymm (h'.last _ _ h.event) (h.last _ _ h'.event)
  exact ⟨rfl, h.event.unique h'.event⟩

end Events

/-- The note that blocks a task: what begins at the last event of the text, if that says so. The
code slices at byte offsets that all are boundaries of characters (no panic). -/
theorem blockingNoteAtLastEvent (content : Text) :
    taskBlockingNoteBytes content = some (taskBlockingNote content) ∧
    (∀ position state, LastBlockingEvent content position state →
      taskBlockingNote content =
        if state = .blocked then some (content.drop position) else none) ∧
    ((∀ position state, ¬ BlockingEvent content position state) →
      taskBlockingNote content = none) ∧
    ((∃ position state, LastBlockingEvent content position state) ∨
      ∀ position state, ¬ BlockingEvent content position state) := by
  have hevents := blockingNoteFrom_events content none
  refine ⟨taskBlockingNoteBytes_eq content, fun position state h => ?_, fun hnone => ?_, ?_⟩
  · rcases hevents with ⟨position', state', hlast, hresult⟩ | ⟨hnone, -⟩
    · obtain ⟨rfl, rfl⟩ := hlast.unique h
      exact hresult
    · exact absurd h.event (hnone _ _)
  · rcases hevents with ⟨position', state', hlast, -⟩ | ⟨-, hresult⟩
    · exact absurd hlast.event (hnone _ _)
    · exact hresult
  · exact hevents.imp (fun ⟨position, state, hlast, _⟩ => ⟨position, state, hlast⟩) And.left

end Clt
