import Clt.Task.Content
import Clt.Task.Thinking

/-!
# Notes in a task

A task is blocked by a note that says so with a date, or by a section of such notes, until a
later note. What identifies a task over its life is its text without links, markers, coordination
metadata and notes.
-/

namespace Clt

open Text

/-! ## Blocking notes -/

/-- `TaskBlockingState`. -/
inductive TaskBlockingState where
  | blocked
  | unblocked
  deriving DecidableEq, Repr

/-- `starts_with_task_note_date`: four digits, two and two, with dashes and a colon. -/
def startsWithTaskNoteDate (value : Text) : Bool :=
  11 ≤ value.length && (value.zip "0000-00-00:".toList).all fun (c, shape) =>
    if shape = '0' then c.isDigit else c == shape

/-- `str::match_indices` of a pattern that cannot overlap itself. -/
def matchIndices (pattern t : Text) : List Nat :=
  (List.range t.length).filter fun index => pattern.isPrefixOf (t.drop index)

/-- A dated note begins at the index, and no letter, digit or underscore stands before it. -/
def isNoteAt (marker uppercase : Text) (index : Nat) : Bool :=
  ((uppercase.take index).getLast?.all fun c => !c.isAlphanum && c != '_') &&
    startsWithTaskNoteDate (uppercase.drop (index + marker.length))

/-- `latest_task_blocking_note_on_line`. -/
def latestTaskBlockingNoteOnLine (line : Text) : Option (Nat × TaskBlockingState) :=
  let uppercase := line.map Char.toUpper
  [("BLOCKED ".toList, TaskBlockingState.blocked), ("UNBLOCKED ".toList, .unblocked),
    ("COMPLETED ".toList, .unblocked)].foldl (fun latest (marker, state) =>
      (matchIndices marker uppercase).foldl (fun latest index =>
        if isNoteAt marker uppercase index && latest.all (fun found => found.1 < index) then
          some (index, state)
        else latest) latest) none

/-- `str::split_inclusive` at line feeds. -/
def splitInclusive : Text → List Text
  | [] => []
  | c :: rest => if c = '\n' then [c] :: splitInclusive rest else consHead c (splitInclusive rest)

/-- The loop of `task_blocking_note` over the lines that are left. -/
def blockingNoteFrom (note : Option Text) : List Text → Option Text
  | [] => note
  | line :: rest =>
    let content := (line :: rest).flatten
    let heading := trim ((trim line).dropWhile fun c => c == '#' || c == '-' || c == '*' || c == ' ')
    let note := if eqIgnoreAsciiCase heading "blocked note:".toList then some content else note
    let note :=
      match latestTaskBlockingNoteOnLine line with
      | some (index, state) => if state = .blocked then some (content.drop index) else none
      | none => note
    blockingNoteFrom note rest

/-- `task_blocking_note`. -/
def taskBlockingNote (content : Text) : Option Text := blockingNoteFrom none (splitInclusive content)

/-- `task_content_is_blocked`. -/
def taskContentIsBlocked (content : Text) : Bool := (taskBlockingNote content).isSome

/-! ## Coordination metadata -/

/-- `str::find`. -/
def findText (pattern t : Text) : Option Nat :=
  (List.range (t.length + 1)).find? fun index => pattern.isPrefixOf (t.drop index)

/-- `PREFIX`. -/
def coordinationPrefix : Text := "<!-- clt-coordination: ".toList

/-- `SUFFIX`. -/
def coordinationSuffix : Text := " -->".toList

/-- `span`: an error when the metadata is not closed or stands twice. -/
def coordinationSpan (content : Text) : Except Unit (Option (Nat × Nat)) :=
  match findText coordinationPrefix content with
  | none => .ok none
  | some start =>
    match findText coordinationSuffix (content.drop start) with
    | none => .error ()
    | some offset =>
      let stop := offset + start + coordinationSuffix.length
      if (findText coordinationPrefix (content.drop stop)).isSome then .error ()
      else .ok (some (start, stop))

/-- `coordination::strip`. -/
def coordinationStrip (content : Text) : Text :=
  match coordinationSpan content with
  | .ok (some (start, stop)) => trim (content.take start ++ content.drop stop)
  | _ => content

/-! ## Identity -/

/-- Where the first dated note of a line begins. -/
def noteStart (trimmed : Text) : Option Nat :=
  let uppercase := trimmed.map Char.toUpper
  (["COMPLETED ".toList, "BLOCKED ".toList, "UNBLOCKED ".toList].flatMap fun marker =>
    (matchIndices marker uppercase).filter (isNoteAt marker uppercase)).min?

/-- The heading of a section of notes. -/
def isOutcomeHeading (trimmed : Text) : Bool :=
  let heading := trim (trimmed.dropWhile fun c => c == '#')
  let normalized := (heading.rdropWhile fun c => c == ':').map Char.toLower
  ["completion note".toList, "blocked note".toList, "unblocked note".toList].contains normalized

/-- What a line adds to the identity of its task. -/
def stableText (trimmed : Text) : Text :=
  let stable := match noteStart trimmed with
    | some index => trimmed.take index
    | none => trimmed
  List.intercalate [' '] (splitWhitespace (stable.rdropWhile fun c =>
    isWhitespace c || c == '—' || c == '-' || c == ':' || c == ';'))

/-- The loop of `durable_task_identity` over the lines. -/
def canonicalLines : Bool → List Text → List Text
  | _, [] => []
  | skippingOutcomeSection, line :: rest =>
    let trimmed := trim line
    if isOutcomeHeading trimmed then canonicalLines true rest
    else if skippingOutcomeSection && trimmed.head? != some '#' then canonicalLines true rest
    else
      let stable := stableText trimmed
      if stable = [] then canonicalLines false rest else stable :: canonicalLines false rest

/-- `durable_task_identity`. -/
def durableTaskIdentity (content : Text) : Option Text :=
  let content := Thinking.strip (coordinationStrip content)
  let content := taskContentWithoutInteractiveDoneMarker
    (taskContentWithoutRecoverableCodexSession content)
  match canonicalLines false (lines content) with
  | [] => none
  | canonical => some ("v2\n".toList ++ List.intercalate ['\n'] canonical)

end Clt
