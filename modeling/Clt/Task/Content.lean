import Clt.Text.Words

/-!
# Task content

The text of a task carries its state as words of its own: `codex:` links to a session,
the markers for stopped, manual and interactively finished work. The functions of
`task.rs` that read, set and clear them, and that fold a task into one line. A match
that must stand between whitespace is a word, so these functions are written over words.
-/

namespace Clt

open Text

/-! ## Markers -/

/-- `TASK_STOPPED_MARKER`. -/
def taskStoppedMarker : Text := "clt:stopped".toList

/-- `TASK_MANUAL_MARKER`. -/
def taskManualMarker : Text := "clt:manual".toList

/-- `TASK_INTERACTIVE_DONE_MARKER`. -/
def taskInteractiveDoneMarker : Text := "clt:interactive-done".toList

/-- `CODEX_TASK_SESSION_PREFIX`. -/
def codexTaskSessionPrefix : Text := "codex:".toList

/-- `content.split_whitespace().next_back()`. -/
def lastWord (content : Text) : Option Text := (splitWhitespace content).getLast?

/-- `task_content_is_interactive_done`. -/
def taskContentIsInteractiveDone (content : Text) : Bool :=
  (splitWhitespace content).contains taskInteractiveDoneMarker

/-- `task_content_is_manual`. -/
def taskContentIsManual (content : Text) : Bool :=
  (splitWhitespace content).contains taskManualMarker

/-- `task_content_is_stopped`. -/
def taskContentIsStopped (content : Text) : Bool := lastWord content == some taskStoppedMarker

/-- `task_content_without_stop_marker`. -/
def taskContentWithoutStopMarker (content : Text) : Text :=
  if taskContentIsStopped content then
    trimEnd ((trimEnd content).rdrop taskStoppedMarker.length)
  else content

/-- `task_content_without_marker`: every word that is the marker goes, with the space
before it. -/
def taskContentWithoutMarker (content marker : Text) : Text :=
  trimEnd (removeWords (fun c => c == ' ') (fun w => w == marker) content)

/-- `task_content_without_manual_marker`. -/
def taskContentWithoutManualMarker (content : Text) : Text :=
  taskContentWithoutMarker content taskManualMarker

/-- `task_content_without_interactive_done_marker`. -/
def taskContentWithoutInteractiveDoneMarker (content : Text) : Text :=
  taskContentWithoutMarker content taskInteractiveDoneMarker

/-! ## Session links -/

/-- `str::strip_prefix`. -/
def stripPrefix (pre t : Text) : Option Text :=
  if pre.isPrefixOf t then some (t.drop pre.length) else none

/-- A session id: ASCII letters, digits and dashes. -/
def isSessionId (id : Text) : Bool := !id.isEmpty && id.all fun c => c.isAlphanum || c == '-'

/-- The session that a word links to. -/
def sessionOfWord (w : Text) : Option Text := (stripPrefix codexTaskSessionPrefix w).filter isSessionId

/-- `codex_session_id_from_task_content`. -/
def codexSessionIdFromTaskContent (content : Text) : Option Text :=
  (lastWord content).bind sessionOfWord

/-- Every word with the whitespace after it. -/
def wordsBeforeGaps : List Piece → Text → List (Text × Text)
  | [], _ => []
  | [p], tail => [(p.word, tail)]
  | p :: q :: ps, tail => (p.word, q.gap) :: wordsBeforeGaps (q :: ps) tail

/-- `codex_session_markers_in_task_content`: the sessions that are linked to, each with the
whitespace after its link. -/
def codexSessionMarkersInTaskContent (content : Text) : List (Text × Text) :=
  (wordsBeforeGaps (pieces content).1 (pieces content).2).filterMap fun (w, gap) =>
    (sessionOfWord w).map fun id => (id, gap)

/-- `codex_session_id_is_uuid`. -/
def codexSessionIdIsUuid (sessionId : Text) : Bool :=
  sessionId.length = 36 && sessionId.zipIdx.all fun (c, index) =>
    if index = 8 || index = 13 || index = 18 || index = 23 then c == '-'
    else c.isDigit || ('a' ≤ c && c ≤ 'f') || ('A' ≤ c && c ≤ 'F')

/-- `recoverable_codex_session_id_from_task_content`: the last word, or else the one session
that links away from the end of the task agree on. -/
def recoverableCodexSessionIdFromTaskContent (content : Text) : Option Text :=
  let content := taskContentWithoutStopMarker content
  match codexSessionIdFromTaskContent content with
  | some sessionId => some sessionId
  | none =>
    let markers := (codexSessionMarkersInTaskContent content).filter fun (id, gap) =>
      codexSessionIdIsUuid id || gap.head? == some '\r' || gap.head? == some '\n'
    match markers with
    | [] => none
    | (id, _) :: rest => if rest.all fun (candidate, _) => candidate == id then some id else none

/-- `task_content_without_codex_session`. -/
def taskContentWithoutCodexSession (content : Text) : Text :=
  let trimmed := trimEnd content
  match codexSessionIdFromTaskContent trimmed with
  | some sessionId => trimEnd (trimmed.rdrop (codexTaskSessionPrefix.length + sessionId.length))
  | none => trimmed

/-- `task_content_without_matching_codex_sessions`. -/
def taskContentWithoutMatchingCodexSessions (content sessionId : Text) : Text :=
  trimEnd (removeWords (fun c => c == ' ' || c == '\t')
    (fun w => sessionOfWord w == some sessionId) content)

/-- `task_content_without_recoverable_codex_session`. -/
def taskContentWithoutRecoverableCodexSession (content : Text) : Text :=
  let trimmed := trimEnd content
  match recoverableCodexSessionIdFromTaskContent trimmed with
  | some sessionId => taskContentWithoutMatchingCodexSessions trimmed sessionId
  | none => trimmed

/-- `task_content_with_codex_session`. -/
def taskContentWithCodexSession (content sessionId : Text) : Text :=
  let stopped := taskContentIsStopped content
  let content := taskContentWithoutCodexSession (taskContentWithoutStopMarker content)
  let content := taskContentWithoutMatchingCodexSessions content sessionId
  let linked :=
    if content.isEmpty then codexTaskSessionPrefix ++ sessionId
    else content ++ ' ' :: codexTaskSessionPrefix ++ sessionId
  if stopped then linked ++ ' ' :: taskStoppedMarker else linked

/-- `task_content_with_interactive_done_marker`. -/
def taskContentWithInteractiveDoneMarker (content : Text) : Text :=
  let stopped := taskContentIsStopped content
  let content := taskContentWithoutStopMarker content
  let session := recoverableCodexSessionIdFromTaskContent content
  let unlinked := taskContentWithoutRecoverableCodexSession content
  let unmarked := taskContentWithoutInteractiveDoneMarker unlinked
  let marked := trimEnd unmarked ++ ' ' :: taskInteractiveDoneMarker
  let linked :=
    match session with
    | some session => taskContentWithCodexSession marked session
    | none => marked
  if stopped then linked ++ ' ' :: taskStoppedMarker else linked

/-- `task_content_with_manual_session`. -/
def taskContentWithManualSession (content sessionId : Text) : Text :=
  let content := taskContentWithoutRecoverableCodexSession (taskContentWithoutStopMarker content)
  let content := taskContentWithoutManualMarker content
  taskContentWithCodexSession (trimEnd content ++ ' ' :: taskManualMarker) sessionId

/-! ## One line -/

/-- A line without its heading marks, when those end in a list marker. -/
def withoutListMarker (line : Text) : Text :=
  let body := trimStart (line.dropWhile fun c => c == '#')
  trim (((stripPrefix "- ".toList body).or (stripPrefix "* ".toList body)).getD line)

/-- `normalize_task_text`. -/
def normalizeTaskText (content : Text) : Text :=
  List.intercalate [' '] ((((lines (taskContentWithoutRecoverableCodexSession content)).map
    trim).filter fun line => !line.isEmpty).map withoutListMarker)

/-- `single_line_content`. -/
def singleLineContent (content : Text) : Text :=
  let normalized := normalizeTaskText content
  match recoverableCodexSessionIdFromTaskContent content with
  | some sessionId => taskContentWithCodexSession normalized sessionId
  | none => normalized

/-- The text through its first full stop, exclamation mark or question mark. -/
def throughSentenceEnd (t : Text) : Text :=
  match t.span fun c => !(c == '.' || c == '!' || c == '?') with
  | (sentence, stop :: _) => sentence ++ [stop]
  | (sentence, []) => sentence

/-- `first_sentence`. -/
def firstSentence (content : Text) : Option Text :=
  let normalized := normalizeTaskText
    (taskContentWithoutInteractiveDoneMarker (taskContentWithoutManualMarker content))
  if normalized.isEmpty then none else some (trim (throughSentenceEnd normalized))

/-! ### Folded text has no line feed -/

theorem newline_not_mem_trimEnd {t : Text} (h : '\n' ∉ t) : '\n' ∉ trimEnd t :=
  fun hmem => h (mem_of_mem_trimEnd hmem)

theorem newline_not_mem_sessionId {id : Text} (h : isSessionId id = true) : '\n' ∉ id := by
  intro hmem
  simp only [isSessionId, Bool.and_eq_true, List.all_eq_true] at h
  have := h.2 '\n' hmem
  cases this

theorem newline_not_mem_intercalate {ls : List Text} (h : ∀ l ∈ ls, '\n' ∉ l) :
    '\n' ∉ List.intercalate [' '] ls := by
  induction ls with
  | nil => exact List.not_mem_nil
  | cons l ls ih =>
    obtain ⟨hl, hls⟩ := List.forall_mem_cons.mp h
    cases ls with
    | nil => simpa using hl
    | cons l' ls =>
      rw [List.intercalate_cons_cons]
      simp only [List.mem_append, List.mem_singleton, not_or]
      exact ⟨⟨hl, by decide⟩, ih hls⟩

theorem newline_not_mem_stripPrefix {pre t rest : Text} (h : '\n' ∉ t)
    (hrest : stripPrefix pre t = some rest) : '\n' ∉ rest := by
  unfold stripPrefix at hrest
  split at hrest
  · cases hrest
    exact fun hmem => h (List.mem_of_mem_drop hmem)
  · cases hrest

theorem newline_not_mem_withoutListMarker {line : Text} (h : '\n' ∉ line) :
    '\n' ∉ withoutListMarker line := by
  have hbody : '\n' ∉ trimStart (line.dropWhile fun c => c == '#') :=
    fun hmem => h ((List.dropWhile_sublist _).subset ((List.dropWhile_sublist _).subset hmem))
  intro hmem
  have hin := mem_of_mem_trim hmem
  cases hdash : stripPrefix "- ".toList (trimStart (line.dropWhile fun c => c == '#')) with
  | some rest =>
    rw [hdash] at hin
    exact newline_not_mem_stripPrefix hbody hdash hin
  | none =>
    rw [hdash, Option.none_or] at hin
    cases hstar : stripPrefix "* ".toList (trimStart (line.dropWhile fun c => c == '#')) with
    | some rest =>
      rw [hstar] at hin
      exact newline_not_mem_stripPrefix hbody hstar hin
    | none =>
      rw [hstar] at hin
      exact h hin

theorem newline_not_mem_normalizeTaskText (content : Text) : '\n' ∉ normalizeTaskText content := by
  refine newline_not_mem_intercalate fun l hl => ?_
  obtain ⟨line, hline, rfl⟩ := List.mem_map.mp hl
  obtain ⟨raw, hraw, rfl⟩ := List.mem_map.mp (List.mem_filter.mp hline).1
  exact newline_not_mem_withoutListMarker fun hmem =>
    not_mem_of_mem_lines hraw (mem_of_mem_trim hmem)

theorem newline_not_mem_withCodexSession {content sessionId : Text} (hc : '\n' ∉ content)
    (hid : '\n' ∉ sessionId) : '\n' ∉ taskContentWithCodexSession content sessionId := by
  have hstop : '\n' ∉ taskContentWithoutStopMarker content := by
    unfold taskContentWithoutStopMarker
    split
    · exact newline_not_mem_trimEnd fun hmem =>
        hc (mem_of_mem_trimEnd ((List.take_sublist _ _).subset hmem))
    · exact hc
  have hlink : '\n' ∉ taskContentWithoutCodexSession (taskContentWithoutStopMarker content) := by
    unfold taskContentWithoutCodexSession
    dsimp only
    split
    · exact newline_not_mem_trimEnd fun hmem =>
        newline_not_mem_trimEnd hstop ((List.take_sublist _ _).subset hmem)
    · exact newline_not_mem_trimEnd hstop
  have hprose := newline_not_mem_trimEnd fun hmem => hlink ((removeWords_sublist
    (fun c => c == ' ' || c == '\t') (fun w => sessionOfWord w == some sessionId) _).subset hmem)
  have hmarker : '\n' ∉ codexTaskSessionPrefix ∧ '\n' ∉ taskStoppedMarker := by decide
  have hspace : '\n' ≠ ' ' := by decide
  unfold taskContentWithCodexSession
  dsimp only
  split <;> split <;>
    simp only [List.mem_append, List.mem_cons, not_or] <;>
    simp_all [taskContentWithoutMatchingCodexSessions]

theorem isSessionId_of_sessionOfWord {w id : Text} (h : sessionOfWord w = some id) :
    isSessionId id = true := (Option.filter_eq_some_iff.mp h).2

theorem isSessionId_of_recoverable {content id : Text}
    (h : recoverableCodexSessionIdFromTaskContent content = some id) : isSessionId id = true := by
  unfold recoverableCodexSessionIdFromTaskContent at h
  dsimp only at h
  split at h
  · rename_i sessionId hlast
    cases h
    obtain ⟨w, -, hw⟩ := Option.bind_eq_some_iff.mp hlast
    exact isSessionId_of_sessionOfWord hw
  · split at h
    · cases h
    · rename_i marker gap rest hmarkers
      split at h
      · cases h
        have hmem : (id, gap) ∈ codexSessionMarkersInTaskContent
            (taskContentWithoutStopMarker content) :=
          (List.mem_filter.mp (hmarkers ▸ List.mem_cons_self)).1
        obtain ⟨⟨w, g⟩, -, hw⟩ := List.mem_filterMap.mp hmem
        obtain ⟨found, hfound, heq⟩ := Option.map_eq_some_iff.mp hw
        cases heq
        exact isSessionId_of_sessionOfWord hfound
      · cases h

/-- A folded task is one line. -/
theorem newline_not_mem_singleLineContent (content : Text) : '\n' ∉ singleLineContent content := by
  unfold singleLineContent
  dsimp only
  split
  · rename_i sessionId h
    exact newline_not_mem_withCodexSession (newline_not_mem_normalizeTaskText content)
      (newline_not_mem_sessionId (isSessionId_of_recoverable h))
  · exact newline_not_mem_normalizeTaskText content

end Clt
