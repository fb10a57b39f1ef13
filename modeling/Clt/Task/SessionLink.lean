import Clt.Task.Content

/-!
# Linking a task to a session

What `task_content_with_codex_session`, `task_content_with_manual_session` and
`task_content_with_interactive_done_marker` leave: the prose, the marker and the link at the
end, and behind it the stop marker of a stopped task. `linked` is that shape, and the readers
and the writers are computed on it.
-/

namespace Clt

open Text

/-! ## Markers are words -/

theorem isWhitespace_space : isWhitespace ' ' = true := by decide

theorem isWord_taskStoppedMarker : IsWord taskStoppedMarker :=
  isWord_of_all rfl (by decide)

theorem isWord_taskManualMarker : IsWord taskManualMarker :=
  isWord_of_all rfl (by decide)

theorem isWord_taskInteractiveDoneMarker : IsWord taskInteractiveDoneMarker :=
  isWord_of_all rfl (by decide)

/-- The link to a session. -/
def sessionLink (sessionId : Text) : Text := codexTaskSessionPrefix ++ sessionId

section Link

variable {sessionId : Text}

theorem not_isWhitespace_of_sessionChar {c : Char} (h : (c.isAlphanum || c == '-') = true) :
    isWhitespace c = false := by
  by_contra hblank
  rw [Bool.not_eq_false] at hblank
  rcases Bool.or_eq_true_iff.mp h with halpha | hdash
  · delta Char.isAlphanum Char.isAlpha Char.isUpper Char.isLower Char.isDigit at halpha
    simp only [Bool.or_eq_true, Bool.and_eq_true, decide_eq_true_eq, UInt32.le_iff_toNat_le,
      ge_iff_le] at halpha
    change ((65 ≤ c.toNat ∧ c.toNat ≤ 90) ∨ (97 ≤ c.toNat ∧ c.toNat ≤ 122)) ∨
      (48 ≤ c.toNat ∧ c.toNat ≤ 57) at halpha
    simp only [isWhitespace, Bool.or_eq_true, Bool.and_eq_true, decide_eq_true_eq] at hblank
    omega
  · rw [beq_iff_eq] at hdash
    rw [hdash] at hblank
    exact absurd hblank (by decide)

theorem isWord_sessionLink (h : isSessionId sessionId = true) : IsWord (sessionLink sessionId) := by
  refine ⟨List.append_ne_nil_of_left_ne_nil (List.cons_ne_nil _ _) _, ?_⟩
  intro c hc
  rcases List.mem_append.mp hc with hc | hc
  · have hprefix : IsWord codexTaskSessionPrefix := isWord_of_all rfl (by decide)
    exact hprefix.2 c hc
  · simp only [isSessionId, Bool.and_eq_true, List.all_eq_true] at h
    exact not_isWhitespace_of_sessionChar (h.2 c hc)

theorem sessionOfWord_sessionLink (h : isSessionId sessionId = true) :
    sessionOfWord (sessionLink sessionId) = some sessionId := by
  have hstrip : stripPrefix codexTaskSessionPrefix (sessionLink sessionId) = some sessionId := by
    simp [stripPrefix, sessionLink]
  rw [sessionOfWord, hstrip, Option.filter_some, if_pos h]

/-- A marker links to no session. -/
theorem sessionOfWord_marker :
    sessionOfWord taskStoppedMarker = none ∧ sessionOfWord taskManualMarker = none ∧
      sessionOfWord taskInteractiveDoneMarker = none := by decide

theorem sessionLink_ne_marker (sessionId : Text) :
    sessionLink sessionId ≠ taskStoppedMarker ∧ sessionLink sessionId ≠ taskManualMarker ∧
      sessionLink sessionId ≠ taskInteractiveDoneMarker := by
  have hstart : (sessionLink sessionId).take 6 = codexTaskSessionPrefix := List.take_left' rfl
  refine ⟨?_, ?_, ?_⟩ <;>
  · intro h
    rw [h] at hstart
    exact absurd hstart (by decide)

end Link

/-! ## The last word -/

section LastWord

variable {t w : Text}

theorem lastWord_append_word (t : Text) (hw : IsWord w) : lastWord (t ++ ' ' :: w) = some w := by
  rw [lastWord, splitWhitespace_append isWhitespace_space, splitWhitespace_word hw]
  simp

theorem lastWord_word (hw : IsWord w) : lastWord w = some w := by
  rw [lastWord, splitWhitespace_word hw]
  rfl

theorem lastWord_trimEnd (t : Text) : lastWord (trimEnd t) = lastWord t := by
  rw [lastWord, splitWhitespace_trimEnd, lastWord]

theorem trimEnd_append_space_word (t : Text) (hw : IsWord w) :
    trimEnd (t ++ ' ' :: w) = t ++ ' ' :: w := by
  have h := trimEnd_append_word (t ++ [' ']) hw
  rwa [List.append_assoc] at h

theorem rdrop_append_length (t w : Text) : (t ++ w).rdrop w.length = t := by
  simp [List.rdrop_eq_reverse_drop_reverse]

/-- What is left before the last word. -/
theorem trimEnd_rdrop_append_word (t w : Text) :
    trimEnd ((t ++ ' ' :: w).rdrop w.length) = trimEnd t := by
  have hsplit : t ++ ' ' :: w = (t ++ [' ']) ++ w := by simp
  rw [hsplit, rdrop_append_length, trimEnd_append_of_whitespace]
  intro c hc
  rw [List.mem_singleton.mp hc]
  exact isWhitespace_space

end LastWord

/-! ## Texts with a link at the end -/

/-- The prose with a link behind it, and the stop marker of a stopped task. -/
def linked (prose sessionId : Text) (stopped : Bool) : Text :=
  let link :=
    if prose.isEmpty then sessionLink sessionId else prose ++ ' ' :: sessionLink sessionId
  if stopped then link ++ ' ' :: taskStoppedMarker else link

/-- The prose that a link to the session may stand behind: it ends in no whitespace and links
to another session at most. -/
structure Unlinked (sessionId prose : Text) : Prop where
  trimmed : trimEnd prose = prose
  others : ∀ w ∈ splitWhitespace prose, (sessionOfWord w == some sessionId) = false

section Linked

variable {prose sessionId : Text} {stopped : Bool}

theorem taskContentIsStopped_append_stop (t : Text) :
    taskContentIsStopped (t ++ ' ' :: taskStoppedMarker) = true := by
  rw [taskContentIsStopped, lastWord_append_word t isWord_taskStoppedMarker]
  simp

theorem taskContentWithoutStopMarker_append_stop (t : Text) :
    taskContentWithoutStopMarker (t ++ ' ' :: taskStoppedMarker) = trimEnd t := by
  rw [taskContentWithoutStopMarker, if_pos (taskContentIsStopped_append_stop t),
    trimEnd_append_space_word t isWord_taskStoppedMarker, trimEnd_rdrop_append_word]

theorem taskContentWithoutStopMarker_of_not (h : taskContentIsStopped prose = false) :
    taskContentWithoutStopMarker prose = prose := by
  rw [taskContentWithoutStopMarker, if_neg (by simp [h])]

theorem lastWord_linked (hs : isSessionId sessionId = true) :
    lastWord (linked prose sessionId false) = some (sessionLink sessionId) := by
  have hw := isWord_sessionLink hs
  unfold linked
  by_cases hempty : prose.isEmpty = true
  · simpa [hempty] using lastWord_word hw
  · simpa [hempty] using lastWord_append_word prose hw

theorem trimEnd_linked (hs : isSessionId sessionId = true) :
    trimEnd (linked prose sessionId false) = linked prose sessionId false := by
  have hw := isWord_sessionLink hs
  unfold linked
  by_cases hempty : prose.isEmpty = true
  · have h := trimEnd_append_word [] hw
    simpa [hempty] using h
  · simpa [hempty] using trimEnd_append_space_word prose hw

/-- The stop marker is read, and the link before it. -/
theorem taskContentIsStopped_linked (hs : isSessionId sessionId = true) :
    taskContentIsStopped (linked prose sessionId stopped) = stopped := by
  cases stopped with
  | true => exact taskContentIsStopped_append_stop _
  | false =>
    rw [taskContentIsStopped, lastWord_linked hs]
    simp [(sessionLink_ne_marker sessionId).1]

theorem taskContentWithoutStopMarker_linked (hs : isSessionId sessionId = true) :
    taskContentWithoutStopMarker (linked prose sessionId stopped) =
      linked prose sessionId false := by
  cases stopped with
  | true => exact (taskContentWithoutStopMarker_append_stop _).trans (trimEnd_linked hs)
  | false => exact taskContentWithoutStopMarker_of_not (taskContentIsStopped_linked hs)

theorem codexSessionIdFromTaskContent_linked (hs : isSessionId sessionId = true) :
    codexSessionIdFromTaskContent (linked prose sessionId false) = some sessionId := by
  rw [codexSessionIdFromTaskContent, lastWord_linked hs, Option.bind_some,
    sessionOfWord_sessionLink hs]

/-- The whitespace at the end of a text does not matter to its last word. -/
theorem lastWord_withoutStopMarker_congr {t : Text} (h : trimEnd t = trimEnd prose) :
    lastWord (taskContentWithoutStopMarker t) = lastWord (taskContentWithoutStopMarker prose) := by
  have hlast : lastWord t = lastWord prose := by rw [← lastWord_trimEnd, h, lastWord_trimEnd]
  unfold taskContentWithoutStopMarker taskContentIsStopped
  rw [hlast, h]
  split
  · rfl
  · exact hlast

/-- The session is recovered, whatever whitespace stands behind the text. -/
theorem recoverable_linked_of_trimEnd {t : Text} (hs : isSessionId sessionId = true)
    (h : trimEnd t = trimEnd (linked prose sessionId stopped)) :
    recoverableCodexSessionIdFromTaskContent t = some sessionId := by
  have hterminal : codexSessionIdFromTaskContent (taskContentWithoutStopMarker t) =
      some sessionId := by
    rw [codexSessionIdFromTaskContent, lastWord_withoutStopMarker_congr h,
      taskContentWithoutStopMarker_linked hs]
    exact codexSessionIdFromTaskContent_linked hs
  unfold recoverableCodexSessionIdFromTaskContent
  dsimp only
  rw [hterminal]

theorem recoverable_linked (hs : isSessionId sessionId = true) :
    recoverableCodexSessionIdFromTaskContent (linked prose sessionId stopped) =
      some sessionId := recoverable_linked_of_trimEnd hs rfl

/-- Taking the links out leaves the prose. -/
theorem withoutMatching_linked (hs : isSessionId sessionId = true)
    (h : Unlinked sessionId prose) :
    taskContentWithoutMatchingCodexSessions (linked prose sessionId false) sessionId = prose := by
  have hw := isWord_sessionLink hs
  have hgone : (sessionOfWord (sessionLink sessionId) == some sessionId) = true := by
    rw [sessionOfWord_sessionLink hs]
    simp
  unfold taskContentWithoutMatchingCodexSessions linked
  by_cases hempty : prose.isEmpty = true
  · have hprose : prose = [] := List.isEmpty_iff.mp hempty
    simp only [hempty, if_true, Bool.false_eq_true, if_false]
    rw [removeWords_word hw hgone, hprose]
    exact trimEnd_nil
  · simp only [hempty, Bool.false_eq_true, if_false]
    rw [removeWords_append_word _ isWhitespace_space (by simp) prose hw, if_pos hgone,
      removeWords_eq_self h.others, h.trimmed]

theorem withoutRecoverable_linked (hs : isSessionId sessionId = true)
    (h : Unlinked sessionId prose) :
    taskContentWithoutRecoverableCodexSession (linked prose sessionId false) = prose := by
  unfold taskContentWithoutRecoverableCodexSession
  dsimp only
  rw [trimEnd_linked hs, recoverable_linked hs]
  exact withoutMatching_linked hs h

theorem withoutTerminal_linked (hs : isSessionId sessionId = true)
    (h : Unlinked sessionId prose) :
    taskContentWithoutCodexSession (linked prose sessionId false) = prose := by
  have hterminal : codexSessionIdFromTaskContent (linked prose sessionId false) =
      some sessionId := by
    rw [codexSessionIdFromTaskContent, lastWord_linked hs, Option.bind_some,
      sessionOfWord_sessionLink hs]
  have hlength : codexTaskSessionPrefix.length + sessionId.length =
      (sessionLink sessionId).length := (List.length_append).symm
  unfold taskContentWithoutCodexSession
  dsimp only
  rw [trimEnd_linked hs, hterminal]
  show trimEnd ((linked prose sessionId false).rdrop _) = prose
  rw [hlength]
  unfold linked
  by_cases hempty : prose.isEmpty = true
  · have hdrop := rdrop_append_length [] (sessionLink sessionId)
    rw [List.nil_append] at hdrop
    simp only [hempty, if_true, Bool.false_eq_true, if_false]
    rw [hdrop, List.isEmpty_iff.mp hempty]
    exact trimEnd_nil
  · simp only [hempty, Bool.false_eq_true, if_false]
    rw [trimEnd_rdrop_append_word, h.trimmed]

end Linked

/-! ## Writing a link -/

section Write

variable {content prose sessionId marker : Text} {stopped : Bool}

theorem removeWords_unlinked (h : Unlinked sessionId prose) :
    taskContentWithoutMatchingCodexSessions prose sessionId = prose := by
  rw [taskContentWithoutMatchingCodexSessions, removeWords_eq_self h.others, h.trimmed]

/-- Taking the links to the session out leaves prose for a link to it. -/
theorem unlinked_withoutMatching (content sessionId : Text) :
    Unlinked sessionId (taskContentWithoutMatchingCodexSessions content sessionId) := by
  constructor
  · exact trimEnd_trimEnd _
  · intro w hw
    rw [taskContentWithoutMatchingCodexSessions, splitWhitespace_trimEnd,
      splitWhitespace_removeWords] at hw
    simpa using (List.mem_filter.mp hw).2

/-- The prose that `task_content_with_codex_session` puts its link behind. -/
def linkProse (content sessionId : Text) : Text :=
  taskContentWithoutMatchingCodexSessions
    (taskContentWithoutCodexSession (taskContentWithoutStopMarker content)) sessionId

theorem taskContentWithCodexSession_eq (content sessionId : Text) :
    taskContentWithCodexSession content sessionId =
      linked (linkProse content sessionId) sessionId (taskContentIsStopped content) := by
  simp [taskContentWithCodexSession, linked, linkProse, sessionLink]

theorem linkProse_linked (hs : isSessionId sessionId = true) (h : Unlinked sessionId prose) :
    linkProse (linked prose sessionId stopped) sessionId = prose := by
  rw [linkProse, taskContentWithoutStopMarker_linked hs, withoutTerminal_linked hs h,
    removeWords_unlinked h]

/-- A link that is there is written as it was. -/
theorem taskContentWithCodexSession_linked (hs : isSessionId sessionId = true)
    (h : Unlinked sessionId prose) :
    taskContentWithCodexSession (linked prose sessionId stopped) sessionId =
      linked prose sessionId stopped := by
  rw [taskContentWithCodexSession_eq, linkProse_linked hs h, taskContentIsStopped_linked hs]

/-! ### Behind a marker -/

/-- A marker other than the stop marker. -/
structure IsTaskMarker (marker : Text) : Prop where
  word : IsWord marker
  ne_stopped : marker ≠ taskStoppedMarker
  session : sessionOfWord marker = none

theorem isTaskMarker_manual : IsTaskMarker taskManualMarker :=
  ⟨isWord_taskManualMarker, by decide, sessionOfWord_marker.2.1⟩

theorem isTaskMarker_interactiveDone : IsTaskMarker taskInteractiveDoneMarker :=
  ⟨isWord_taskInteractiveDoneMarker, by decide, sessionOfWord_marker.2.2⟩

theorem taskContentIsStopped_append_marker (hm : IsTaskMarker marker) (t : Text) :
    taskContentIsStopped (t ++ ' ' :: marker) = false := by
  rw [taskContentIsStopped, lastWord_append_word t hm.word]
  simp [hm.ne_stopped]

theorem withoutMatching_append_marker (hm : IsTaskMarker marker) (t sessionId : Text) :
    taskContentWithoutMatchingCodexSessions (t ++ ' ' :: marker) sessionId =
      removeWords (fun c => c == ' ' || c == '\t') (fun w => sessionOfWord w == some sessionId) t ++
        ' ' :: marker := by
  rw [taskContentWithoutMatchingCodexSessions,
    removeWords_append_word _ isWhitespace_space (by simp) t hm.word, if_neg (by simp [hm.session]),
    trimEnd_append_space_word _ hm.word]

/-- A marker at the end stays between the prose and the link. -/
theorem taskContentWithCodexSession_append_marker (hm : IsTaskMarker marker)
    (t sessionId : Text) :
    taskContentWithCodexSession (t ++ ' ' :: marker) sessionId =
      linked (taskContentWithoutMatchingCodexSessions (t ++ ' ' :: marker) sessionId) sessionId
        false := by
  have hnot := taskContentIsStopped_append_marker hm t
  have hterminal : taskContentWithoutCodexSession (t ++ ' ' :: marker) = t ++ ' ' :: marker := by
    unfold taskContentWithoutCodexSession
    dsimp only
    rw [trimEnd_append_space_word t hm.word, codexSessionIdFromTaskContent,
      lastWord_append_word t hm.word, Option.bind_some, hm.session]
  rw [taskContentWithCodexSession_eq, hnot, linkProse,
    taskContentWithoutStopMarker_of_not hnot, hterminal]

/-! ### The marker of finished work -/

/-- The prose without the marker of finished work, and the marker. -/
def doneProse (prose : Text) : Text :=
  taskContentWithoutInteractiveDoneMarker prose ++ ' ' :: taskInteractiveDoneMarker

theorem splitWhitespace_withoutMarker (content marker : Text) :
    splitWhitespace (taskContentWithoutMarker content marker) =
      (splitWhitespace content).filter fun w => w ≠ marker := by
  rw [taskContentWithoutMarker, splitWhitespace_trimEnd, splitWhitespace_removeWords]
  congr 1
  funext w
  by_cases h : w = marker <;> simp [h]

theorem withoutMatching_withoutMarker (h : Unlinked sessionId prose) (marker : Text) :
    Unlinked sessionId (taskContentWithoutMarker prose marker) := by
  constructor
  · exact trimEnd_trimEnd _
  · intro w hw
    rw [splitWhitespace_withoutMarker] at hw
    exact h.others w (List.mem_filter.mp hw).1

theorem unlinked_doneProse (h : Unlinked sessionId prose) :
    Unlinked sessionId (doneProse prose) := by
  constructor
  · exact trimEnd_append_space_word _ isWord_taskInteractiveDoneMarker
  · intro w hw
    rw [doneProse, splitWhitespace_append isWhitespace_space,
      splitWhitespace_word isWord_taskInteractiveDoneMarker] at hw
    rcases List.mem_append.mp hw with hw | hw
    · exact (withoutMatching_withoutMarker h _).others w hw
    · rw [List.mem_singleton.mp hw, sessionOfWord_marker.2.2]
      rfl

theorem taskContentWithInteractiveDoneMarker_linked (hs : isSessionId sessionId = true)
    (h : Unlinked sessionId prose) :
    taskContentWithInteractiveDoneMarker (linked prose sessionId stopped) =
      linked (doneProse prose) sessionId stopped := by
  have hprose : taskContentWithoutMatchingCodexSessions
      (trimEnd (taskContentWithoutInteractiveDoneMarker prose) ++ ' ' :: taskInteractiveDoneMarker)
      sessionId = doneProse prose := by
    have htrim : trimEnd (taskContentWithoutInteractiveDoneMarker prose) =
        taskContentWithoutInteractiveDoneMarker prose := trimEnd_trimEnd _
    rw [htrim]
    exact removeWords_unlinked (unlinked_doneProse h)
  unfold taskContentWithInteractiveDoneMarker
  dsimp only
  rw [taskContentIsStopped_linked hs, taskContentWithoutStopMarker_linked hs,
    recoverable_linked hs, withoutRecoverable_linked hs h]
  dsimp only
  rw [taskContentWithCodexSession_append_marker isTaskMarker_interactiveDone, hprose]
  cases stopped <;> rfl

theorem doneProse_doneProse (prose : Text) : doneProse (doneProse prose) = doneProse prose := by
  have hnone : ∀ w ∈ splitWhitespace (taskContentWithoutInteractiveDoneMarker prose),
      (w == taskInteractiveDoneMarker) = false := by
    intro w hw
    rw [taskContentWithoutInteractiveDoneMarker, splitWhitespace_withoutMarker] at hw
    simpa using (List.mem_filter.mp hw).2
  have hremove : removeWords (fun c => c == ' ') (fun w => w == taskInteractiveDoneMarker)
      (doneProse prose) = taskContentWithoutInteractiveDoneMarker prose := by
    rw [doneProse, removeWords_append_word _ isWhitespace_space (by simp) _
      isWord_taskInteractiveDoneMarker, if_pos (by simp), removeWords_eq_self hnone]
  have hagain : taskContentWithoutInteractiveDoneMarker (doneProse prose) =
      taskContentWithoutInteractiveDoneMarker prose := by
    rw [taskContentWithoutInteractiveDoneMarker, taskContentWithoutMarker, hremove]
    exact trimEnd_trimEnd _
  rw [doneProse, hagain, doneProse]

/-- Whatever the content, the marker of finished work keeps the reading of the stop marker. -/
theorem taskContentIsStopped_withInteractiveDoneMarker (content : Text) :
    taskContentIsStopped (taskContentWithInteractiveDoneMarker content) =
      taskContentIsStopped content := by
  unfold taskContentWithInteractiveDoneMarker
  dsimp only
  cases hstopped : taskContentIsStopped content with
  | true =>
    rw [if_pos rfl]
    exact taskContentIsStopped_append_stop _
  | false =>
    rw [if_neg (by simp)]
    split
    · rw [taskContentWithCodexSession_eq, taskContentIsStopped_append_marker
        isTaskMarker_interactiveDone]
      rename_i session hsession
      exact taskContentIsStopped_linked (isSessionId_of_recoverable hsession)
    · exact taskContentIsStopped_append_marker isTaskMarker_interactiveDone _

end Write

/-! ## Manual work -/

section Manual

variable {content sessionId : Text}

/-- The prose of manual work, before its marker. -/
def manualProse (content sessionId : Text) : Text :=
  removeWords (fun c => c == ' ' || c == '\t') (fun w => sessionOfWord w == some sessionId)
    (taskContentWithoutManualMarker
      (taskContentWithoutRecoverableCodexSession (taskContentWithoutStopMarker content)))

theorem taskContentWithManualSession_eq (content sessionId : Text) :
    taskContentWithManualSession content sessionId =
      linked (manualProse content sessionId ++ ' ' :: taskManualMarker) sessionId false := by
  have htrim : ∀ t, trimEnd (taskContentWithoutManualMarker t) = taskContentWithoutManualMarker t :=
    fun t => trimEnd_trimEnd _
  unfold taskContentWithManualSession
  dsimp only
  rw [taskContentWithCodexSession_append_marker isTaskMarker_manual,
    withoutMatching_append_marker isTaskMarker_manual, htrim, manualProse]

theorem unlinked_manualProse (content sessionId : Text) :
    Unlinked sessionId (manualProse content sessionId ++ ' ' :: taskManualMarker) := by
  rw [manualProse, ← withoutMatching_append_marker isTaskMarker_manual]
  exact unlinked_withoutMatching _ _

/-- Applied again, it keeps the prose but for whitespace at its end. -/
theorem manualProse_again (hs : isSessionId sessionId = true) :
    manualProse (taskContentWithManualSession content sessionId) sessionId =
      trimEnd (manualProse content sessionId) := by
  have hlinks : ∀ w ∈ splitWhitespace (manualProse content sessionId),
      (sessionOfWord w == some sessionId) = false := by
    intro w hw
    rw [manualProse, splitWhitespace_removeWords] at hw
    simpa using (List.mem_filter.mp hw).2
  have hmarkers : ∀ w ∈ splitWhitespace (manualProse content sessionId),
      (w == taskManualMarker) = false := by
    intro w hw
    rw [manualProse, splitWhitespace_removeWords, taskContentWithoutManualMarker,
      splitWhitespace_withoutMarker] at hw
    simpa using (List.mem_filter.mp (List.mem_filter.mp hw).1).2
  have hunmarked : taskContentWithoutManualMarker
      (manualProse content sessionId ++ ' ' :: taskManualMarker) =
        trimEnd (manualProse content sessionId) := by
    rw [taskContentWithoutManualMarker, taskContentWithoutMarker,
      removeWords_append_word _ isWhitespace_space (by simp) _ isWord_taskManualMarker,
      if_pos (by simp), removeWords_eq_self hmarkers]
  rw [manualProse, taskContentWithManualSession_eq, taskContentWithoutStopMarker_linked hs,
    withoutRecoverable_linked hs (unlinked_manualProse content sessionId), hunmarked]
  refine removeWords_eq_self ?_
  intro w hw
  rw [splitWhitespace_trimEnd] at hw
  exact hlinks w hw

end Manual

/-! ## The three writers together -/

/-- What linking a task to a session gives. -/
structure SessionLinks (content sessionId : Text) : Prop where
  /-- The session is recovered, from the result and with the marker of finished work on it. -/
  recoverable : ∀ result ∈ [taskContentWithCodexSession content sessionId,
      taskContentWithManualSession content sessionId],
    recoverableCodexSessionIdFromTaskContent result = some sessionId ∧
      recoverableCodexSessionIdFromTaskContent (taskContentWithInteractiveDoneMarker result) =
        some sessionId
  linkedAgain : taskContentWithCodexSession (taskContentWithCodexSession content sessionId)
    sessionId = taskContentWithCodexSession content sessionId
  doneAgain : ∀ result ∈ [taskContentWithCodexSession content sessionId,
      taskContentWithManualSession content sessionId],
    taskContentWithInteractiveDoneMarker (taskContentWithInteractiveDoneMarker result) =
      taskContentWithInteractiveDoneMarker result
  /-- Only whitespace before the marker can go when manual work is linked again. -/
  manualAgain : ∃ prose ending,
    taskContentWithManualSession content sessionId = prose ++ ending ∧
      taskContentWithManualSession (taskContentWithManualSession content sessionId) sessionId =
        trimEnd prose ++ ending
  stopped : taskContentIsStopped (taskContentWithCodexSession content sessionId) =
    taskContentIsStopped content
  doneStopped : taskContentIsStopped (taskContentWithInteractiveDoneMarker content) =
    taskContentIsStopped content
  /-- Without its link the text is the content without its stop marker, its link at the end and
  its links to the session. -/
  unlinked : taskContentWithoutRecoverableCodexSession
      (taskContentWithoutStopMarker (taskContentWithCodexSession content sessionId)) =
    taskContentWithoutMatchingCodexSessions
      (taskContentWithoutCodexSession (taskContentWithoutStopMarker content)) sessionId
  manualUnlinked : taskContentWithoutRecoverableCodexSession
      (taskContentWithManualSession content sessionId) =
    taskContentWithoutMatchingCodexSessions
      (taskContentWithoutManualMarker (taskContentWithoutRecoverableCodexSession
        (taskContentWithoutStopMarker content)) ++ ' ' :: taskManualMarker) sessionId
  doneUnlinked : ∀ result ∈ [taskContentWithCodexSession content sessionId,
      taskContentWithManualSession content sessionId],
    taskContentWithoutRecoverableCodexSession
        (taskContentWithoutStopMarker (taskContentWithInteractiveDoneMarker result)) =
      taskContentWithoutInteractiveDoneMarker (taskContentWithoutRecoverableCodexSession
        (taskContentWithoutStopMarker result)) ++ ' ' :: taskInteractiveDoneMarker
  manualWords : splitWhitespace (taskContentWithoutManualMarker content) =
    (splitWhitespace content).filter fun w => w ≠ taskManualMarker
  doneWords : splitWhitespace (taskContentWithoutInteractiveDoneMarker content) =
    (splitWhitespace content).filter fun w => w ≠ taskInteractiveDoneMarker

theorem session_links (content sessionId : Text) (hs : isSessionId sessionId = true) :
    SessionLinks content sessionId := by
  have hfirst := taskContentWithCodexSession_eq content sessionId
  have hunlinked := unlinked_withoutMatching
    (taskContentWithoutCodexSession (taskContentWithoutStopMarker content)) sessionId
  have hmanual := taskContentWithManualSession_eq content sessionId
  have hmanualUnlinked := unlinked_manualProse content sessionId
  -- Both results are prose with a link, and what follows is said of such texts.
  have hresult : ∀ result ∈ [taskContentWithCodexSession content sessionId,
      taskContentWithManualSession content sessionId],
      ∃ prose stopped, Unlinked sessionId prose ∧ result = linked prose sessionId stopped := by
    intro result hmem
    rcases List.mem_cons.mp hmem with rfl | hmem
    · exact ⟨_, _, hunlinked, hfirst⟩
    · rw [List.mem_singleton.mp hmem]
      exact ⟨_, _, hmanualUnlinked, hmanual⟩
  exact
    { recoverable := by
        intro result hmem
        obtain ⟨prose, stopped, hprose, rfl⟩ := hresult result hmem
        rw [taskContentWithInteractiveDoneMarker_linked hs hprose]
        exact ⟨recoverable_linked hs, recoverable_linked hs⟩
      linkedAgain := by
        rw [hfirst]
        exact taskContentWithCodexSession_linked hs hunlinked
      doneAgain := by
        intro result hmem
        obtain ⟨prose, stopped, hprose, rfl⟩ := hresult result hmem
        rw [taskContentWithInteractiveDoneMarker_linked hs hprose,
          taskContentWithInteractiveDoneMarker_linked hs (unlinked_doneProse hprose),
          doneProse_doneProse]
      manualAgain := by
        refine ⟨manualProse content sessionId,
          ' ' :: taskManualMarker ++ ' ' :: sessionLink sessionId, ?_, ?_⟩
        · rw [hmanual]
          simp [linked]
        · rw [taskContentWithManualSession_eq, manualProse_again hs]
          simp [linked]
      stopped := by
        rw [hfirst]
        exact taskContentIsStopped_linked hs
      doneStopped := taskContentIsStopped_withInteractiveDoneMarker content
      unlinked := by
        rw [hfirst, taskContentWithoutStopMarker_linked hs]
        exact withoutRecoverable_linked hs hunlinked
      manualUnlinked := by
        rw [hmanual, withoutRecoverable_linked hs hmanualUnlinked,
          withoutMatching_append_marker isTaskMarker_manual, manualProse]
      doneUnlinked := by
        intro result hmem
        obtain ⟨prose, stopped, hprose, rfl⟩ := hresult result hmem
        rw [taskContentWithInteractiveDoneMarker_linked hs hprose,
          taskContentWithoutStopMarker_linked hs, taskContentWithoutStopMarker_linked hs,
          withoutRecoverable_linked hs (unlinked_doneProse hprose),
          withoutRecoverable_linked hs hprose, doneProse]
      manualWords := splitWhitespace_withoutMarker content taskManualMarker
      doneWords := splitWhitespace_withoutMarker content taskInteractiveDoneMarker }

theorem session_links_todo : SessionLinks "write it codex:old clt:stopped".toList "new".toList :=
  session_links _ _ (by decide)

/-- A link at the start of a line leaves its line end, which goes when manual work is linked
again. -/
theorem manual_link_not_stable : ∃ content sessionId, isSessionId sessionId = true ∧
    taskContentWithManualSession (taskContentWithManualSession content sessionId) sessionId ≠
      taskContentWithManualSession content sessionId :=
  ⟨"write it\ncodex:a codex:b".toList, "a".toList, by decide, by decide⟩

end Clt
