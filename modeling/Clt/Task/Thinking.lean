import Mathlib.Data.List.GetD
import Mathlib.Logic.Function.Iterate
import Clt.Text.Trim
import Clt.Text.Words

/-!
# Thinking directives

A task may name the level of thinking that it is worked on with, by two words `/think` and the
level, anywhere outside HTML comments (`task/thinking.rs`). The last directive wins; stripping
takes all of them out, and cycling puts the next level at the end of the first line.
-/

namespace Clt

open Text

/-! ## Reading -/

/-- `LEVELS`; the first one is the default. -/
def thinkingLevels : List Text :=
  [[], "low".toList, "medium".toList, "high".toList, "xhigh".toList, "max".toList, "ultra".toList]

/-- The first word of a directive. -/
def thinkWord : Text := "/think".toList

/-- `eq_ignore_ascii_case`. -/
def eqIgnoreAsciiCase (s t : Text) : Bool := s.map Char.toLower == t.map Char.toLower

/-- The level that a word names; `some none` is the default. -/
def thinkingLevel? (value : Text) : Option (Option Text) :=
  if eqIgnoreAsciiCase value "default".toList then some none
  else (thinkingLevels.tail.find? (eqIgnoreAsciiCase value)).map some

/-- A comment is open when the word has begun. -/
def opensComment (inComment : Bool) (word : Text) : Bool :=
  inComment || "<!--".toList.isPrefixOf word

/-- A comment is open after the word. -/
def commentAfter (inComment : Bool) (word : Text) : Bool :=
  opensComment inComment word && !"-->".toList.isSuffixOf word

/-- A part of a text: a word that stays, or the two words of a directive. -/
inductive Segment (α : Type) where
  | prose (word : α)
  | directive (think value : α) (level : Option Text)

section Segments

variable {α : Type} (word : α → Text)

/-- The scan of `directives`. -/
def segments : Bool → List α → List (Segment α)
  | _, [] => []
  | _, [p] => [.prose p]
  | inComment, p :: q :: rest =>
    if opensComment inComment (word p) then
      .prose p :: segments (commentAfter inComment (word p)) (q :: rest)
    else if word p ≠ thinkWord then .prose p :: segments false (q :: rest)
    else
      match thinkingLevel? (word q) with
      | none => .prose p :: segments false (q :: rest)
      | some level => .directive p q level :: segments false rest

end Segments

/-- The levels of the directives. -/
def directiveLevels {α : Type} (segs : List (Segment α)) : List (Option Text) :=
  segs.filterMap fun
    | .prose _ => none
    | .directive _ _ level => some level

/-- What stays when the directives go. -/
def proseOf {α : Type} (segs : List (Segment α)) : List α :=
  segs.filterMap fun
    | .prose p => some p
    | .directive _ _ _ => none

/-- The directives of a text, by their words. -/
def directives (content : Text) : List (Option Text) :=
  directiveLevels (segments id false (splitWhitespace content))

namespace Thinking

/-- `read`. -/
def read (content : Text) : Option Text := (directives content).getLast?.join

/-! ## Stripping -/

/-- A space or a tab. -/
def isHorizontal (c : Char) : Bool := c == ' ' || c == '\t'

/-- The gap that is left of those around a directive. -/
def closeGap (before after : Text) : Text :=
  if after.head?.any isHorizontal then before ++ after.dropWhile isHorizontal
  else before.rdropWhile isHorizontal ++ after

/-- Take a directive out of the gap before the pieces. -/
def closePieces (before : Text) : List Piece × Text → List Piece × Text
  | ([], tail) => ([], closeGap before tail)
  | (p :: ps, tail) => (⟨closeGap before p.gap, p.word⟩ :: ps, tail)

/-- The pieces without the directives, from the last one on. -/
def stripSegments (segs : List (Segment Piece)) (tail : Text) : List Piece × Text :=
  segs.foldr (fun seg kept =>
    match seg with
    | .prose p => (p :: kept.1, kept.2)
    | .directive think _ _ => closePieces think.gap kept) ([], tail)

/-- `strip`. -/
def strip (content : Text) : Text :=
  let kept := stripSegments (segments Piece.word false (pieces content).1) (pieces content).2
  trim (joinPieces kept.1 kept.2)

/-! ## Cycling -/

/-- The first line of a text, without its line feed. -/
def firstLine (t : Text) : Text := t.takeWhile fun c => c != '\n'

/-- The text from its first line feed on. -/
def afterFirstLine (t : Text) : Text := t.dropWhile fun c => c != '\n'

/-- A directive behind the first line. -/
def insertDirective (body level : Text) : Text :=
  firstLine body ++ ' ' :: (thinkWord ++ ' ' :: level) ++ afterFirstLine body

/-- The level after the one that is read. -/
def nextLevel (current : Option Text) : Text :=
  let index := (thinkingLevels.findIdx? fun level => level == current.getD []).getD 0
  thinkingLevels.getD ((index + 1) % thinkingLevels.length) []

/-- `cycle`. -/
def cycle (content : Text) : Text × Option Text :=
  let next := nextLevel (read content)
  let body := strip content
  if next.isEmpty then (body, none) else (insertDirective body next, some next)

end Thinking

/-! ## Scanning -/

theorem thinkingLevel?_thinkWord : thinkingLevel? thinkWord = none := by decide

theorem opensComment_thinkWord : opensComment false thinkWord = false := by decide

theorem commentAfter_of_not_opens {inComment : Bool} {w : Text}
    (h : opensComment inComment w = false) : commentAfter inComment w = false := by
  rw [commentAfter, h, Bool.false_and]

/-- The word may be the first of a directive. -/
def arms (inComment : Bool) (w : Text) : Bool := !opensComment inComment w && w == thinkWord

/-- Do the words have a directive? `armed` says that the word before them may begin one. -/
def hasDirective : Bool → Bool → List Text → Bool
  | _, _, [] => false
  | inComment, armed, w :: ws =>
    (armed && (thinkingLevel? w).isSome) || hasDirective (commentAfter inComment w)
      (arms inComment w) ws

/-- Directives stand between a `/think` that is none and the name of a level, so that the two
meet when they go. `armed` and `passed` say that such a `/think`, and a directive behind it,
came before. -/
def rejoins : Bool → Bool → Bool → List (Segment Text) → Bool
  | _, _, _, [] => false
  | inComment, armed, _, .directive _ _ _ :: segs => rejoins inComment armed true segs
  | inComment, armed, passed, .prose w :: segs =>
    (armed && passed && (thinkingLevel? w).isSome) || rejoins (commentAfter inComment w)
      (arms inComment w) false segs

/-- A directive behind words that are none. -/
theorem hasDirective_cons_of_prose {inComment : Bool} {p q : Text} {rest : List Text}
    (h : arms inComment p = false ∨ thinkingLevel? q = none) :
    hasDirective inComment false (p :: q :: rest) =
      hasDirective (commentAfter inComment p) false (q :: rest) := by
  rcases h with h | h <;> simp [hasDirective, h]

/-- The first word of a list names no level, or there is none. -/
def HeadNames (words : List Text) : Prop := ∃ w ∈ words.head?, (thinkingLevel? w).isSome = true

theorem segments_cons_cons {α : Type} (word : α → Text) (inComment : Bool) (p q : α)
    (rest : List α) :
    segments word inComment (p :: q :: rest) =
      if opensComment inComment (word p) then
        .prose p :: segments word (commentAfter inComment (word p)) (q :: rest)
      else if word p ≠ thinkWord then .prose p :: segments word false (q :: rest)
      else
        match thinkingLevel? (word q) with
        | none => .prose p :: segments word false (q :: rest)
        | some level => .directive p q level :: segments word false rest := by
  rw [segments]

/-- What the scan does with the first word of a text. -/
theorem segments_cases (inComment : Bool) (p : Text) (rest : List Text) :
    (segments id inComment (p :: rest) = .prose p ::
        segments id (commentAfter inComment p) rest ∧
      (arms inComment p = true → ¬ HeadNames rest)) ∨
    ∃ q level rest', rest = q :: rest' ∧ arms inComment p = true ∧ inComment = false ∧
      thinkingLevel? q = some level ∧
      segments id inComment (p :: rest) = .directive p q level :: segments id false rest' := by
  cases rest with
  | nil =>
    refine .inl ⟨by simp [segments], fun _ => ?_⟩
    rintro ⟨w, hw, -⟩
    cases hw
  | cons q rest' =>
    have hstep := segments_cons_cons id inComment p q rest'
    rw [id_eq, id_eq] at hstep
    cases hopens : opensComment inComment p with
    | true =>
      rw [hopens, if_pos rfl] at hstep
      refine .inl ⟨hstep, fun harms => ?_⟩
      simp [arms, hopens] at harms
    | false =>
      have hafter := commentAfter_of_not_opens hopens
      rw [hopens, if_neg Bool.false_ne_true] at hstep
      by_cases hthink : p = thinkWord
      · have harms : arms inComment p = true := by
          rw [arms, hopens, hthink]
          rfl
        rw [if_neg (not_not_intro hthink)] at hstep
        cases hlevel : thinkingLevel? q with
        | none =>
          rw [hlevel] at hstep
          refine .inl ⟨by rw [hafter, hstep], fun _ => ?_⟩
          rintro ⟨w, hw, hnames⟩
          cases Option.mem_some_iff.mp hw
          rw [hlevel] at hnames
          cases hnames
        | some level =>
          rw [hlevel] at hstep
          have hclosed : inComment = false := by
            rw [opensComment, Bool.or_eq_false_iff] at hopens
            exact hopens.1
          exact .inr ⟨q, level, rest', rfl, harms, hclosed, hlevel, hstep⟩
      · rw [if_pos hthink] at hstep
        refine .inl ⟨by rw [hafter, hstep], fun harms => ?_⟩
        simp [arms, hopens, hthink] at harms

/-- Induction along the scan: a word that stays, or the two words of a directive. -/
theorem scan_induction {motive : Bool → List Text → Prop} (hnil : ∀ c, motive c [])
    (hprose : ∀ c p rest, segments id c (p :: rest) = .prose p ::
        segments id (commentAfter c p) rest → (arms c p = true → ¬ HeadNames rest) →
      motive (commentAfter c p) rest → motive c (p :: rest))
    (hdirective : ∀ p q level rest, arms false p = true → thinkingLevel? q = some level →
      segments id false (p :: q :: rest) = .directive p q level :: segments id false rest →
      motive false rest → motive false (p :: q :: rest))
    (inComment : Bool) (words : List Text) : motive inComment words := by
  induction hn : words.length using Nat.strong_induction_on generalizing inComment words with
  | _ n ih =>
    cases words with
    | nil => exact hnil inComment
    | cons p rest =>
      rcases segments_cases inComment p rest with
        ⟨hsegs, harms⟩ | ⟨q, level, rest', rfl, harms, rfl, hlevel, hsegs⟩
      · exact hprose inComment p rest hsegs harms (ih rest.length (by simp [← hn]) _ _ rfl)
      · have hshorter : rest'.length < n := by
          rw [← hn, List.length_cons, List.length_cons]
          omega
        exact hdirective p q level rest' harms hlevel hsegs (ih rest'.length hshorter _ _ rfl)

/-- The scan finds a directive where there is one. -/
theorem directiveLevels_eq_nil_iff (inComment : Bool) (words : List Text) :
    directiveLevels (segments id inComment words) = [] ↔
      hasDirective inComment false words = false := by
  induction inComment, words using scan_induction with
  | hnil c => simp [segments, directiveLevels, hasDirective]
  | hprose c p rest hsegs harms ih =>
    have hskip : hasDirective c false (p :: rest) =
        hasDirective (commentAfter c p) false rest := by
      cases rest with
      | nil => simp [hasDirective]
      | cons q rest =>
        refine hasDirective_cons_of_prose ?_
        by_cases hp : arms c p = true
        · refine .inr (Option.not_isSome_iff_eq_none.mp fun hq => ?_)
          exact harms hp ⟨q, rfl, hq⟩
        · exact .inl (by simpa using hp)
    rw [hsegs, hskip, ← ih]
    simp [directiveLevels]
  | hdirective p q level rest harms hlevel hsegs _ =>
    rw [hsegs]
    simp [directiveLevels, hasDirective, harms, hlevel]

/-- The words that stay have a directive where two of them meet. -/
theorem hasDirective_proseOf (inComment armed passed : Bool) (words : List Text)
    (h : passed = true ∨ armed = false ∨ ¬ HeadNames words) :
    hasDirective inComment armed (proseOf (segments id inComment words)) =
      rejoins inComment armed passed (segments id inComment words) := by
  induction inComment, words using scan_induction generalizing armed passed with
  | hnil c => simp [segments, proseOf, hasDirective, rejoins]
  | hprose c p rest hsegs harms ih =>
    have hfirst : (armed && (thinkingLevel? p).isSome) =
        (armed && passed && (thinkingLevel? p).isSome) := by
      rcases h with rfl | rfl | hnot
      · rw [Bool.and_true]
      · simp
      · have hp : (thinkingLevel? p).isSome = false := by
          rw [← Bool.not_eq_true]
          exact fun hp => hnot ⟨p, rfl, hp⟩
        simp [hp]
    have hnext : false = true ∨ arms c p = false ∨ ¬ HeadNames rest := by
      by_cases hp : arms c p = true
      · exact .inr (.inr (harms hp))
      · exact .inr (.inl (by simpa using hp))
    have hkept : proseOf (segments id c (p :: rest)) =
        p :: proseOf (segments id (commentAfter c p) rest) := by
      rw [hsegs]
      rfl
    rw [hkept, hsegs, hasDirective, rejoins, hfirst, ih _ _ hnext]
  | hdirective p q level rest harms hlevel hsegs ih =>
    rw [hsegs]
    exact ih armed true (.inl rfl)

/-- Without directives every word stays. -/
theorem segments_of_not_hasDirective (inComment : Bool) (words : List Text)
    (h : hasDirective inComment false words = false) :
    segments id inComment words = words.map Segment.prose := by
  have hnone := (directiveLevels_eq_nil_iff inComment words).mpr h
  clear h
  induction inComment, words using scan_induction with
  | hnil c => rfl
  | hprose c p rest hsegs _ ih =>
    rw [hsegs] at hnone ⊢
    rw [ih (by simpa [directiveLevels] using hnone), List.map_cons]
  | hdirective p q level rest _ _ hsegs _ =>
    rw [hsegs] at hnone
    simp [directiveLevels] at hnone

/-! ### A directive that is put between words -/

/-- The state of the comments after words. -/
def commentAfterAll (inComment : Bool) (words : List Text) : Bool := words.foldl commentAfter inComment

theorem hasDirective_weaken {inComment armed : Bool} {words : List Text}
    (h : hasDirective inComment armed words = false) : hasDirective inComment false words = false := by
  cases words with
  | nil => rfl
  | cons w ws =>
    rw [hasDirective, Bool.or_eq_false_iff] at h
    rw [hasDirective, Bool.false_and, Bool.false_or]
    exact h.2

/-- A level that is inserted where no comment is open is the one directive. -/
theorem segments_insert (inComment : Bool) {before after : List Text} {level : Text}
    (hlevel : thinkingLevel? level = some (some level))
    (h : hasDirective inComment false (before ++ after) = false)
    (hclosed : commentAfterAll inComment before = false) :
    segments id inComment (before ++ thinkWord :: level :: after) =
      before.map Segment.prose ++ .directive thinkWord level (some level) ::
        after.map Segment.prose := by
  induction before generalizing inComment with
  | nil =>
    have hclosed' : inComment = false := hclosed
    subst hclosed'
    rw [List.nil_append, segments]
    simp only [id_eq, opensComment_thinkWord, Bool.false_eq_true, if_false, ne_eq,
      not_true_eq_false, hlevel]
    rw [segments_of_not_hasDirective false after h]
    rfl
  | cons w ws ih =>
    rw [List.cons_append, hasDirective, Bool.false_and, Bool.false_or] at h
    have hrest := ih (commentAfter inComment w) (hasDirective_weaken h) hclosed
    rcases segments_cases inComment w (ws ++ thinkWord :: level :: after) with
      ⟨hsegs, -⟩ | ⟨q, found, rest', heq, harms, -, hq, -⟩
    · rw [List.cons_append, hsegs, hrest]
      rfl
    · -- A `/think` before the insertion would have begun a directive with the same word.
      cases ws with
      | nil =>
        cases (List.cons.inj heq).1
        rw [thinkingLevel?_thinkWord] at hq
        cases hq
      | cons v vs =>
        cases (List.cons.inj heq).1
        rw [List.cons_append, hasDirective, harms, hq] at h
        cases h

theorem commentAfter_of_open {w : Text} (h : "-->".toList.isSuffixOf w = false) :
    commentAfter true w = true := by
  rw [commentAfter, h]
  rfl

/-- A level that is inserted where a comment is open is not read. -/
theorem hasDirective_insert (inComment : Bool) {before after : List Text} {level : Text}
    (hlevel : "-->".toList.isSuffixOf level = false)
    (h : hasDirective inComment false (before ++ after) = false)
    (hopen : commentAfterAll inComment before = true) :
    hasDirective inComment false (before ++ thinkWord :: level :: after) = false := by
  have hgeneral : ∀ (c armed : Bool) (ws : List Text), (ws = [] → armed = false) →
      hasDirective c armed (ws ++ after) = false → commentAfterAll c ws = true →
        hasDirective c armed (ws ++ thinkWord :: level :: after) = false := by
    intro c armed ws
    induction ws generalizing c armed with
    | nil =>
      intro hnil hnone hc
      have hc' : c = true := hc
      rw [hnil rfl] at hnone ⊢
      subst hc'
      have harms : ∀ w, arms true w = false := fun w => by simp [arms, opensComment]
      rw [List.nil_append, hasDirective, hasDirective,
        commentAfter_of_open (by decide), commentAfter_of_open hlevel, harms]
      simpa [harms level] using hnone
    | cons w ws ih =>
      intro _ hnone hc
      rw [List.cons_append, hasDirective, Bool.or_eq_false_iff] at hnone
      rw [List.cons_append, hasDirective, Bool.or_eq_false_iff]
      refine ⟨hnone.1, ih _ _ ?_ hnone.2 hc⟩
      rintro rfl
      -- The comment is open after the word, so the word begins no directive.
      have hw : commentAfter c w = true := hc
      rw [commentAfter, Bool.and_eq_true] at hw
      simp [arms, hw.1]
  exact hgeneral inComment false before (fun _ => rfl) h hopen

/-! ## What stripping leaves -/

/-- The same scan, of what `f` makes of each word. -/
def Segment.map {α β : Type} (f : α → β) : Segment α → Segment β
  | .prose p => .prose (f p)
  | .directive think value level => .directive (f think) (f value) level

theorem map_segments {α : Type} (word : α → Text) (inComment : Bool) (l : List α) :
    (segments word inComment l).map (Segment.map word) = segments id inComment (l.map word) := by
  fun_induction segments word inComment l with
  | case1 c => rfl
  | case2 c p => rfl
  | case3 c p q rest hopens ih =>
    have hstep := segments_cons_cons id c (word p) (word q) (rest.map word)
    rw [id_eq, if_pos hopens] at hstep
    rw [List.map_cons, ih]
    exact hstep.symm
  | case4 c p q rest hopens hthink ih =>
    have hstep := segments_cons_cons id c (word p) (word q) (rest.map word)
    rw [id_eq, if_neg hopens, if_pos hthink] at hstep
    rw [List.map_cons, ih]
    exact hstep.symm
  | case5 c p q rest hopens hthink hlevel ih =>
    have hstep := segments_cons_cons id c (word p) (word q) (rest.map word)
    rw [id_eq, if_neg hopens, if_neg hthink, id_eq, hlevel] at hstep
    rw [List.map_cons, ih]
    exact hstep.symm
  | case6 c p q rest hopens hthink level hlevel ih =>
    have hstep := segments_cons_cons id c (word p) (word q) (rest.map word)
    rw [id_eq, if_neg hopens, if_neg hthink, id_eq, hlevel] at hstep
    rw [List.map_cons, ih]
    exact hstep.symm

/-- The words that were scanned. -/
def scanned {α : Type} (segs : List (Segment α)) : List α :=
  segs.flatMap fun
    | .prose p => [p]
    | .directive think value _ => [think, value]

theorem scanned_segments {α : Type} (word : α → Text) (inComment : Bool) (l : List α) :
    scanned (segments word inComment l) = l := by
  fun_induction segments word inComment l with
  | case1 c => rfl
  | case2 c p => rfl
  | case3 c p q rest _ ih => exact congrArg (p :: ·) ih
  | case4 c p q rest _ _ ih => exact congrArg (p :: ·) ih
  | case5 c p q rest _ _ _ ih => exact congrArg (p :: ·) ih
  | case6 c p q rest _ _ level _ ih => exact congrArg (p :: q :: ·) ih

theorem proseOf_map {α β : Type} (f : α → β) (segs : List (Segment α)) :
    proseOf (segs.map (Segment.map f)) = (proseOf segs).map f := by
  induction segs with
  | nil => rfl
  | cons seg segs ih =>
    cases seg with
    | prose p => exact congrArg (f p :: ·) ih
    | directive think value level => exact ih

theorem directiveLevels_map {α β : Type} (f : α → β) (segs : List (Segment α)) :
    directiveLevels (segs.map (Segment.map f)) = directiveLevels segs := by
  induction segs with
  | nil => rfl
  | cons seg segs ih =>
    cases seg with
    | prose p => exact ih
    | directive think value level => exact congrArg (level :: ·) ih

namespace Thinking

section Gaps

variable {before after g : Text} {tail : Text}

theorem isBlank_closeGap (hbefore : IsBlank before) (hafter : IsBlank after) :
    IsBlank (closeGap before after) := by
  unfold closeGap
  split
  · exact isBlank_append hbefore fun c hc => hafter c ((List.dropWhile_sublist _).subset hc)
  · exact isBlank_append (fun c hc => hbefore c ((List.rdropWhile_prefix _ _).subset hc)) hafter

theorem closeGap_ne_nil (hbefore : before ≠ []) (hafter : after ≠ []) :
    closeGap before after ≠ [] := by
  unfold closeGap
  split
  · exact List.append_ne_nil_of_left_ne_nil hbefore _
  · exact List.append_ne_nil_of_right_ne_nil _ hafter

/-- Taking directives out leaves words behind gaps. -/
theorem separated_stripSegments {segs : List (Segment Piece)} (hsep : Separated (scanned segs))
    (htail : IsBlank tail) :
    Separated (stripSegments segs tail).1 ∧ IsBlank (stripSegments segs tail).2 ∧
      ((∀ p ∈ scanned segs, p.gap ≠ []) → ∀ p ∈ (stripSegments segs tail).1, p.gap ≠ []) := by
  induction segs with
  | nil => exact ⟨separated_nil, htail, fun _ => nofun⟩
  | cons seg segs ih =>
    cases seg with
    | prose p =>
      obtain ⟨hw, hg, hgaps, hrest⟩ := separated_cons.mp (show Separated (p :: scanned segs) from hsep)
      obtain ⟨hkept, hblank, hne⟩ := ih hrest
      refine ⟨separated_cons.mpr ⟨hw, hg, hne hgaps, hkept⟩, hblank, fun hall => ?_⟩
      obtain ⟨hp, hps⟩ := List.forall_mem_cons.mp hall
      exact List.forall_mem_cons.mpr ⟨hp, hne hps⟩
    | directive think value level =>
      obtain ⟨-, hg, hgaps, hvalue⟩ :=
        separated_cons.mp (show Separated (think :: value :: scanned segs) from hsep)
      obtain ⟨-, -, -, hrest⟩ := separated_cons.mp hvalue
      obtain ⟨hkept, hblank, hne⟩ := ih hrest
      have hkeptGaps := hne fun p hp => hgaps p (List.mem_cons_of_mem _ hp)
      show Separated (closePieces think.gap (stripSegments segs tail)).1 ∧
        IsBlank (closePieces think.gap (stripSegments segs tail)).2 ∧ _
      show _ ∧ _ ∧ (_ → ∀ q ∈ (closePieces think.gap (stripSegments segs tail)).1, q.gap ≠ [])
      rcases hstrip : stripSegments segs tail with ⟨_ | ⟨p, ps⟩, rest⟩
      · rw [hstrip] at hblank
        exact ⟨separated_nil, isBlank_closeGap hg hblank, fun _ _ h => absurd h List.not_mem_nil⟩
      · rw [hstrip] at hkept hblank hkeptGaps
        obtain ⟨hw, hpgap, hpsgaps, hps⟩ := separated_cons.mp hkept
        refine ⟨separated_cons.mpr ⟨hw, isBlank_closeGap hg hpgap, hpsgaps, hps⟩, hblank,
          fun hall => ?_⟩
        have hthink : think.gap ≠ [] := hall think List.mem_cons_self
        show ∀ q ∈ (⟨closeGap think.gap p.gap, p.word⟩ : Piece) :: ps, q.gap ≠ []
        exact List.forall_mem_cons.mpr
          ⟨closeGap_ne_nil hthink (hkeptGaps p List.mem_cons_self), hpsgaps⟩

theorem map_word_stripSegments (segs : List (Segment Piece)) (tail : Text) :
    (stripSegments segs tail).1.map Piece.word = (proseOf segs).map Piece.word := by
  induction segs with
  | nil => rfl
  | cons seg segs ih =>
    cases seg with
    | prose p => exact congrArg (p.word :: ·) ih
    | directive think value level =>
      refine Eq.trans ?_ ih
      show (closePieces think.gap (stripSegments segs tail)).1.map Piece.word = _
      rcases stripSegments segs tail with ⟨_ | ⟨p, ps⟩, rest⟩ <;> rfl

end Gaps

/-- Stripping leaves the words that are in no directive. -/
theorem splitWhitespace_strip (content : Text) :
    splitWhitespace (strip content) = proseOf (segments id false (splitWhitespace content)) := by
  obtain ⟨hsep, htail⟩ := separated_pieces content
  have hscanned := scanned_segments Piece.word false (pieces content).1
  rw [← hscanned] at hsep
  obtain ⟨hkept, hblank, -⟩ := separated_stripSegments hsep htail
  rw [strip, splitWhitespace_trim, splitWhitespace_joinPieces hkept hblank,
    map_word_stripSegments, splitWhitespace, ← map_segments, proseOf_map]

theorem directives_strip_eq_nil_iff (content : Text) :
    directives (strip content) = [] ↔
      rejoins false false false (segments id false (splitWhitespace content)) = false := by
  rw [directives, directiveLevels_eq_nil_iff, splitWhitespace_strip,
    hasDirective_proseOf false false false _ (.inr (.inl rfl))]

theorem stripSegments_of_no_directive {segs : List (Segment Piece)} (tail : Text)
    (h : directiveLevels segs = []) : stripSegments segs tail = (scanned segs, tail) := by
  induction segs with
  | nil => rfl
  | cons seg segs ih =>
    cases seg with
    | prose p =>
      show (p :: (stripSegments segs tail).1, (stripSegments segs tail).2) = _
      rw [ih h]
      rfl
    | directive think value level => cases h

/-- A text without directives is trimmed. -/
theorem strip_of_no_directive {content : Text} (h : directives content = []) :
    strip content = trim content := by
  have hnone : directiveLevels (segments Piece.word false (pieces content).1) = [] := by
    rw [← directiveLevels_map Piece.word, map_segments]
    exact h
  rw [strip, stripSegments_of_no_directive _ hnone, scanned_segments, joinPieces_pieces]

theorem trim_strip (content : Text) : trim (strip content) = strip content := trim_trim _

/-- Every word stays only where there is no directive. -/
theorem length_proseOf_lt {segs : List (Segment Text)} (h : directiveLevels segs ≠ []) :
    (proseOf segs).length < (scanned segs).length := by
  have hle : ∀ segs : List (Segment Text), (proseOf segs).length ≤ (scanned segs).length := by
    intro segs
    induction segs with
    | nil => exact Nat.le_refl 0
    | cons seg segs ih =>
      cases seg with
      | prose p => exact Nat.succ_le_succ ih
      | directive think value level => exact Nat.le_succ_of_le (Nat.le_succ_of_le ih)
  induction segs with
  | nil => exact absurd rfl h
  | cons seg segs ih =>
    cases seg with
    | prose p => exact Nat.succ_lt_succ (ih h)
    | directive think value level =>
      have := hle segs
      show (proseOf segs).length < (scanned segs).length + 1 + 1
      omega

theorem strip_strip_iff (content : Text) :
    strip (strip content) = strip content ↔ directives (strip content) = [] := by
  constructor
  · intro h
    by_contra hne
    have hlt := length_proseOf_lt hne
    rw [scanned_segments, ← splitWhitespace_strip, h] at hlt
    omega
  · intro h
    rw [strip_of_no_directive h, trim_strip]

end Thinking

/-! ## Lines -/

namespace Thinking

section Lines

variable {t body after level : Text}

/-- There is nothing behind the first line, or a line feed. -/
def BeginsLine (after : Text) : Prop := after = [] ∨ ∃ rest, after = '\n' :: rest

theorem firstLine_append_afterFirstLine (t : Text) : firstLine t ++ afterFirstLine t = t :=
  List.takeWhile_append_dropWhile

theorem beginsLine_afterFirstLine (t : Text) : BeginsLine (afterFirstLine t) := by
  rcases h : afterFirstLine t with _ | ⟨c, rest⟩
  · exact .inl rfl
  · have hne : afterFirstLine t ≠ [] := by simp [h]
    have hc := List.head_dropWhile_not (fun c => c != '\n') hne
    have hhead : (afterFirstLine t).head hne = c := by simp [h]
    have hfeed : c = '\n' := by
      rw [← hhead]
      simpa [afterFirstLine] using hc
    exact .inr ⟨rest, by rw [hfeed]⟩

theorem newline_not_mem_firstLine (t : Text) : '\n' ∉ firstLine t := by
  intro h
  have := List.mem_takeWhile_imp h
  simp at this

theorem firstLine_append (h : '\n' ∉ t) (hafter : BeginsLine after) :
    firstLine (t ++ after) = t := by
  have hall : ∀ c ∈ t, (c != '\n') = true := by
    intro c hc
    rw [bne_iff_ne]
    rintro rfl
    exact h hc
  rw [firstLine, List.takeWhile_append_of_pos hall]
  rcases hafter with rfl | ⟨rest, rfl⟩ <;> simp

theorem firstLine_of_not_mem (h : '\n' ∉ t) : firstLine t = t := by
  have := firstLine_append h (.inl rfl : BeginsLine [])
  rwa [List.append_nil] at this

/-- The words of a text are those of its first line and those behind it. -/
theorem splitWhitespace_append_line (t : Text) (hafter : BeginsLine after) :
    splitWhitespace (t ++ after) = splitWhitespace t ++ splitWhitespace after := by
  rcases hafter with rfl | ⟨rest, rfl⟩
  · have hnil : splitWhitespace ([] : Text) = [] := rfl
    rw [List.append_nil, hnil, List.append_nil]
  · have hc : isWhitespace '\n' = true := by decide
    rw [splitWhitespace_append hc, splitWhitespace_cons_of_whitespace hc]

theorem trimStart_append_of_words (h : splitWhitespace t ≠ []) (after : Text) :
    trimStart (t ++ after) = trimStart t ++ after := by
  induction t with
  | nil => exact absurd rfl h
  | cons c t ih =>
    cases hc : isWhitespace c with
    | true =>
      rw [splitWhitespace_cons_of_whitespace hc] at h
      rw [List.cons_append, trimStart_cons_of_whitespace hc, trimStart_cons_of_whitespace hc, ih h]
    | false =>
      rw [List.cons_append, trimStart_cons_of_not_whitespace hc,
        trimStart_cons_of_not_whitespace hc]
      rfl

/-- Trimming leaves the words of the first line, when it has any or is the only one. -/
theorem words_firstLine_trim (ht : '\n' ∉ t) (hafter : BeginsLine after)
    (h : splitWhitespace t = [] → after = []) :
    splitWhitespace (firstLine (trim (t ++ after))) = splitWhitespace t := by
  have hline : '\n' ∉ trimStart t := fun hmem => ht ((List.dropWhile_sublist _).subset hmem)
  by_cases hwords : splitWhitespace t = []
  · rw [h hwords, List.append_nil, firstLine_of_not_mem fun hmem => ht (mem_of_mem_trim hmem),
      splitWhitespace_trim]
  · rw [trim, trimStart_append_of_words hwords]
    by_cases hblank : trimEnd after = []
    · have hws : ∀ c ∈ after, isWhitespace c = true :=
        List.all_eq_true.mp (trimEnd_eq_nil_iff.mp hblank)
      rw [trimEnd_append_of_whitespace _ hws,
        firstLine_of_not_mem fun hmem => hline (mem_of_mem_trimEnd hmem),
        splitWhitespace_trimEnd, splitWhitespace_trimStart]
    · have hbegins : BeginsLine (trimEnd after) := by
        rcases hafter with rfl | ⟨rest, rfl⟩
        · exact .inl trimEnd_nil
        · obtain ⟨suffix, hsuffix⟩ := isPrefix_trimEnd ('\n' :: rest)
          rcases hcut : trimEnd ('\n' :: rest) with _ | ⟨c, cut⟩
          · exact absurd hcut hblank
          · rw [hcut] at hsuffix
            cases (List.cons.inj hsuffix).1
            exact .inr ⟨cut, rfl⟩
      rw [trimEnd_append _ hblank, firstLine_append hline hbegins, splitWhitespace_trimStart]

/-- A trimmed text whose first line has no word is empty. -/
theorem eq_nil_of_firstLine (htrim : trim body = body)
    (h : splitWhitespace (firstLine body) = []) : body = [] := by
  cases body with
  | nil => rfl
  | cons c rest =>
    cases hc : isWhitespace c with
    | true =>
      have hlength : (trim (c :: rest)).length ≤ rest.length := by
        rw [trim, trimStart_cons_of_whitespace hc]
        exact ((isPrefix_trimEnd _).length_le).trans (List.dropWhile_sublist _).length_le
      rw [htrim, List.length_cons] at hlength
      omega
    | false =>
      have hne : (c != '\n') = true := by
        rw [bne_iff_ne]
        rintro rfl
        exact absurd hc (by decide)
      rw [firstLine, List.takeWhile_cons_of_pos (p := fun c => c != '\n') hne] at h
      exact absurd h (splitWhitespace_cons_ne_nil hc _)

end Lines

/-! ## A directive behind the first line -/

section Insert

variable {body level : Text}

theorem isWord_thinkWord : IsWord thinkWord := isWord_of_all rfl (by decide)

/-- The first line with a directive. -/
def directedLine (body level : Text) : Text := firstLine body ++ ' ' :: (thinkWord ++ ' ' :: level)

theorem insertDirective_eq (body level : Text) :
    insertDirective body level = directedLine body level ++ afterFirstLine body := rfl

theorem pieces_directedLine (hlevel : IsWord level) :
    pieces (directedLine body level) =
      ((pieces (firstLine body)).1 ++
        [⟨(pieces (firstLine body)).2 ++ [' '], thinkWord⟩, ⟨[' '], level⟩], []) := by
  have hspace : isWhitespace ' ' = true := by decide
  have hsplit : directedLine body level = (firstLine body ++ ' ' :: thinkWord) ++ ' ' :: level := by
    simp [directedLine]
  rw [hsplit, pieces_append_word hspace _ hlevel, pieces_append_word hspace _ isWord_thinkWord]
  simp

variable (body) in
theorem splitWhitespace_directedLine (hlevel : IsWord level) :
    splitWhitespace (directedLine body level) =
      splitWhitespace (firstLine body) ++ [thinkWord, level] := by
  rw [splitWhitespace, pieces_directedLine hlevel, List.map_append]
  rfl

theorem splitWhitespace_body (body : Text) :
    splitWhitespace body =
      splitWhitespace (firstLine body) ++ splitWhitespace (afterFirstLine body) := by
  rw [← splitWhitespace_append_line _ (beginsLine_afterFirstLine body),
    firstLine_append_afterFirstLine]

theorem splitWhitespace_insertDirective (hlevel : IsWord level) :
    splitWhitespace (insertDirective body level) =
      splitWhitespace (firstLine body) ++
        thinkWord :: level :: splitWhitespace (afterFirstLine body) := by
  rw [insertDirective_eq, splitWhitespace_append_line _ (beginsLine_afterFirstLine body),
    splitWhitespace_directedLine body hlevel, List.append_assoc]
  rfl

/-- The pieces of the first line, and those behind it. -/
theorem exists_pieces_append {t after : Text} (ht : (pieces t).2 = []) (hafter : BeginsLine after) :
    ∃ rest : List Piece × Text, pieces (t ++ after) = ((pieces t).1 ++ rest.1, rest.2) ∧
      joinPieces rest.1 rest.2 = after ∧ rest.1.map Piece.word = splitWhitespace after := by
  rcases hafter with rfl | ⟨tail, rfl⟩
  · refine ⟨([], []), ?_, rfl, rfl⟩
    rw [List.append_nil, List.append_nil, ← ht]
  · have hc : isWhitespace '\n' = true := by decide
    refine ⟨prependGap ['\n'] (pieces tail), ?_, ?_, ?_⟩
    · rw [pieces_append hc, ht, List.nil_append]
    · rw [joinPieces_prependGap, joinPieces_pieces]
      rfl
    · rw [map_word_prependGap, splitWhitespace_cons_of_whitespace hc]
      rfl

/-- A scan is known by its words and the pieces they are of. -/
theorem eq_of_map {α β : Type} (f : α → β) {segs segs' : List (Segment α)}
    (hmap : segs.map (Segment.map f) = segs'.map (Segment.map f))
    (hscanned : scanned segs = scanned segs') : segs = segs' := by
  induction segs generalizing segs' with
  | nil =>
    cases segs' with
    | nil => rfl
    | cons seg' segs' => cases hmap
  | cons seg segs ih =>
    cases segs' with
    | nil => cases hmap
    | cons seg' segs' =>
      obtain ⟨hhead, hrest⟩ := List.cons.inj hmap
      cases seg with
      | prose p =>
        cases seg' with
        | prose p' =>
          obtain ⟨rfl, hs⟩ := List.cons.inj (show p :: scanned segs = p' :: scanned segs' from hscanned)
          rw [ih hrest hs]
        | directive _ _ _ => cases hhead
      | directive think value level =>
        cases seg' with
        | prose _ => cases hhead
        | directive think' value' level' =>
          obtain ⟨rfl, hvalues⟩ := List.cons.inj
            (show think :: value :: scanned segs = think' :: value' :: scanned segs' from hscanned)
          obtain ⟨rfl, hs⟩ := List.cons.inj hvalues
          injection hhead with _ _ hlevel
          rw [hlevel, ih hrest hs]

theorem stripSegments_append_prose (ps : List Piece) (segs : List (Segment Piece)) (tail : Text) :
    stripSegments (ps.map Segment.prose ++ segs) tail =
      (ps ++ (stripSegments segs tail).1, (stripSegments segs tail).2) := by
  induction ps with
  | nil => rfl
  | cons p ps ih =>
    show (p :: (stripSegments (ps.map Segment.prose ++ segs) tail).1,
      (stripSegments (ps.map Segment.prose ++ segs) tail).2) = _
    rw [ih]
    rfl

theorem joinPieces_closePieces (gap : Text) (rest : List Piece × Text)
    (h : (joinPieces rest.1 rest.2).head?.any isHorizontal = false) :
    joinPieces (closePieces gap rest).1 (closePieces gap rest).2 =
      gap.rdropWhile isHorizontal ++ joinPieces rest.1 rest.2 := by
  rcases rest with ⟨_ | ⟨p, ps⟩, tail⟩
  · have htail : tail.head?.any isHorizontal = false := h
    simp [closePieces, closeGap, htail, joinPieces]
  · have hgap : p.gap.head?.any isHorizontal = false := by
      rcases hp : p.gap with _ | ⟨c, g⟩
      · rfl
      · simpa [joinPieces, hp] using h
    simp [closePieces, closeGap, hgap, joinPieces]

/-- The directive behind the first line goes, with blanks before it. -/
theorem words_firstLine_strip_insertDirective (htrim : trim body = body)
    (hnone : hasDirective false false (splitWhitespace body) = false)
    (hclosed : commentAfterAll false (splitWhitespace (firstLine body)) = false)
    (hlevel : thinkingLevel? level = some (some level)) (hword : IsWord level) :
    splitWhitespace (firstLine (strip (insertDirective body level))) =
      splitWhitespace (firstLine body) := by
  have hafter := beginsLine_afterFirstLine body
  obtain ⟨hsep, hblank⟩ := separated_pieces (firstLine body)
  obtain ⟨rest, hpieces, hjoin, hwords⟩ := exists_pieces_append
    (t := directedLine body level) (by rw [pieces_directedLine hword]) hafter
  rw [pieces_directedLine hword] at hpieces
  let gap := (pieces (firstLine body)).2 ++ [' ']
  rw [splitWhitespace_body] at hnone
  have hsegs : segments Piece.word false (pieces (insertDirective body level)).1 =
      (pieces (firstLine body)).1.map Segment.prose ++
        .directive ⟨gap, thinkWord⟩ ⟨[' '], level⟩ (some level) :: rest.1.map Segment.prose := by
    refine eq_of_map Piece.word ?_ ?_
    · have hinsert := segments_insert false hlevel hnone hclosed
      have hmapped : ∀ ps : List Piece, (ps.map Segment.prose).map (Segment.map Piece.word) =
          (ps.map Piece.word).map Segment.prose := by
        intro ps
        rw [List.map_map, List.map_map]
        rfl
      rw [map_segments, ← splitWhitespace, splitWhitespace_insertDirective hword, hinsert,
        List.map_append, List.map_cons, hmapped, hmapped, hwords]
      rfl
    · have hscanned : ∀ ps : List Piece, scanned (ps.map Segment.prose) = ps := by
        intro ps
        simp [scanned, List.flatMap_map]
      have happend : ∀ segs segs' : List (Segment Piece),
          scanned (segs ++ segs') = scanned segs ++ scanned segs' :=
        fun _ _ => List.flatMap_append
      rw [scanned_segments, insertDirective_eq, hpieces, happend, hscanned]
      show _ = (pieces (firstLine body)).1 ++
        (⟨gap, thinkWord⟩ :: ⟨[' '], level⟩ :: scanned (rest.1.map Segment.prose))
      rw [hscanned, List.append_assoc]
      rfl
  have hlast : stripSegments (rest.1.map Segment.prose) rest.2 = rest := by
    have h := stripSegments_append_prose rest.1 [] rest.2
    rw [List.append_nil] at h
    rw [h]
    simp [stripSegments]
  let line := joinPieces (pieces (firstLine body)).1 (gap.rdropWhile isHorizontal)
  have hstrip : strip (insertDirective body level) = trim (line ++ afterFirstLine body) := by
    have htail : (pieces (insertDirective body level)).2 = rest.2 := by
      rw [insertDirective_eq, hpieces]
    have hhead : (joinPieces rest.1 rest.2).head?.any isHorizontal = false := by
      rw [hjoin]
      rcases hafter with hnil | ⟨tail, hcons⟩
      · rw [hnil]
        rfl
      · rw [hcons]
        rfl
    have hclose := joinPieces_closePieces gap rest hhead
    have hdirective : stripSegments (.directive ⟨gap, thinkWord⟩ ⟨[' '], level⟩ (some level) ::
        rest.1.map Segment.prose) rest.2 = closePieces gap rest := by
      show closePieces gap (stripSegments (rest.1.map Segment.prose) rest.2) = _
      rw [hlast]
    unfold strip
    dsimp only
    rw [hsegs, htail, stripSegments_append_prose, hdirective]
    show trim (joinPieces ((pieces (firstLine body)).1 ++ (closePieces gap rest).1)
      (closePieces gap rest).2) = _
    congr 1
    calc joinPieces ((pieces (firstLine body)).1 ++ (closePieces gap rest).1)
          (closePieces gap rest).2
        = joinPieces (pieces (firstLine body)).1 [] ++
            joinPieces (closePieces gap rest).1 (closePieces gap rest).2 := by simp [joinPieces]
      _ = line ++ afterFirstLine body := by
          rw [hclose, hjoin]
          simp [line, joinPieces]
  have hgap : IsBlank (gap.rdropWhile isHorizontal) := by
    intro c hc
    rcases List.mem_append.mp ((List.rdropWhile_prefix _ _).subset hc) with hc | hc
    · exact hblank c hc
    · rw [List.mem_singleton.mp hc]
      decide
  have hline : splitWhitespace line = splitWhitespace (firstLine body) :=
    splitWhitespace_joinPieces hsep hgap
  have hnewline : '\n' ∉ line := by
    intro hmem
    have hfirst : '\n' ∉ joinPieces (pieces (firstLine body)).1 (pieces (firstLine body)).2 := by
      rw [joinPieces_pieces]
      exact newline_not_mem_firstLine body
    simp only [joinPieces, List.mem_append, not_or] at hfirst
    rcases List.mem_append.mp hmem with hmem | hmem
    · exact hfirst.1 hmem
    · rcases List.mem_append.mp ((List.rdropWhile_prefix _ _).subset hmem) with hmem | hmem
      · exact hfirst.2 hmem
      · cases List.mem_singleton.mp hmem
  rw [hstrip, words_firstLine_trim hnewline hafter, hline]
  intro hnil
  rw [hline] at hnil
  rw [eq_nil_of_firstLine htrim hnil]
  rfl

end Insert

end Thinking

/-! ## Cycling through the levels -/

namespace Thinking

/-- A comment is open at the end of the first line. -/
def firstLineOpen (t : Text) : Bool := commentAfterAll false (splitWhitespace (firstLine t))

/-- What is read after so many turns from the default. -/
def levelAt (turn : Nat) : Option Text :=
  let level := thinkingLevels.getD (turn % thinkingLevels.length) []
  if level.isEmpty then none else some level

theorem levelAt_add_length (turn : Nat) :
    levelAt (turn + thinkingLevels.length) = levelAt turn := by
  rw [levelAt, Nat.add_mod_right, levelAt]

theorem nextLevel_levelAt (turn : Nat) :
    nextLevel (levelAt turn) = thinkingLevels.getD ((turn + 1) % thinkingLevels.length) [] := by
  have hsmall : ∀ k < 7, nextLevel (levelAt k) = thinkingLevels.getD ((k + 1) % 7) [] := by
    decide
  have hlt : turn % 7 < 7 := Nat.mod_lt _ (by omega)
  have hreduce : levelAt turn = levelAt (turn % 7) := by
    show levelAt turn = levelAt (turn % 7)
    unfold levelAt
    show (let level := thinkingLevels.getD (turn % 7) []; if level.isEmpty then none else some level) =
      (let level := thinkingLevels.getD (turn % 7 % 7) []; if level.isEmpty then none else some level)
    rw [Nat.mod_mod]
  rw [hreduce, hsmall _ hlt]
  show _ = thinkingLevels.getD ((turn + 1) % 7) []
  congr 1
  omega

/-- Each level other than the default is named by its word. -/
theorem level_spec {level : Text} (h : level ∈ thinkingLevels) (hne : level.isEmpty = false) :
    thinkingLevel? level = some (some level) ∧ IsWord level ∧
      "-->".toList.isSuffixOf level = false := by
  have hall : ∀ l ∈ thinkingLevels, l.isEmpty = false → thinkingLevel? l = some (some l) ∧
      (l.all fun c => !isWhitespace c) = true ∧ "-->".toList.isSuffixOf l = false := by
    decide
  obtain ⟨hread, hword, hsuffix⟩ := hall level h hne
  exact ⟨hread, isWord_of_all hne hword, hsuffix⟩

theorem nextLevel_mem (current : Option Text) : nextLevel current ∈ thinkingLevels := by
  unfold nextLevel
  dsimp only
  rw [List.getD_eq_getElem _ _ (Nat.mod_lt _ (by decide))]
  exact List.getElem_mem _

theorem exists_levelAt_of_names {value : Text} {level : Option Text}
    (h : thinkingLevel? value = some level) : ∃ turn, levelAt turn = level := by
  unfold thinkingLevel? at h
  split at h
  · cases h
    exact ⟨0, by decide⟩
  · obtain ⟨found, hfound, rfl⟩ := Option.map_eq_some_iff.mp h
    have hmem := List.mem_of_find?_eq_some hfound
    have hall : ∀ l ∈ thinkingLevels.tail, ∃ k < 7, levelAt k = some l := by decide
    obtain ⟨turn, -, hturn⟩ := hall found hmem
    exact ⟨turn, hturn⟩

theorem mem_directiveLevels {inComment : Bool} {words : List Text} {level : Option Text}
    (h : level ∈ directiveLevels (segments id inComment words)) :
    ∃ value, thinkingLevel? value = some level := by
  induction inComment, words using scan_induction with
  | hnil c =>
    rw [segments] at h
    cases h
  | hprose c p rest hsegs _ ih =>
    rw [hsegs] at h
    exact ih h
  | hdirective p q found rest _ hq hsegs ih =>
    rw [hsegs] at h
    rcases List.mem_cons.mp (show level ∈ found :: directiveLevels _ from h) with rfl | h
    · exact ⟨q, hq⟩
    · exact ih h

theorem exists_levelAt_read (content : Text) : ∃ turn, levelAt turn = read content := by
  unfold read
  cases h : (directives content).getLast? with
  | none => exact ⟨0, by decide⟩
  | some level =>
    obtain ⟨value, hvalue⟩ := mem_directiveLevels (List.mem_of_getLast? h)
    exact exists_levelAt_of_names hvalue

theorem read_of_no_directive {content : Text} (h : directives content = []) :
    read content = none := by
  rw [read, h]
  rfl

/-- Stripping leaves no directive, and the first line leaves no comment open. -/
structure Steady (content : Text) : Prop where
  stripped : directives (strip content) = []
  closed : firstLineOpen (strip content) = false

/-- A turn of a steady content reads the next level and leaves it steady. -/
theorem Steady.cycle {content : Text} {turn : Nat} (h : Steady content)
    (hread : read content = levelAt turn) :
    Steady (cycle content).1 ∧ (Thinking.cycle content).2 = levelAt (turn + 1) ∧
      read (Thinking.cycle content).1 = levelAt (turn + 1) := by
  have hnext : nextLevel (read content) = thinkingLevels.getD ((turn + 1) % thinkingLevels.length) [] := by
    rw [hread, nextLevel_levelAt]
  have hlevelAt : levelAt (turn + 1) =
      if (nextLevel (read content)).isEmpty then none else some (nextLevel (read content)) := by
    rw [hnext, levelAt]
  have htrim := trim_strip content
  have hnone := (directiveLevels_eq_nil_iff false _).mp h.stripped
  cases hempty : (nextLevel (read content)).isEmpty with
  | true =>
    have hcycle : Thinking.cycle content = (strip content, none) := by simp [Thinking.cycle, hempty]
    rw [hcycle, hlevelAt, hempty, if_pos rfl]
    refine ⟨⟨?_, ?_⟩, rfl, read_of_no_directive h.stripped⟩
    · rw [strip_of_no_directive h.stripped, htrim]
      exact h.stripped
    · rw [strip_of_no_directive h.stripped, htrim]
      exact h.closed
  | false =>
    obtain ⟨hlevel, hword, -⟩ := level_spec (nextLevel_mem (read content)) hempty
    have hcycle : Thinking.cycle content =
        (insertDirective (strip content) (nextLevel (read content)),
          some (nextLevel (read content))) := by
      simp [Thinking.cycle, hempty]
    have hbody := hnone
    rw [splitWhitespace_body] at hbody
    have hsegs := segments_insert false hlevel hbody h.closed
    have hlevels : ∀ words : List Text, directiveLevels (words.map Segment.prose) = [] := by
      intro words
      simp [directiveLevels, List.filterMap_map]
    have happend : ∀ segs segs' : List (Segment Text),
        directiveLevels (segs ++ segs') = directiveLevels segs ++ directiveLevels segs' :=
      fun _ _ => List.filterMap_append
    have hdirectives : directives (insertDirective (strip content) (nextLevel (read content))) =
        [some (nextLevel (read content))] := by
      rw [directives, splitWhitespace_insertDirective hword, hsegs, happend, hlevels, List.nil_append]
      show some _ :: directiveLevels ((splitWhitespace _).map Segment.prose) = _
      rw [hlevels]
    rw [hcycle, hlevelAt, hempty, if_neg Bool.false_ne_true]
    refine ⟨⟨?_, ?_⟩, rfl, ?_⟩
    · have hprose : ∀ words : List Text, proseOf (words.map Segment.prose) = words := by
        intro words
        simp [proseOf, List.filterMap_map]
      have hkept : splitWhitespace (strip (insertDirective (strip content)
          (nextLevel (read content)))) = splitWhitespace (strip content) := by
        have hsplit : ∀ segs segs' : List (Segment Text),
            proseOf (segs ++ segs') = proseOf segs ++ proseOf segs' :=
          fun _ _ => List.filterMap_append
        have hskip : ∀ (think value : Text) (level : Option Text) (segs : List (Segment Text)),
            proseOf (.directive think value level :: segs) = proseOf segs :=
          fun _ _ _ _ => rfl
        rw [splitWhitespace_strip, splitWhitespace_insertDirective hword, hsegs, hsplit, hprose,
          hskip, hprose, splitWhitespace_body (strip content)]
      rw [directives, hkept]
      exact h.stripped
    · rw [firstLineOpen, words_firstLine_strip_insertDirective htrim hnone h.closed hlevel hword]
      exact h.closed
    · rw [read, hdirectives]
      rfl

/-- The turns of a steady content go through the levels. -/
theorem Steady.iterate {content : Text} {turn : Nat} (h : Steady content)
    (hread : read content = levelAt turn) (n : Nat) :
    read ((fun t => (Thinking.cycle t).1)^[n] content) = levelAt (turn + n) := by
  induction n generalizing content turn with
  | zero => exact hread
  | succ n ih =>
    obtain ⟨hsteady, -, hnext⟩ := h.cycle hread
    have hturn : turn + 1 + n = turn + (n + 1) := by omega
    rw [Function.iterate_succ_apply, ih hsteady hnext, hturn]

/-! ### A comment in the way -/

/-- The content has no directive, and its first line leaves a comment open. -/
structure Stuck (content : Text) : Prop where
  none : directives content = []
  opened : firstLineOpen (trim content) = true

theorem Stuck.insertDirective {body level : Text} (h : Stuck body) (htrim : trim body = body)
    (hmem : level ∈ thinkingLevels) (hne : level.isEmpty = false) :
    Stuck (insertDirective body level) := by
  obtain ⟨-, hword, hsuffix⟩ := level_spec hmem hne
  have hopen : commentAfterAll false (splitWhitespace (firstLine body)) = true := by
    have := h.opened
    rwa [htrim] at this
  have hnone := (directiveLevels_eq_nil_iff false _).mp h.none
  rw [splitWhitespace_body] at hnone
  constructor
  · rw [directives, directiveLevels_eq_nil_iff, splitWhitespace_insertDirective hword]
    exact hasDirective_insert false hsuffix hnone hopen
  · have hline : '\n' ∉ directedLine body level := by
      have hlevels : ∀ l ∈ thinkingLevels, '\n' ∉ l := by decide
      have hthink : '\n' ∉ thinkWord := by decide
      have hfirst := newline_not_mem_firstLine body
      have hlevel := hlevels level hmem
      simp [directedLine, hfirst, hthink, hlevel]
    have hwords := splitWhitespace_directedLine body hword
    have hstate : commentAfterAll false (splitWhitespace (directedLine body level)) = true := by
      rw [hwords, commentAfterAll, List.foldl_append]
      show commentAfter (commentAfter (commentAfterAll false _) thinkWord) level = true
      rw [hopen, commentAfter_of_open (by decide), commentAfter_of_open hsuffix]
    rw [insertDirective_eq, firstLineOpen,
      words_firstLine_trim hline (beginsLine_afterFirstLine body), hstate]
    intro hnil
    rw [hwords] at hnil
    simp at hnil

/-- Nothing is read while the directives are put into a comment. -/
theorem Stuck.cycle {content : Text} (h : Stuck content) : Stuck (Thinking.cycle content).1 := by
  have hstrip := strip_of_no_directive h.none
  have hbody : Stuck (trim content) := by
    refine ⟨?_, by rw [trim_trim]; exact h.opened⟩
    rw [directives, splitWhitespace_trim]
    exact h.none
  have hnext : nextLevel (read content) = "low".toList := by
    rw [read_of_no_directive h.none]
    decide
  have hcycle : (Thinking.cycle content).1 = Thinking.insertDirective (trim content) "low".toList := by
    unfold Thinking.cycle
    dsimp only
    rw [hnext, hstrip, if_neg (by decide)]
  rw [hcycle]
  exact hbody.insertDirective (trim_trim content) (by decide) (by decide)

theorem Stuck.iterate {content : Text} (h : Stuck content) (n : Nat) :
    Stuck ((fun t => (Thinking.cycle t).1)^[n] content) := by
  induction n generalizing content with
  | zero => exact h
  | succ n ih => exact ih h.cycle

/-- A turn of a content whose first line leaves a comment open. -/
theorem stuck_cycle {content : Text} (hstripped : directives (strip content) = [])
    (hopen : firstLineOpen (strip content) = true) : Stuck (Thinking.cycle content).1 := by
  have htrim := trim_strip content
  have hbody : Stuck (strip content) := ⟨hstripped, by rw [htrim]; exact hopen⟩
  unfold Thinking.cycle
  dsimp only
  split
  · exact hbody
  · rename_i hne
    exact hbody.insertDirective htrim (nextLevel_mem _) (by simpa using hne)

/-! ### The directive as it is meant -/

/-- Stripping takes every directive out, and cycling goes through the levels. -/
structure Cycles (content : Text) : Prop where
  stripped : read (strip content) = none
  again : strip (strip content) = strip content
  announced : read (Thinking.cycle content).1 = (Thinking.cycle content).2
  round : read ((fun t => (Thinking.cycle t).1)^[thinkingLevels.length] content) = read content

/-- That is so exactly when no directive keeps a `/think` and the name of a level apart and the
first line leaves no comment open. -/
theorem thinking_cycles (content : Text) :
    Cycles content ↔
      rejoins false false false (segments id false (splitWhitespace content)) = false ∧
        firstLineOpen (strip content) = false := by
  rw [← directives_strip_eq_nil_iff]
  constructor
  · intro h
    have hstripped := (strip_strip_iff content).mp h.again
    refine ⟨hstripped, ?_⟩
    by_contra hopen
    rw [Bool.not_eq_false] at hopen
    have hstuck := stuck_cycle hstripped hopen
    -- Nothing is read from the first turn on, so the default was announced and was read before.
    have hannounced : (Thinking.cycle content).2 = none := by
      rw [← h.announced, read_of_no_directive hstuck.none]
    have hread : read content = none := by
      have hround := h.round
      rw [show thinkingLevels.length = 6 + 1 from rfl, Function.iterate_succ_apply] at hround
      rw [← hround, read_of_no_directive (hstuck.iterate 6).none]
    have hnext : nextLevel (read content) = "low".toList := by
      rw [hread]
      decide
    unfold Thinking.cycle at hannounced
    dsimp only at hannounced
    rw [hnext, if_neg (by decide)] at hannounced
    cases hannounced
  · rintro ⟨hstripped, hclosed⟩
    have hsteady : Steady content := ⟨hstripped, hclosed⟩
    obtain ⟨turn, hturn⟩ := exists_levelAt_read content
    obtain ⟨-, hannounced, hnext⟩ := hsteady.cycle hturn.symm
    exact
      { stripped := read_of_no_directive hstripped
        again := (strip_strip_iff content).mpr hstripped
        announced := hnext.trans hannounced.symm
        round := by rw [hsteady.iterate hturn.symm, levelAt_add_length, hturn] }

/-- Two words that a directive kept apart are the next directive. -/
theorem directive_left_by_strip : ∃ content, read (strip content) ≠ none :=
  ⟨"/think /think low high".toList, by decide⟩

end Thinking

end Clt
