import Clt.Text.Basic

/-!
# The lines of a trimmed text

Trimming a text drops its blank lines at the start and at the end, and trims the line that
is then the first (`lines_trimStart`) or the last (`lines_trimEnd`).
-/

namespace Text

def isBlankLine (l : Text) : Bool := l.all isWhitespace

theorem isBlankLine_cons (c : Char) (l : Text) :
    isBlankLine (c :: l) = (isWhitespace c && isBlankLine l) := rfl

theorem trimEnd_eq_nil_iff {t : Text} : trimEnd t = [] ↔ isBlankLine t = true := by
  rw [trimEnd, List.rdropWhile_eq_nil_iff, isBlankLine, List.all_eq_true]

/-- Behind a character that is not blank, or before a text that is not, nothing changes. -/
theorem trimEnd_cons {c : Char} {t : Text} (h : isBlankLine (c :: t) = false) :
    trimEnd (c :: t) = c :: trimEnd t := by
  by_cases ht : trimEnd t = []
  · have hblank : isBlankLine t = true := trimEnd_eq_nil_iff.mp ht
    have hc : isWhitespace c = false := by
      rw [isBlankLine_cons, hblank, Bool.and_true] at h
      exact h
    have hw : ∀ d ∈ t, isWhitespace d = true := List.all_eq_true.mp hblank
    rw [ht, show c :: t = [c] ++ t from rfl, trimEnd_append_of_whitespace [c] hw]
    exact trimEnd_concat [] hc
  · exact trimEnd_append [c] ht

theorem trimStart_cons_of_whitespace {c : Char} (h : isWhitespace c = true) (t : Text) :
    trimStart (c :: t) = trimStart t := List.dropWhile_cons_of_pos h

theorem trimStart_cons_of_not_whitespace {c : Char} (h : isWhitespace c = false) (t : Text) :
    trimStart (c :: t) = c :: t := List.dropWhile_cons_of_neg (by simp [h])

/-- `consHead` on the lines before and after a line. -/
theorem consHead_append (c : Char) (B : List Text) (x : Text) (L : List Text) :
    (B = [] ∧ consHead c (B ++ x :: L) = (c :: x) :: L) ∨
      ∃ b bs, B = b :: bs ∧ consHead c (B ++ x :: L) = (c :: b) :: bs ++ x :: L := by
  cases B with
  | nil => exact .inl ⟨rfl, rfl⟩
  | cons b bs => exact .inr ⟨b, bs, rfl, rfl⟩

theorem isBlankLine_of_mem_consHead {c : Char} (hc : isWhitespace c = true) {ls : List Text}
    (h : ∀ l ∈ ls, isBlankLine l = true) : ∀ l ∈ consHead c ls, isBlankLine l = true := by
  cases ls with
  | nil => simp [consHead, isBlankLine, hc]
  | cons l ls =>
    intro l' hl'
    rcases List.mem_cons.mp hl' with rfl | hmem
    · rw [isBlankLine_cons, hc, h l List.mem_cons_self]
      rfl
    · exact h l' (List.mem_cons_of_mem l hmem)

/-- The first line of a text trimmed at the start is the first that is not blank, trimmed. -/
theorem lines_trimStart (t : Text) :
    (∀ l ∈ lines t, isBlankLine l = true) ∧ trimStart t = [] ∨
      ∃ B x L, lines t = B ++ x :: L ∧ (∀ l ∈ B, isBlankLine l = true) ∧ isBlankLine x = false ∧
        lines (trimStart t) = trimStart x :: L := by
  induction t using lines.induct with
  | case1 => exact .inl ⟨(by rintro _ ⟨⟩), rfl⟩
  | case2 rest ih =>
    rw [lines_newline, trimStart_cons_of_whitespace (by decide)]
    rcases ih with ⟨hblank, htrim⟩ | ⟨B, x, L, hlines, hB, hx, htrim⟩
    · refine .inl ⟨?_, htrim⟩
      rintro l (_ | ⟨_, hl⟩)
      · rfl
      · exact hblank l hl
    · refine .inr ⟨[] :: B, x, L, by rw [hlines]; rfl, ?_, hx, htrim⟩
      rintro l (_ | ⟨_, hl⟩)
      · rfl
      · exact hB l hl
  | case3 rest ih =>
    have hlines' : lines ('\r' :: '\n' :: rest) = [] :: lines rest := rfl
    rw [hlines', trimStart_cons_of_whitespace (by decide), trimStart_cons_of_whitespace (by decide)]
    rcases ih with ⟨hblank, htrim⟩ | ⟨B, x, L, hlines, hB, hx, htrim⟩
    · refine .inl ⟨?_, htrim⟩
      rintro l (_ | ⟨_, hl⟩)
      · rfl
      · exact hblank l hl
    · refine .inr ⟨[] :: B, x, L, by rw [hlines]; rfl, ?_, hx, htrim⟩
      rintro l (_ | ⟨_, hl⟩)
      · rfl
      · exact hB l hl
  | case4 c rest hc hcr ih =>
    have hcons : lines (c :: rest) = consHead c (lines rest) := by
      refine lines_cons hc fun h hrest => ?_
      obtain ⟨tail, htail⟩ := List.head?_eq_some_iff.mp hrest
      exact hcr tail h htail
    cases hw : isWhitespace c with
    | true =>
      rw [hcons, trimStart_cons_of_whitespace hw]
      rcases ih with ⟨hblank, htrim⟩ | ⟨B, x, L, hlines, hB, hx, htrim⟩
      · exact .inl ⟨isBlankLine_of_mem_consHead hw hblank, htrim⟩
      · rcases consHead_append c B x L with ⟨rfl, hhead⟩ | ⟨b, bs, rfl, hhead⟩
        · refine .inr ⟨[], c :: x, L, by rw [hlines, hhead]; rfl, (by rintro _ ⟨⟩), ?_, ?_⟩
          · rw [isBlankLine_cons, hx, Bool.and_false]
          · rw [htrim, trimStart_cons_of_whitespace hw]
        · refine .inr ⟨(c :: b) :: bs, x, L, by rw [hlines, hhead], ?_, hx, htrim⟩
          rintro l (_ | ⟨_, hl⟩)
          · rw [isBlankLine_cons, hw, hB b List.mem_cons_self]
            rfl
          · exact hB l (List.mem_cons_of_mem b hl)
    | false =>
      obtain ⟨l, L, hl⟩ : ∃ l L, consHead c (lines rest) = (c :: l) :: L := by
        cases lines rest with
        | nil => exact ⟨[], [], rfl⟩
        | cons l L => exact ⟨l, L, rfl⟩
      refine .inr ⟨[], c :: l, L, by rw [hcons, hl]; rfl, (by rintro _ ⟨⟩), ?_, ?_⟩
      · rw [isBlankLine_cons, hw]
        rfl
      · rw [trimStart_cons_of_not_whitespace hw, trimStart_cons_of_not_whitespace hw, hcons, hl]

/-- The last line of a text trimmed at the end is the last that is not blank, trimmed. -/
theorem lines_trimEnd (t : Text) :
    (∀ l ∈ lines t, isBlankLine l = true) ∧ trimEnd t = [] ∨
      ∃ L y B, lines t = L ++ y :: B ∧ (∀ l ∈ B, isBlankLine l = true) ∧ isBlankLine y = false ∧
        lines (trimEnd t) = L ++ [trimEnd y] := by
  induction t using lines.induct with
  | case1 => exact .inl ⟨(by rintro _ ⟨⟩), rfl⟩
  | case2 rest ih =>
    rw [lines_newline]
    rcases ih with ⟨hblank, htrim⟩ | ⟨L, y, B, hlines, hB, hy, htrim⟩
    · refine .inl ⟨?_, ?_⟩
      · rintro l (_ | ⟨_, hl⟩)
        · rfl
        · exact hblank l hl
      · rw [trimEnd_eq_nil_iff, isBlankLine_cons, trimEnd_eq_nil_iff.mp htrim]
        rfl
    · have hne : trimEnd rest ≠ [] := by
        intro h
        rw [h] at htrim
        exact absurd htrim (by simp [lines])
      refine .inr ⟨[] :: L, y, B, by rw [hlines]; rfl, hB, hy, ?_⟩
      rw [show '\n' :: rest = ['\n'] ++ rest from rfl, trimEnd_append _ hne]
      show [] :: lines (trimEnd rest) = _
      rw [htrim]
      rfl
  | case3 rest ih =>
    have hlines' : lines ('\r' :: '\n' :: rest) = [] :: lines rest := rfl
    rw [hlines']
    rcases ih with ⟨hblank, htrim⟩ | ⟨L, y, B, hlines, hB, hy, htrim⟩
    · refine .inl ⟨?_, ?_⟩
      · rintro l (_ | ⟨_, hl⟩)
        · rfl
        · exact hblank l hl
      · rw [trimEnd_eq_nil_iff, isBlankLine_cons, isBlankLine_cons, trimEnd_eq_nil_iff.mp htrim]
        rfl
    · have hne : trimEnd rest ≠ [] := by
        intro h
        rw [h] at htrim
        exact absurd htrim (by simp [lines])
      refine .inr ⟨[] :: L, y, B, by rw [hlines]; rfl, hB, hy, ?_⟩
      rw [show '\r' :: '\n' :: rest = ['\r', '\n'] ++ rest from rfl, trimEnd_append _ hne]
      show [] :: lines (trimEnd rest) = _
      rw [htrim]
      rfl
  | case4 c rest hc hcr ih =>
    have hhead : c = '\r' → rest.head? ≠ some '\n' := by
      intro h hrest
      obtain ⟨tail, htail⟩ := List.head?_eq_some_iff.mp hrest
      exact hcr tail h htail
    rw [lines_cons hc hhead]
    rcases ih with ⟨hblank, htrim⟩ | ⟨L, y, B, hlines, hB, hy, htrim⟩
    · have hrest : isBlankLine rest = true := trimEnd_eq_nil_iff.mp htrim
      cases hw : isWhitespace c with
      | true =>
        refine .inl ⟨isBlankLine_of_mem_consHead hw hblank, ?_⟩
        rw [trimEnd_eq_nil_iff, isBlankLine_cons, hw, hrest]
        rfl
      | false =>
        have htrim' : trimEnd (c :: rest) = [c] := by
          rw [trimEnd_cons (by rw [isBlankLine_cons, hw]; rfl), htrim]
        have hone : lines [c] = [[c]] := lines_cons hc (by rintro _ ⟨⟩)
        rw [htrim', hone]
        cases hl : lines rest with
        | nil => exact .inr ⟨[], [c], [], rfl, (by rintro _ ⟨⟩), by rw [isBlankLine_cons, hw]; rfl,
            by rw [trimEnd_cons (by rw [isBlankLine_cons, hw]; rfl), trimEnd_nil]; rfl⟩
        | cons l ls =>
          have hcl : isBlankLine (c :: l) = false := by rw [isBlankLine_cons, hw]; rfl
          have hlblank : isBlankLine l = true := hblank l (by rw [hl]; exact List.mem_cons_self)
          refine .inr ⟨[], c :: l, ls, rfl, ?_, hcl, ?_⟩
          · intro l' hl'
            exact hblank l' (by rw [hl]; exact List.mem_cons_of_mem l hl')
          · rw [trimEnd_cons hcl, trimEnd_eq_nil_iff.mpr hlblank]
            rfl
    · have hne : trimEnd rest ≠ [] := by
        intro h
        rw [h] at htrim
        exact absurd htrim (by simp [lines])
      have hheadTrim : c = '\r' → (trimEnd rest).head? ≠ some '\n' := by
        intro h hrest
        obtain ⟨tail, htail⟩ := List.head?_eq_some_iff.mp hrest
        obtain ⟨more, hmore⟩ := isPrefix_trimEnd rest
        refine hhead h ?_
        rw [← hmore, htail]
        rfl
      have hlinesTrim : lines (trimEnd (c :: rest)) = consHead c (L ++ [trimEnd y]) := by
        rw [show c :: rest = [c] ++ rest from rfl, trimEnd_append _ hne]
        show lines (c :: trimEnd rest) = _
        rw [lines_cons hc hheadTrim, htrim]
      rw [hlinesTrim, hlines]
      cases L with
      | nil =>
        have hcy : isBlankLine (c :: y) = false := by rw [isBlankLine_cons, hy, Bool.and_false]
        exact .inr ⟨[], c :: y, B, rfl, hB, hcy, by rw [trimEnd_cons hcy]; rfl⟩
      | cons l L => exact .inr ⟨(c :: l) :: L, y, B, rfl, hB, hy, rfl⟩

/-! ## Trimming twice -/

theorem trimStart_eq_nil_of_blank {t : Text} (h : isBlankLine t = true) : trimStart t = [] := by
  rw [trimStart, List.dropWhile_eq_nil_iff]
  exact List.all_eq_true.mp h

/-- The two ends are trimmed apart from each other. -/
theorem trimStart_trimEnd (t : Text) : trimStart (trimEnd t) = trimEnd (trimStart t) := by
  induction t with
  | nil => rfl
  | cons c t ih =>
    cases hblank : isBlankLine (c :: t) with
    | true =>
      rw [trimEnd_eq_nil_iff.mpr hblank, trimStart_eq_nil_of_blank hblank, trimEnd_nil]
      rfl
    | false =>
      rw [trimEnd_cons hblank]
      cases hc : isWhitespace c with
      | true =>
        rw [trimStart_cons_of_whitespace hc, trimStart_cons_of_whitespace hc, ih]
      | false =>
        rw [trimStart_cons_of_not_whitespace hc, trimStart_cons_of_not_whitespace hc,
          trimEnd_cons hblank]

theorem trimStart_trimStart (t : Text) : trimStart (trimStart t) = trimStart t :=
  List.dropWhile_idempotent isWhitespace t

theorem trim_trimEnd (t : Text) : trim (trimEnd t) = trim t := by
  rw [trim, trimStart_trimEnd, trimEnd_trimEnd, trim]

@[simp] theorem trim_trim (t : Text) : trim (trim t) = trim t := by
  rw [trim, trim, trimStart_trimEnd, trimStart_trimStart, trimEnd_trimEnd]

theorem trim_eq_nil_iff {t : Text} : trim t = [] ↔ isBlankLine t = true := by
  constructor
  · intro h
    have hstart : isBlankLine (trimStart t) = true := trimEnd_eq_nil_iff.mp h
    have hsplit : t.takeWhile isWhitespace ++ trimStart t = t := List.takeWhile_append_dropWhile
    rw [← hsplit, isBlankLine, List.all_append, List.all_takeWhile, Bool.true_and]
    exact hstart
  · intro h
    rw [trim, trimStart_eq_nil_of_blank h, trimEnd_nil]

end Text
