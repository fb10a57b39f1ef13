import Mathlib.Data.List.DropRight
import Mathlib.Data.List.Basic

/-!
# Text and its lines

Text is the list of its characters. `lines` reads a file back line by line and
`writeLines` puts it together again: what was written is read back, up to the carriage
return that a reader takes for part of the line end (`lines_writeLines`).
-/

/-- Text, as its characters. -/
abbrev Text : Type := List Char

namespace Text

/-! ## Whitespace -/

/-- `char::is_whitespace`. -/
def isWhitespace (c : Char) : Bool :=
  (9 ≤ c.toNat && c.toNat ≤ 13) || c.toNat = 0x20 || c.toNat = 0x85 || c.toNat = 0xA0 ||
    c.toNat = 0x1680 || (0x2000 ≤ c.toNat && c.toNat ≤ 0x200A) || c.toNat = 0x2028 ||
    c.toNat = 0x2029 || c.toNat = 0x202F || c.toNat = 0x205F || c.toNat = 0x3000

/-- `str::trim_start`. -/
def trimStart (t : Text) : Text := t.dropWhile isWhitespace

/-- `str::trim_end`. -/
def trimEnd (t : Text) : Text := t.rdropWhile isWhitespace

/-- `str::trim`. -/
def trim (t : Text) : Text := trimEnd (trimStart t)

@[simp] theorem trimEnd_nil : trimEnd [] = [] := List.rdropWhile_nil _

@[simp] theorem trimEnd_trimEnd (t : Text) : trimEnd (trimEnd t) = trimEnd t :=
  List.rdropWhile_idempotent _ t

theorem isPrefix_trimEnd (t : Text) : trimEnd t <+: t := List.rdropWhile_prefix _ t

/-- Whitespace at the end does not outlive a trim. -/
theorem trimEnd_append_of_whitespace (t : Text) {w : Text} (h : ∀ c ∈ w, isWhitespace c = true) :
    trimEnd (t ++ w) = trimEnd t := by
  induction w using List.reverseRecOn with
  | nil => rw [List.append_nil]
  | append_singleton w c ih =>
    have hc : isWhitespace c = true := h c (by simp)
    rw [← List.append_assoc, trimEnd, List.rdropWhile_concat_pos _ _ _ hc]
    exact ih fun d hd => h d (List.mem_append_left _ hd)

/-- A text whose end is not blank keeps it. -/
theorem trimEnd_concat (t : Text) {c : Char} (h : isWhitespace c = false) :
    trimEnd (t ++ [c]) = t ++ [c] :=
  List.rdropWhile_concat_neg _ _ _ (by simp [h])

/-- Trimming looks past what is not blank. -/
theorem trimEnd_append (s : Text) {t : Text} (h : trimEnd t ≠ []) :
    trimEnd (s ++ t) = s ++ trimEnd t := by
  induction t using List.reverseRecOn with
  | nil => exact absurd trimEnd_nil h
  | append_singleton t c ih =>
    cases hc : isWhitespace c with
    | true =>
      have hw : ∀ d ∈ [c], isWhitespace d = true := by
        intro d hd
        rwa [List.mem_singleton.mp hd]
      rw [trimEnd_append_of_whitespace t hw] at h ⊢
      rw [← List.append_assoc, trimEnd_append_of_whitespace _ hw]
      exact ih h
    | false => rw [trimEnd_concat t hc, ← List.append_assoc, trimEnd_concat _ hc]

theorem mem_of_mem_trimEnd {t : Text} {c : Char} (h : c ∈ trimEnd t) : c ∈ t :=
  (isPrefix_trimEnd t).subset h

theorem mem_of_mem_trim {t : Text} {c : Char} (h : c ∈ trim t) : c ∈ t :=
  (List.dropWhile_sublist _).subset (mem_of_mem_trimEnd h)

/-! ## Up to a character -/

theorem takeWhile_bne_append {c : Char} {t : Text} (rest : Text) (h : c ∉ t) :
    (t ++ c :: rest).takeWhile (· != c) = t := by
  have hall : ∀ d ∈ t, (d != c) = true := by
    intro d hd
    rw [bne_iff_ne]
    rintro rfl
    exact h hd
  rw [List.takeWhile_append_of_pos hall, List.takeWhile_cons_of_neg (by rw [bne_self_eq_false]; decide),
    List.append_nil]

theorem dropWhile_bne_append {c : Char} {t : Text} (rest : Text) (h : c ∉ t) :
    (t ++ c :: rest).dropWhile (· != c) = c :: rest := by
  have hall : ∀ d ∈ t, (d != c) = true := by
    intro d hd
    rw [bne_iff_ne]
    rintro rfl
    exact h hd
  rw [List.dropWhile_append_of_pos hall, List.dropWhile_cons_of_neg (by rw [bne_self_eq_false]; decide)]

/-! ## Lines -/

/-- Put a character in front of the first line. -/
def consHead (c : Char) : List Text → List Text
  | [] => [[c]]
  | l :: ls => (c :: l) :: ls

/-- `str::lines`: a line ends before a line feed, or before a carriage return and a line
feed. -/
def lines : Text → List Text
  | [] => []
  | '\n' :: rest => [] :: lines rest
  | '\r' :: '\n' :: rest => [] :: lines rest
  | c :: rest => consHead c (lines rest)

/-- A line without the carriage return at its end. -/
def stripCr (l : Text) : Text := if l.getLast? = some '\r' then l.dropLast else l

theorem lines_newline (rest : Text) : lines ('\n' :: rest) = [] :: lines rest := rfl

theorem lines_cons {c : Char} {rest : Text} (hc : c ≠ '\n')
    (hcr : c = '\r' → rest.head? ≠ some '\n') : lines (c :: rest) = consHead c (lines rest) := by
  rw [lines.eq_def]
  split
  · rename_i heq
    cases heq
  · rename_i heq
    cases heq
    exact absurd rfl hc
  · rename_i heq
    cases heq
    exact absurd rfl (hcr rfl)
  · rename_i heq
    cases heq
    rfl

/-- A line that was written with a line feed is read back. -/
theorem lines_append_newline {l : Text} (hl : '\n' ∉ l) (rest : Text) :
    lines (l ++ '\n' :: rest) = stripCr l :: lines rest := by
  induction l with
  | nil => rfl
  | cons c l ih =>
    have hc : c ≠ '\n' := fun h => hl (h ▸ List.mem_cons_self)
    have hl' : '\n' ∉ l := fun h => hl (List.mem_cons_of_mem c h)
    by_cases hend : l = []
    · subst hend
      by_cases hcr : c = '\r'
      · subst hcr
        rfl
      · rw [List.cons_append, List.nil_append, lines_cons hc fun h => absurd h hcr, lines_newline]
        simp [consHead, stripCr, hcr]
    · have hhead : c = '\r' → (l ++ '\n' :: rest).head? ≠ some '\n' := by
        intro _ h
        obtain ⟨d, ds, rfl⟩ := List.exists_cons_of_ne_nil hend
        exact hl' (Option.some.inj h ▸ List.mem_cons_self)
      rw [List.cons_append, lines_cons hc hhead, ih hl', consHead]
      obtain ⟨d, ds, rfl⟩ := List.exists_cons_of_ne_nil hend
      simp only [stripCr, List.getLast?_cons_cons]
      split <;> simp

/-- A text without a line feed is one line, its carriage returns kept. -/
theorem lines_of_not_mem {t : Text} (ht : '\n' ∉ t) (hne : t ≠ []) : lines t = [t] := by
  induction t with
  | nil => exact absurd rfl hne
  | cons c t ih =>
    have hc : c ≠ '\n' := fun h => ht (h ▸ List.mem_cons_self)
    have ht' : '\n' ∉ t := fun h => ht (List.mem_cons_of_mem c h)
    have hhead : c = '\r' → t.head? ≠ some '\n' :=
      fun _ h => ht' (List.mem_of_mem_head? h)
    rw [lines_cons hc hhead]
    cases t with
    | nil => rfl
    | cons d ds => rw [ih ht' (List.cons_ne_nil d ds), consHead]

theorem not_mem_of_mem_lines {t l : Text} (hl : l ∈ lines t) : '\n' ∉ l := by
  induction t using lines.induct generalizing l with
  | case1 => cases hl
  | case2 rest ih =>
    rcases List.mem_cons.mp hl with rfl | hl
    · exact List.not_mem_nil
    · exact ih hl
  | case3 rest ih =>
    rcases List.mem_cons.mp hl with rfl | hl
    · exact List.not_mem_nil
    · exact ih hl
  | case4 c rest hc hcr ih =>
    have hne : c ≠ '\n' := fun h => hc h
    have hhead : c = '\r' → rest.head? ≠ some '\n' := by
      intro h hrest
      obtain ⟨tail, htail⟩ := List.head?_eq_some_iff.mp hrest
      exact hcr tail h htail
    rw [lines_cons hne hhead] at hl
    cases hlines : lines rest with
    | nil =>
      rw [hlines, consHead, List.mem_singleton] at hl
      subst hl
      simpa using hne.symm
    | cons l' ls =>
      rw [hlines] at ih hl
      rcases List.mem_cons.mp hl with rfl | hl
      · rw [List.mem_cons, not_or]
        exact ⟨hne.symm, ih List.mem_cons_self⟩
      · exact ih (List.mem_cons_of_mem l' hl)

/-- `write_lines`: the file with these lines. -/
def writeLines (ls : List Text) : Text :=
  let content := List.intercalate ['\n'] ls
  if content.isEmpty then content else content ++ ['\n']

theorem intercalate_append_newline {ls : List Text} (hne : ls ≠ []) :
    List.intercalate ['\n'] ls ++ ['\n'] = ls.flatMap (· ++ ['\n']) := by
  induction ls with
  | nil => exact absurd rfl hne
  | cons l ls ih =>
    cases ls with
    | nil => simp
    | cons l' ls =>
      rw [List.intercalate_cons_cons, List.append_assoc, ih (List.cons_ne_nil l' ls)]
      rfl

theorem lines_flatMap_newline {ls : List Text} (hls : ∀ l ∈ ls, '\n' ∉ l) :
    lines (ls.flatMap (· ++ ['\n'])) = ls.map stripCr := by
  induction ls with
  | nil => rfl
  | cons l ls ih =>
    have hl : '\n' ∉ l := hls l List.mem_cons_self
    have hrest := ih fun l' hl' => hls l' (List.mem_cons_of_mem l hl')
    rw [List.flatMap_cons, List.append_assoc, List.singleton_append, lines_append_newline hl,
      hrest, List.map_cons]

/-- What was written is read back, but for a carriage return at the end of a line and for
a file that is one blank line. -/
theorem lines_writeLines {ls : List Text} (hls : ∀ l ∈ ls, '\n' ∉ l) (hblank : ls ≠ [[]]) :
    lines (writeLines ls) = ls.map stripCr := by
  by_cases hnil : ls = []
  · subst hnil
    rfl
  have hcontent : List.intercalate ['\n'] ls ≠ [] := by
    obtain ⟨l, ls, rfl⟩ := List.exists_cons_of_ne_nil hnil
    cases ls with
    | nil => simpa using hblank
    | cons l' ls => simp [List.intercalate_cons_cons]
  rw [writeLines, if_neg (by simpa using hcontent), intercalate_append_newline hnil,
    lines_flatMap_newline hls]

theorem lines_writeLines_blank : lines (writeLines [[]]) = [] := rfl

end Text
