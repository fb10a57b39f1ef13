import Clt.Task.Note

/-!
# Lines that keep their ends

`split_inclusive` leaves every line feed on the line that it ends, so the pieces of a text
joined are the text. A list of lines is what some text splits into exactly when every line but
the last ends in its one line feed.
-/

namespace Clt

open Text

/-- A line with its line feed. -/
def IsTerminated (line : Text) : Prop := ∃ body, line = body ++ ['\n'] ∧ '\n' ∉ body

/-- A line that may be the last of its text. -/
def IsLine (line : Text) : Prop := IsTerminated line ∨ line ≠ [] ∧ '\n' ∉ line

/-- Lines as a text splits into them. -/
def InclusiveLines : List Text → Prop
  | [] => True
  | [line] => IsLine line
  | line :: next :: rest => IsTerminated line ∧ InclusiveLines (next :: rest)

namespace IsTerminated

variable {line : Text}

theorem isLine (h : IsTerminated line) : IsLine line := .inl h

theorem ne_nil (h : IsTerminated line) : line ≠ [] := by
  obtain ⟨body, rfl, -⟩ := h
  exact List.append_ne_nil_of_right_ne_nil _ (List.cons_ne_nil _ _)

theorem getLast? (h : IsTerminated line) : line.getLast? = some '\n' := by
  obtain ⟨body, rfl, -⟩ := h
  exact List.getLast?_concat

end IsTerminated

theorem IsLine.ne_nil {line : Text} (h : IsLine line) : line ≠ [] := h.elim (·.ne_nil) (·.1)

/-- A line that ends in a line feed has no other. -/
theorem IsLine.isTerminated {line : Text} (h : IsLine line) (hend : line.getLast? = some '\n') :
    IsTerminated line := by
  rcases h with h | ⟨-, hfree⟩
  · exact h
  · exact absurd (List.mem_of_getLast? hend) hfree

section Split

variable {line rest t : Text} {ls : List Text}

theorem splitInclusive_append_newline (h : '\n' ∉ line) (rest : Text) :
    splitInclusive (line ++ '\n' :: rest) = (line ++ ['\n']) :: splitInclusive rest := by
  induction line with
  | nil => rfl
  | cons c line ih =>
    obtain ⟨hc, hline⟩ := List.ne_and_not_mem_of_not_mem_cons h
    rw [List.cons_append, splitInclusive, if_neg hc.symm, ih hline]
    rfl

theorem splitInclusive_terminated (h : IsTerminated line) (rest : Text) :
    splitInclusive (line ++ rest) = line :: splitInclusive rest := by
  obtain ⟨body, rfl, hbody⟩ := h
  rw [List.append_assoc, List.singleton_append, splitInclusive_append_newline hbody]

theorem splitInclusive_of_not_mem (hne : line ≠ []) (h : '\n' ∉ line) :
    splitInclusive line = [line] := by
  induction line with
  | nil => exact absurd rfl hne
  | cons c line ih =>
    obtain ⟨hc, hline⟩ := List.ne_and_not_mem_of_not_mem_cons h
    rw [splitInclusive, if_neg hc.symm]
    cases line with
    | nil => rfl
    | cons d line =>
      rw [ih (List.cons_ne_nil _ _) hline]
      rfl

theorem splitInclusive_line (h : IsLine line) : splitInclusive line = [line] := by
  rcases h with h | ⟨hne, hfree⟩
  · simpa [splitInclusive] using splitInclusive_terminated h []
  · exact splitInclusive_of_not_mem hne hfree

/-- A text is empty, its only line, or a line with its line feed before the rest. -/
theorem text_cases (t : Text) :
    t = [] ∨ (t ≠ [] ∧ '\n' ∉ t) ∨ ∃ line rest, t = line ++ rest ∧ IsTerminated line := by
  by_cases hnil : t = []
  · exact .inl hnil
  by_cases hmem : '\n' ∈ t
  · obtain ⟨body, rest, rfl, hbody⟩ := List.eq_append_cons_of_mem hmem
    exact .inr (.inr ⟨body ++ ['\n'], rest, by simp, body, rfl, hbody⟩)
  · exact .inr (.inl ⟨hnil, hmem⟩)

/-- Induction on the lines of a text. -/
theorem text_induction {P : Text → Prop} (hnil : P [])
    (hlast : ∀ line, line ≠ [] → '\n' ∉ line → P line)
    (hcons : ∀ line rest, IsTerminated line → P rest → P (line ++ rest)) (t : Text) : P t := by
  induction hlen : t.length using Nat.strongRecOn generalizing t with
  | ind n ih =>
    rcases text_cases t with rfl | ⟨hne, hfree⟩ | ⟨line, rest, rfl, hline⟩
    · exact hnil
    · exact hlast t hne hfree
    · refine hcons line rest hline (ih rest.length ?_ rest rfl)
      have := List.length_pos_iff.mpr hline.ne_nil
      rw [List.length_append] at hlen
      omega

theorem flatten_splitInclusive (t : Text) : (splitInclusive t).flatten = t := by
  induction t using text_induction with
  | hnil => rfl
  | hlast line hne hfree => rw [splitInclusive_of_not_mem hne hfree, List.flatten_singleton]
  | hcons line rest hline ih => rw [splitInclusive_terminated hline, List.flatten_cons, ih]

theorem splitInclusive_ne_nil (h : t ≠ []) : splitInclusive t ≠ [] := by
  intro hnil
  have := flatten_splitInclusive t
  rw [hnil] at this
  exact h this.symm

end Split

namespace InclusiveLines

variable {line : Text} {ls ls' : List Text}

theorem cons (hline : IsTerminated line) (h : InclusiveLines ls) : InclusiveLines (line :: ls) := by
  cases ls with
  | nil => exact hline.isLine
  | cons next rest => exact ⟨hline, h⟩

theorem tail (h : InclusiveLines (line :: ls)) : InclusiveLines ls := by
  cases ls with
  | nil => trivial
  | cons next rest => exact h.2

theorem isLine (h : InclusiveLines (line :: ls)) : IsLine line := by
  cases ls with
  | nil => exact h
  | cons next rest => exact h.1.isLine

/-- Only the last line may lack its line feed. -/
theorem isTerminated (h : InclusiveLines (line :: ls)) (hne : ls ≠ []) : IsTerminated line := by
  cases ls with
  | nil => exact absurd rfl hne
  | cons next rest => exact h.1

theorem append_left (h : InclusiveLines (ls ++ ls')) : InclusiveLines ls := by
  induction ls with
  | nil => trivial
  | cons line ls ih =>
    cases ls with
    | nil => exact h.isLine
    | cons next rest => exact ⟨h.1, ih h.2⟩

theorem append_right (h : InclusiveLines (ls ++ ls')) : InclusiveLines ls' := by
  induction ls with
  | nil => exact h
  | cons line ls ih => exact ih h.tail

/-- Lines that others follow end in their line feeds. -/
theorem terminated_of_append (h : InclusiveLines (ls ++ ls')) (hne : ls' ≠ []) :
    ∀ l ∈ ls, IsTerminated l := by
  induction ls with
  | nil => exact fun l hl => absurd hl List.not_mem_nil
  | cons line ls ih =>
    intro l hl
    rcases List.mem_cons.mp hl with rfl | hl
    · exact isTerminated h (List.append_ne_nil_of_right_ne_nil _ hne)
    · exact ih h.tail l hl

theorem of_terminated (h : ∀ l ∈ ls, IsTerminated l) : InclusiveLines ls := by
  induction ls with
  | nil => trivial
  | cons line ls ih =>
    obtain ⟨hline, hls⟩ := List.forall_mem_cons.mp h
    exact cons hline (ih hls)

/-- Lines may be left out. -/
theorem sublist (h : InclusiveLines ls) (hsub : ls'.Sublist ls) : InclusiveLines ls' := by
  induction hsub with
  | slnil => trivial
  | cons line hsub ih => exact ih h.tail
  | @cons_cons ls' ls line hsub ih =>
    cases ls' with
    | nil => exact h.isLine
    | cons next rest =>
      refine ⟨h.isTerminated ?_, ih h.tail⟩
      rintro rfl
      cases hsub

theorem splitInclusive_flatten (h : InclusiveLines ls) : splitInclusive ls.flatten = ls := by
  induction ls with
  | nil => rfl
  | cons line ls ih =>
    by_cases hnil : ls = []
    · subst hnil
      rw [List.flatten_singleton]
      exact splitInclusive_line h.isLine
    · rw [List.flatten_cons, splitInclusive_terminated (h.isTerminated hnil), ih h.tail]

end InclusiveLines

theorem inclusiveLines_splitInclusive (t : Text) : InclusiveLines (splitInclusive t) := by
  induction t using text_induction with
  | hnil => trivial
  | hlast line hne hfree =>
    rw [splitInclusive_of_not_mem hne hfree]
    exact .inr ⟨hne, hfree⟩
  | hcons line rest hline ih =>
    rw [splitInclusive_terminated hline]
    exact ih.cons hline

theorem splitInclusive_flatten_append {ls : List Text} (h : ∀ l ∈ ls, IsTerminated l) (rest : Text) :
    splitInclusive (ls.flatten ++ rest) = ls ++ splitInclusive rest := by
  induction ls with
  | nil => rfl
  | cons line ls ih =>
    obtain ⟨hline, hls⟩ := List.forall_mem_cons.mp h
    rw [List.flatten_cons, List.append_assoc, splitInclusive_terminated hline, ih hls]
    rfl

section Ended

variable {t : Text}

/-- A text that ends in a line feed has all its lines end in theirs. -/
theorem isTerminated_of_mem (h : t.getLast? = some '\n') :
    ∀ l ∈ splitInclusive t, IsTerminated l := by
  induction t using text_induction with
  | hnil => cases h
  | hlast line hne hfree => exact absurd (List.mem_of_getLast? h) hfree
  | hcons line rest hline ih =>
    rw [splitInclusive_terminated hline]
    intro l hl
    rcases List.mem_cons.mp hl with rfl | hl
    · exact hline
    · by_cases hnil : rest = []
      · subst hnil
        cases hl
      · exact ih (by rw [← h, List.getLast?_append_of_ne_nil _ hnil]) l hl

theorem splitInclusive_append (h : t = [] ∨ t.getLast? = some '\n') (rest : Text) :
    splitInclusive (t ++ rest) = splitInclusive t ++ splitInclusive rest := by
  rcases h with rfl | h
  · rfl
  · have := splitInclusive_flatten_append (isTerminated_of_mem h) rest
    rwa [flatten_splitInclusive] at this

theorem getLast?_flatten {ls : List Text} (h : ∀ l ∈ ls, IsTerminated l) :
    ls.flatten = [] ∨ ls.flatten.getLast? = some '\n' := by
  induction ls with
  | nil => exact .inl rfl
  | cons line ls ih =>
    obtain ⟨hline, hls⟩ := List.forall_mem_cons.mp h
    rw [List.flatten_cons]
    rcases ih hls with hnil | hend
    · rw [hnil, List.append_nil]
      exact .inr hline.getLast?
    · have hne : ls.flatten ≠ [] := by
        intro hnil
        rw [hnil] at hend
        cases hend
      exact .inr (by rw [List.getLast?_append_of_ne_nil _ hne, hend])

end Ended

/-- What `str::lines` gives for a line that keeps its end. -/
def withoutLineEnd (line : Text) : Text :=
  if line.getLast? = some '\n' then stripCr line.dropLast else line

theorem lines_eq_map_splitInclusive (t : Text) :
    lines t = (splitInclusive t).map withoutLineEnd := by
  induction t using text_induction with
  | hnil => rfl
  | hlast line hne hfree =>
    have hend : line.getLast? ≠ some '\n' := fun h => hfree (List.mem_of_getLast? h)
    rw [lines_of_not_mem hfree hne, splitInclusive_of_not_mem hne hfree, List.map_singleton,
      withoutLineEnd, if_neg hend]
  | hcons line rest hline ih =>
    obtain ⟨body, rfl, hbody⟩ := hline
    rw [splitInclusive_terminated ⟨body, rfl, hbody⟩, List.map_cons, ← ih, List.append_assoc,
      List.singleton_append, lines_append_newline hbody, withoutLineEnd,
      if_pos List.getLast?_concat, List.dropLast_concat]

end Clt
