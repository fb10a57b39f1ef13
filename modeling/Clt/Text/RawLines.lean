import Clt.Text.Basic

/-!
# Lines and their bytes

A reader of lines takes the carriage returns off their ends, and a writer ends every line with a
line feed. A file that is read, changed in one line and written again keeps the bytes of the
other lines exactly when none of them ends in a carriage return.
-/

namespace Text

/-- What stands between the line feeds. -/
def rawLines (t : Text) : List Text := t.splitOn '\n'

theorem not_mem_of_mem_rawLines {t l : Text} (h : l ∈ rawLines t) : '\n' ∉ l := by
  induction t generalizing l with
  | nil =>
    rw [rawLines, List.splitOn_nil, List.mem_singleton] at h
    rw [h]
    exact List.not_mem_nil
  | cons c t ih =>
    rw [rawLines, List.splitOn_cons_eq_if_modifyHead] at h
    split at h
    · rcases List.mem_cons.mp h with rfl | h
      · exact List.not_mem_nil
      · exact ih h
    · rename_i hc
      cases hsplit : t.splitOn '\n' with
      | nil => exact absurd hsplit (List.splitOn_ne_nil _ _)
      | cons first rest =>
        rw [hsplit, List.modifyHead_cons] at h
        have ih {l : Text} (hl : l ∈ first :: rest) : '\n' ∉ l := ih (by rwa [rawLines, hsplit])
        rcases List.mem_cons.mp h with rfl | h
        · rw [List.mem_cons, not_or]
          exact ⟨fun heq => hc (by rw [heq, beq_self_eq_true]), ih List.mem_cons_self⟩
        · exact ih (List.mem_cons_of_mem _ h)

/-- The lines of a text with this between its line feeds. -/
def linesOf : List Text → List Text
  | [] => []
  | [last] => if last = [] then [] else [last]
  | l :: l' :: ls => stripCr l :: linesOf (l' :: ls)

variable {i j : Nat} {l line : Text} {ls segs : List Text}

theorem lines_intercalate (h : ∀ l ∈ segs, '\n' ∉ l) :
    lines (List.intercalate ['\n'] segs) = linesOf segs := by
  induction segs with
  | nil => rfl
  | cons l segs ih =>
    obtain ⟨hl, hsegs⟩ := List.forall_mem_cons.mp h
    cases segs with
    | nil =>
      rw [linesOf, List.intercalate_singleton]
      split
      · rename_i hnil
        rw [hnil]
        rfl
      · rename_i hne
        exact lines_of_not_mem hl hne
    | cons l' segs =>
      rw [List.intercalate_cons_cons, List.append_assoc, List.singleton_append,
        lines_append_newline hl, ih hsegs, linesOf]

/-- Every line but the last is read without its carriage return. -/
theorem getElem?_linesOf (hl : segs[j]? = some l) :
    (j + 1 < segs.length ∧ (linesOf segs)[j]? = some (stripCr l)) ∨
      j + 1 = segs.length ∧
        (l ≠ [] ∧ (linesOf segs)[j]? = some l ∨ l = [] ∧ (linesOf segs).length = j) := by
  induction segs generalizing j with
  | nil => cases hl
  | cons first segs ih =>
    cases segs with
    | nil =>
      cases j with
      | zero =>
        cases hl
        rw [linesOf]
        split
        · rename_i hnil
          exact .inr ⟨rfl, .inr ⟨hnil, rfl⟩⟩
        · rename_i hne
          exact .inr ⟨rfl, .inl ⟨hne, rfl⟩⟩
      | succ j => cases hl
    | cons second segs =>
      rw [linesOf]
      cases j with
      | zero =>
        cases hl
        exact .inl ⟨by simp, rfl⟩
      | succ j =>
        rcases ih hl with ⟨hlt, hread⟩ | ⟨hlast, hread | ⟨hnil, hlen⟩⟩
        · exact .inl ⟨Nat.succ_lt_succ hlt, hread⟩
        · exact .inr ⟨congrArg Nat.succ hlast, .inl hread⟩
        · exact .inr ⟨congrArg Nat.succ hlast, .inr ⟨hnil, congrArg Nat.succ hlen⟩⟩

theorem rawLines_writeLines (h : ∀ l ∈ ls, '\n' ∉ l) (hblank : ls ≠ [[]]) (hne : ls ≠ []) :
    rawLines (writeLines ls) = ls ++ [[]] := by
  have hcontent : List.intercalate ['\n'] ls ≠ [] := by
    obtain ⟨l, rest, rfl⟩ := List.exists_cons_of_ne_nil hne
    cases rest with
    | nil => simpa using hblank
    | cons l' rest => simp [List.intercalate_cons_cons]
  have hjoined : List.intercalate ['\n'] ls ++ ['\n'] = List.intercalate ['\n'] (ls ++ [[]]) := by
    rw [intercalate_append_newline hne]
    clear hcontent hblank h
    induction ls with
    | nil => exact absurd rfl hne
    | cons l ls ih =>
      cases ls with
      | nil => simp [List.intercalate]
      | cons l' ls =>
        rw [List.flatMap_cons, ih (List.cons_ne_nil _ _)]
        simp only [List.cons_append, List.intercalate_cons_cons]
  rw [writeLines, if_neg (by simpa using hcontent), hjoined, rawLines,
    List.splitOn_intercalate]
  · intro l hl
    rcases List.mem_append.mp hl with hl | hl
    · exact h l hl
    · rw [List.mem_singleton.mp hl]
      exact List.not_mem_nil
  · simp

theorem stripCr_eq_self : stripCr l = l ↔ l.getLast? ≠ some '\r' := by
  unfold stripCr
  split
  · rename_i hcr
    refine ⟨fun h => ?_, fun h => absurd hcr h⟩
    have hne : l ≠ [] := by
      rintro rfl
      cases hcr
    have hlen := congrArg List.length h
    rw [List.length_dropLast] at hlen
    have := List.length_pos_iff.mpr hne
    omega
  · rename_i hcr
    exact ⟨fun _ => hcr, fun _ => rfl⟩

/-- The lines other than one have the bytes that they had. -/
def KeepsOtherLines (i : Nat) (before after : Text) : Prop :=
  ∀ j ≠ i, ∀ l, (rawLines before)[j]? = some l → (rawLines after)[j]? = some l

/-- No line other than one ends in a carriage return. -/
def OthersWithoutCr (i : Nat) (t : Text) : Prop :=
  ∀ j ≠ i, ∀ l, j + 1 < (rawLines t).length → (rawLines t)[j]? = some l → l.getLast? ≠ some '\r'

theorem keepsOtherLines_iff {t : Text} (hi : i < (lines t).length) (hline : '\n' ∉ line)
    (hne : line ≠ []) :
    KeepsOtherLines i t (writeLines ((lines t).set i line)) ↔ OthersWithoutCr i t := by
  have hraw : t = List.intercalate ['\n'] (rawLines t) := (List.intercalate_splitOn '\n').symm
  have hlines : lines t = linesOf (rawLines t) := by
    conv_lhs => rw [hraw]
    exact lines_intercalate fun _ hl => not_mem_of_mem_rawLines hl
  have hall : ∀ l ∈ (lines t).set i line, '\n' ∉ l := by
    intro l hl
    rcases List.mem_or_eq_of_mem_set hl with hl | rfl
    · exact not_mem_of_mem_lines hl
    · exact hline
  have hmem : line ∈ (lines t).set i line := List.mem_set hi line
  have hafter : rawLines (writeLines ((lines t).set i line)) = (lines t).set i line ++ [[]] := by
    refine rawLines_writeLines hall ?_ (List.ne_nil_of_mem hmem)
    intro hblank
    rw [hblank, List.mem_singleton] at hmem
    exact hne hmem
  rw [KeepsOtherLines, hafter, OthersWithoutCr]
  refine forall_congr' fun j => forall_congr' fun hj => forall_congr' fun l => ?_
  have hother : ((lines t).set i line)[j]? = (linesOf (rawLines t))[j]? := by
    rw [List.getElem?_set_ne (Ne.symm hj), hlines]
  have hbefore (h : ((lines t).set i line)[j]?.isSome) : j < ((lines t).set i line).length := by
    by_contra hge
    rw [List.getElem?_eq_none (Nat.le_of_not_lt hge)] at h
    cases h
  constructor
  · intro hkeeps hlt hl
    rcases getElem?_linesOf hl with ⟨-, hread⟩ | ⟨hlast, -⟩
    · have hsame := hkeeps hl
      rw [List.getElem?_append_left (hbefore (by rw [hother, hread]; rfl)), hother, hread] at hsame
      exact stripCr_eq_self.mp (Option.some.inj hsame)
    · exact absurd hlast (Nat.ne_of_lt hlt)
  · intro hfree hl
    rcases getElem?_linesOf hl with ⟨hlt, hread⟩ | ⟨-, ⟨-, hread⟩ | ⟨hnil, hlen⟩⟩
    · rw [List.getElem?_append_left (hbefore (by rw [hother, hread]; rfl)), hother, hread,
        stripCr_eq_self.mpr (hfree hlt hl)]
    · rw [List.getElem?_append_left (hbefore (by rw [hother, hread]; rfl)), hother, hread]
    · -- The last line is empty, and the file that is written ends so too.
      rw [List.getElem?_append_right (by rw [List.length_set, hlines, hlen]), List.length_set,
        hlines, hlen, Nat.sub_self, hnil]
      rfl

end Text
