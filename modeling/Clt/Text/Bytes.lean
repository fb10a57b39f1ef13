import Clt.Text.Basic

/-!
# Byte offsets

A text is sliced at byte offsets, and a slice at an offset inside a character panics. What
changes ASCII letters only keeps the offsets of all characters.
-/

namespace Text

/-- `str::len`: the bytes of a text. -/
def utf8Len : Text → Nat
  | [] => 0
  | c :: t => c.utf8Size + utf8Len t

@[simp] theorem utf8Len_nil : utf8Len [] = 0 := rfl

@[simp] theorem utf8Len_cons (c : Char) (t : Text) : utf8Len (c :: t) = c.utf8Size + utf8Len t :=
  rfl

@[simp] theorem utf8Len_append (s t : Text) : utf8Len (s ++ t) = utf8Len s + utf8Len t := by
  induction s with
  | nil => rw [List.nil_append, utf8Len_nil, Nat.zero_add]
  | cons c s ih => rw [List.cons_append, utf8Len_cons, utf8Len_cons, ih, Nat.add_assoc]

theorem utf8Len_pos {t : Text} (h : t ≠ []) : 0 < utf8Len t := by
  obtain ⟨c, rest, rfl⟩ := List.exists_cons_of_ne_nil h
  rw [utf8Len_cons]
  exact Nat.add_pos_left c.utf8Size_pos _

/-- The text before a byte offset and the text from it on; `none` off the boundary of a
character. -/
def splitAtByte : Nat → Text → Option (Text × Text)
  | 0, t => some ([], t)
  | _ + 1, [] => none
  | offset + 1, c :: t =>
    if c.utf8Size ≤ offset + 1 then
      (splitAtByte (offset + 1 - c.utf8Size) t).map fun (before, rest) => (c :: before, rest)
    else none

/-- `&t[offset..]`. -/
def sliceFrom (t : Text) (offset : Nat) : Option Text := (splitAtByte offset t).map Prod.snd

/-- `&t[..offset]`. -/
def sliceTo (t : Text) (offset : Nat) : Option Text := (splitAtByte offset t).map Prod.fst

section Split

variable {s t : Text} {i j : Nat}

theorem splitAtByte_append (s t : Text) : splitAtByte (utf8Len s) (s ++ t) = some (s, t) := by
  induction s with
  | nil => rw [utf8Len_nil, splitAtByte, List.nil_append]
  | cons c s ih =>
    have hpos := c.utf8Size_pos
    obtain ⟨offset, hoffset⟩ : ∃ offset, utf8Len (c :: s) = offset + 1 :=
      ⟨c.utf8Size + utf8Len s - 1, by rw [utf8Len_cons]; omega⟩
    have hrest : offset + 1 - c.utf8Size = utf8Len s := by
      rw [← hoffset, utf8Len_cons, Nat.add_sub_cancel_left]
    have hle : c.utf8Size ≤ offset + 1 := by
      rw [← hoffset, utf8Len_cons]
      exact Nat.le_add_right _ _
    rw [hoffset, List.cons_append, splitAtByte, if_pos hle, hrest, ih]
    rfl

theorem sliceFrom_append (s t : Text) : sliceFrom (s ++ t) (utf8Len s) = some t := by
  rw [sliceFrom, splitAtByte_append, Option.map_some]

theorem sliceFrom_take (t : Text) (i : Nat) :
    sliceFrom t (utf8Len (t.take i)) = some (t.drop i) := by
  have h := sliceFrom_append (t.take i) (t.drop i)
  rwa [List.take_append_drop] at h

theorem sliceTo_take (t : Text) (i : Nat) :
    sliceTo t (utf8Len (t.take i)) = some (t.take i) := by
  have h := splitAtByte_append (t.take i) (t.drop i)
  rw [List.take_append_drop] at h
  rw [sliceTo, h, Option.map_some]

/-- The offsets of characters are in their order. -/
theorem utf8Len_take_lt (hij : i < j) (hi : i < t.length) :
    utf8Len (t.take i) < utf8Len (t.take j) := by
  have hsplit : t.take j = t.take i ++ (t.drop i).take (j - i) := by
    rw [← List.take_add, Nat.add_sub_cancel' hij.le]
  have hne : (t.drop i).take (j - i) ≠ [] := by
    rw [Ne, List.take_eq_nil_iff, List.drop_eq_nil_iff]
    omega
  have hpos := utf8Len_pos hne
  rw [hsplit, utf8Len_append]
  omega

theorem utf8Len_take_lt_iff (hi : i < t.length) (hj : j < t.length) :
    utf8Len (t.take i) < utf8Len (t.take j) ↔ i < j := by
  constructor
  · intro h
    by_contra hle
    rcases Nat.lt_or_eq_of_le (Nat.not_lt.mp hle) with hlt | rfl
    · exact Nat.lt_asymm h (utf8Len_take_lt hlt hj)
    · exact Nat.lt_irrefl _ h
  · exact fun h => utf8Len_take_lt h hi

end Split

/-! ## Upper case -/

theorem toNat_toUpper {c : Char} (h : 97 ≤ c.toNat ∧ c.toNat ≤ 122) :
    c.toUpper.toNat + 32 = c.toNat := by
  have hback : ('A'.val - 'a'.val).toNat = 4294967264 := by decide
  have hlower : 'a'.val ≤ c.val ∧ c.val ≤ 'z'.val := h
  delta Char.toUpper
  rw [dif_pos hlower]
  show (c.val + ('A'.val - 'a'.val)).toNat + 32 = c.val.toNat
  have hcode : 97 ≤ c.val.toNat ∧ c.val.toNat ≤ 122 := h
  rw [UInt32.toNat_add, hback]
  omega

theorem toUpper_of_not_lower {c : Char} (h : ¬ (97 ≤ c.toNat ∧ c.toNat ≤ 122)) : c.toUpper = c :=
  dif_neg h

/-- A letter has two cases. -/
theorem eq_of_toUpper (c : Char) : c = c.toUpper ∨ c = Char.ofNat (c.toUpper.toNat + 32) := by
  by_cases h : 97 ≤ c.toNat ∧ c.toNat ≤ 122
  · rw [toNat_toUpper h, Char.ofNat_toNat]
    exact .inr rfl
  · exact .inl (toUpper_of_not_lower h).symm

theorem utf8Size_toUpper (c : Char) : c.toUpper.utf8Size = c.utf8Size := by
  by_cases h : 97 ≤ c.toNat ∧ c.toNat ≤ 122
  · have hupper := toNat_toUpper h
    have hascii {d : Char} (hd : d.toNat ≤ 127) : d.utf8Size = 1 :=
      Char.utf8Size_eq_one_iff.mpr (UInt32.le_iff_toNat_le.mpr hd)
    rw [hascii (by omega), hascii (by omega)]
  · rw [toUpper_of_not_lower h]

theorem utf8Len_map_toUpper (t : Text) : utf8Len (t.map Char.toUpper) = utf8Len t := by
  induction t with
  | nil => rfl
  | cons c t ih => rw [List.map_cons, utf8Len_cons, utf8Len_cons, ih, utf8Size_toUpper]

end Text
