import Clt.Relational.Value
import Mathlib.Data.Char
import Mathlib.Data.List.TakeWhile
import Mathlib.Order.Defs.LinearOrder
import Mathlib.Tactic.Ring

/-!
# Decimal text under two orders

A column of decimal text is compared as a number after a cast, and character by
character without one. The two orders agree on texts of one length. Between texts
of different lengths the longer number is the larger, while the order of the text
only looks at its leading digits (`text_lt_iff_digitsValue_lt`).
-/

namespace Relational

/-! ## Lexicographic order and lengths -/

section Lexicographic

variable {α : Type} [LinearOrder α]

/-- Lists of one length decide a comparison before their tails are looked at. -/
theorem lt_append_iff {as bs : List α} (hlen : as.length = bs.length) {tail : List α}
    (htail : tail ≠ []) : as < bs ++ tail ↔ ¬ bs < as := by
  induction as generalizing bs with
  | nil =>
    obtain rfl := List.eq_nil_of_length_eq_zero hlen.symm
    obtain ⟨t, ts, rfl⟩ := List.exists_cons_of_ne_nil htail
    simp
  | cons a as ih =>
    cases bs with
    | nil => cases hlen
    | cons b bs =>
      have htails := ih (Nat.succ.inj hlen)
      rw [List.cons_append, List.cons_lt_cons_iff, List.cons_lt_cons_iff, htails]
      rcases lt_trichotomy a b with hab | rfl | hab
      · simp [hab, hab.not_gt, hab.ne']
      · simp
      · simp [hab, hab.not_gt, hab.ne']

theorem append_lt_iff {as bs : List α} (hlen : as.length = bs.length) (tail : List α) :
    as ++ tail < bs ↔ as < bs := by
  induction as generalizing bs with
  | nil =>
    obtain rfl := List.eq_nil_of_length_eq_zero hlen.symm
    simp
  | cons a as ih =>
    cases bs with
    | nil => cases hlen
    | cons b bs =>
      rw [List.cons_append, List.cons_lt_cons_iff, List.cons_lt_cons_iff, ih (Nat.succ.inj hlen)]

end Lexicographic

/-! ## The value of a run of digits -/

theorem foldl_digits (ds : List Char) (n : Nat) :
    ds.foldl (fun n c => 10 * n + (c.toNat - '0'.toNat)) n =
      n * 10 ^ ds.length + digitsValue ds := by
  induction ds generalizing n with
  | nil => simp [digitsValue]
  | cons d ds ih =>
    rw [digitsValue, List.foldl_cons, List.foldl_cons, ih, ih (10 * 0 + _), List.length_cons]
    ring

theorem digitsValue_cons (d : Char) (ds : List Char) :
    digitsValue (d :: ds) = (d.toNat - '0'.toNat) * 10 ^ ds.length + digitsValue ds := by
  rw [digitsValue, List.foldl_cons, foldl_digits, Nat.mul_zero, Nat.zero_add]

theorem digitsValue_lt {ds : List Char} (hds : ∀ c ∈ ds, c.isDigit = true) :
    digitsValue ds < 10 ^ ds.length := by
  induction ds with
  | nil => exact Nat.one_pos
  | cons d ds ih =>
    have htail := ih fun c hc => hds c (List.mem_cons_of_mem d hc)
    have hd := Char.isDigit_iff_toNat.mp (hds d List.mem_cons_self)
    have hdigit : d.toNat - '0'.toNat ≤ 9 := by
      have : '9'.toNat = '0'.toNat + 9 := rfl
      omega
    calc digitsValue (d :: ds) = (d.toNat - '0'.toNat) * 10 ^ ds.length + digitsValue ds :=
          digitsValue_cons d ds
      _ < 9 * 10 ^ ds.length + 10 ^ ds.length :=
          Nat.add_lt_add_of_le_of_lt (Nat.mul_le_mul_right _ hdigit) htail
      _ = 10 ^ (ds.length + 1) := by ring

/-- Texts of one length are ordered as their numbers are. -/
theorem lt_iff_digitsValue_lt {ds es : List Char} (hds : ∀ c ∈ ds, c.isDigit = true)
    (hes : ∀ c ∈ es, c.isDigit = true) (hlen : ds.length = es.length) :
    ds < es ↔ digitsValue ds < digitsValue es := by
  induction ds generalizing es with
  | nil =>
    obtain rfl := List.eq_nil_of_length_eq_zero hlen.symm
    simp
  | cons d ds ih =>
    cases es with
    | nil => cases hlen
    | cons e es =>
      have hds' : ∀ c ∈ ds, c.isDigit = true := fun c hc => hds c (List.mem_cons_of_mem d hc)
      have hes' : ∀ c ∈ es, c.isDigit = true := fun c hc => hes c (List.mem_cons_of_mem e hc)
      have hlen' : ds.length = es.length := Nat.succ.inj hlen
      have hd := Char.isDigit_iff_toNat.mp (hds d List.mem_cons_self)
      have he := Char.isDigit_iff_toNat.mp (hes e List.mem_cons_self)
      have hdv := digitsValue_lt hds'
      have hev := digitsValue_lt hes'
      rw [List.cons_lt_cons_iff, ih hds' hes' hlen', digitsValue_cons, digitsValue_cons, ← hlen']
      rw [← hlen'] at hev
      rcases lt_trichotomy d e with hde | rfl | hde
      · -- A smaller leading digit outweighs every tail.
        have hle : d.toNat - '0'.toNat + 1 ≤ e.toNat - '0'.toNat := by
          have : d.toNat < e.toNat := hde
          omega
        have hmul := Nat.mul_le_mul_right (10 ^ ds.length) hle
        rw [Nat.add_mul, Nat.one_mul] at hmul
        simp only [hde, true_or, true_iff]
        omega
      · simp
      · have hle : e.toNat - '0'.toNat + 1 ≤ d.toNat - '0'.toNat := by
          have : e.toNat < d.toNat := hde
          omega
        have hmul := Nat.mul_le_mul_right (10 ^ ds.length) hle
        rw [Nat.add_mul, Nat.one_mul] at hmul
        simp only [hde.not_gt, hde.ne', false_and, or_self, false_iff]
        omega

/-! ## Canonical decimal text -/

/-- The canonical decimal text of a number: digits without a leading zero. -/
structure CanonicalDecimal (s : String) : Prop where
  digits : ∀ c ∈ s.toList, c.isDigit = true
  nonempty : s.toList ≠ []
  leading : s.toList.head? = some '0' → s.toList.length = 1

/-- The number that a decimal text denotes. -/
def decimalValue (s : String) : Nat := digitsValue s.toList

namespace CanonicalDecimal

variable {s t : String}

/-- Two or more canonical digits make at least the matching power of ten. -/
theorem pow_le (h : CanonicalDecimal s) (hlen : 1 < s.toList.length) :
    10 ^ (s.toList.length - 1) ≤ decimalValue s := by
  obtain ⟨d, ds, hs⟩ := List.exists_cons_of_ne_nil h.nonempty
  have hd := Char.isDigit_iff_toNat.mp (h.digits d (by rw [hs]; exact List.mem_cons_self))
  have hne : d ≠ '0' := by
    rintro rfl
    have := h.leading (by rw [hs]; rfl)
    omega
  have hpos : 1 ≤ d.toNat - '0'.toNat := by
    have : d.toNat ≠ '0'.toNat := fun he => hne (Char.toNat_inj.mp he)
    omega
  rw [decimalValue, hs, digitsValue_cons, List.length_cons, Nat.add_sub_cancel]
  calc 10 ^ ds.length = 1 * 10 ^ ds.length := (Nat.one_mul _).symm
    _ ≤ (d.toNat - '0'.toNat) * 10 ^ ds.length := Nat.mul_le_mul_right _ hpos
    _ ≤ _ := Nat.le_add_right _ _

/-- The longer number is the larger. -/
theorem value_lt_of_length_lt (hs : CanonicalDecimal s) (ht : CanonicalDecimal t)
    (hlen : s.toList.length < t.toList.length) : decimalValue s < decimalValue t := by
  have hpos : 0 < s.toList.length := List.length_pos_iff.mpr hs.nonempty
  calc decimalValue s < 10 ^ s.toList.length := digitsValue_lt hs.digits
    _ ≤ 10 ^ (t.toList.length - 1) := Nat.pow_le_pow_right (by decide) (by omega)
    _ ≤ decimalValue t := ht.pow_le (by omega)

/-- The cast of a canonical text is its number, up to the largest integer. -/
theorem castInteger_eq (h : CanonicalDecimal s) :
    castInteger s = min maxInteger (decimalValue s : Int) := by
  obtain ⟨d, ds, hs⟩ := List.exists_cons_of_ne_nil h.nonempty
  have hd : d.isDigit = true := h.digits d (by rw [hs]; exact List.mem_cons_self)
  have htake : (d :: ds).takeWhile Char.isDigit = d :: ds :=
    List.takeWhile_eq_self_iff.mpr (hs ▸ h.digits)
  have hblank : isBlank d = false := by
    by_contra hb
    simp only [isBlank, Bool.not_eq_false, Bool.or_eq_true, decide_eq_true_eq] at hb
    rcases hb with ((((rfl | rfl) | rfl) | rfl) | rfl) | rfl <;> cases hd
  unfold castInteger decimalValue
  rw [hs, List.dropWhile_cons_of_neg (by rw [hblank]; exact Bool.false_ne_true)]
  split
  · rename_i heq
    cases heq
    cases hd
  · rename_i heq
    cases heq
    cases hd
  · rw [htake]

end CanonicalDecimal

/-- The shorter text is at most the leading digits of the longer one. -/
def LeadingDigitsAgree (s t : String) : Prop :=
  s.toList.length = t.toList.length ∨
  s.toList.length < t.toList.length ∧
    decimalValue s ≤ digitsValue (t.toList.take s.toList.length) ∨
  t.toList.length < s.toList.length ∧
    decimalValue t ≤ digitsValue (s.toList.take t.toList.length)

/-- The order of the text is the order of the numbers exactly when the leading
digits agree with the lengths. -/
theorem text_lt_iff_digitsValue_lt {s t : String} (hs : CanonicalDecimal s)
    (ht : CanonicalDecimal t) :
    (s < t ↔ decimalValue s < decimalValue t) ↔ LeadingDigitsAgree s t := by
  rw [String.lt_iff]
  rcases lt_trichotomy s.toList.length t.toList.length with hlen | hlen | hlen
  · have hvalue := hs.value_lt_of_length_lt ht hlen
    have hlt : s.toList < t.toList ↔
        decimalValue s ≤ digitsValue (t.toList.take s.toList.length) := by
      have htake : s.toList.length = (t.toList.take s.toList.length).length := by
        rw [List.length_take]
        omega
      have hdrop : t.toList.drop s.toList.length ≠ [] := by
        rw [Ne, List.drop_eq_nil_iff]
        omega
      have hdigits : ∀ c ∈ t.toList.take s.toList.length, c.isDigit = true :=
        fun c hc => ht.digits c (List.mem_of_mem_take hc)
      have h := lt_append_iff htake hdrop
      rw [List.take_append_drop] at h
      rw [h, lt_iff_digitsValue_lt hdigits hs.digits htake.symm, not_lt]
      rfl
    simp only [LeadingDigitsAgree, hvalue, iff_true, hlt, hlen, hlen.ne, hlen.not_gt, true_and,
      false_and, false_or, or_false]
  · have hlt := lt_iff_digitsValue_lt hs.digits ht.digits hlen
    simp only [LeadingDigitsAgree, hlen, true_or, iff_true]
    exact hlt
  · have hvalue := ht.value_lt_of_length_lt hs hlen
    have hlt : s.toList < t.toList ↔
        digitsValue (s.toList.take t.toList.length) < decimalValue t := by
      have htake : (s.toList.take t.toList.length).length = t.toList.length := by
        rw [List.length_take]
        omega
      have hdigits : ∀ c ∈ s.toList.take t.toList.length, c.isDigit = true :=
        fun c hc => hs.digits c (List.mem_of_mem_take hc)
      have h := append_lt_iff htake (s.toList.drop t.toList.length)
      rw [List.take_append_drop] at h
      rw [h, lt_iff_digitsValue_lt hdigits ht.digits htake]
      rfl
    simp only [LeadingDigitsAgree, hvalue.not_gt, iff_false, hlt, not_lt, hlen, hlen.ne',
      hlen.not_gt, true_and, false_and, false_or]

end Relational
