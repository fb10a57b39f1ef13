import Mathlib.Data.List.Basic
import Mathlib.Data.List.Pairwise

/-!
# Relational tables with unique constraints

A small model of SQL tables. A `Keyed` row type says which two rows may not
stand in one table (its primary key together with its unique indexes, partial
ones included), and a `Table` is a list of rows that carries the proof that no
two of them do. The statements a program runs against it are total functions:

- `insertOrIgnore` / `insert?` (`INSERT OR IGNORE`, `INSERT`),
- `update` (an `UPDATE` that cannot break a constraint) and `update?` (an
  `UPDATE` that may, and fails then),
- `delete`, and the reads `any` (`EXISTS`), `count` (`COUNT(*)`), `find?`.

The rules below them say which rows a statement leaves behind
(`mem_insertOrIgnore`, `mem_delete`, ...), how many rows under a key it leaves
(`count_update`, ...) and what it does to the row found there
(`find?_update?`, ...).
-/

namespace Relational

universe u

/-- The unique constraints of a row type: `conflict a b` holds when `a` and `b`
may not both be stored. -/
class Keyed (ρ : Type u) where
  conflict : ρ → ρ → Bool
  symm : ∀ a b, conflict a b = conflict b a

open Keyed

/-- A table: rows no two of which conflict. -/
@[ext]
structure Table (ρ : Type u) [Keyed ρ] where
  rows : List ρ
  unique : rows.Pairwise fun a b => conflict a b = false

variable {ρ : Type u} [Keyed ρ]

/-- Rewriting a row that meets `p` by `f` never makes it conflict with another:
the key columns are left alone, or only leave a partial index. -/
def Compatible (p : ρ → Bool) (f : ρ → ρ) : Prop :=
  ∀ a b, p a = true → conflict (f a) b = true → conflict a b = true

namespace Table

instance : Membership ρ (Table ρ) where
  mem t r := r ∈ t.rows

theorem mem_def {t : Table ρ} {r : ρ} : r ∈ t ↔ r ∈ t.rows := Iff.rfl

instance [DecidableEq ρ] (t : Table ρ) (r : ρ) : Decidable (r ∈ t) :=
  inferInstanceAs (Decidable (r ∈ t.rows))

instance {I : ρ → Prop} [DecidablePred I] (t : Table ρ) : Decidable (∀ r ∈ t, I r) :=
  inferInstanceAs (Decidable (∀ r ∈ t.rows, I r))

instance [DecidableEq ρ] : DecidableEq (Table ρ) := fun a b =>
  decidable_of_iff (a.rows = b.rows) ⟨fun h => Table.ext h, fun h => h ▸ rfl⟩

/-! ## Reads -/

/-- The empty table. -/
def empty : Table ρ := ⟨[], List.Pairwise.nil⟩

/-- `EXISTS (SELECT 1 FROM t WHERE p)`. -/
def any (t : Table ρ) (p : ρ → Bool) : Bool := t.rows.any p

/-- `SELECT COUNT(*) FROM t WHERE p`. -/
def count (t : Table ρ) (p : ρ → Bool) : Nat := t.rows.countP p

/-- The first row of `SELECT * FROM t WHERE p`. -/
def find? (t : Table ρ) (p : ρ → Bool) : Option ρ := t.rows.find? p

@[simp] theorem not_mem_empty {r : ρ} : ¬ r ∈ (empty : Table ρ) := List.not_mem_nil

@[simp] theorem any_iff {t : Table ρ} {p : ρ → Bool} :
    t.any p = true ↔ ∃ r ∈ t, p r = true := List.any_eq_true

theorem any_eq_false_iff {t : Table ρ} {p : ρ → Bool} :
    t.any p = false ↔ ∀ r ∈ t, p r = false := by
  rw [any, List.any_eq_false]
  simp [mem_def]

theorem count_pos_iff {t : Table ρ} {p : ρ → Bool} :
    0 < t.count p ↔ ∃ r ∈ t, p r = true := List.countP_pos_iff

theorem exists_of_count_eq_one {t : Table ρ} {p : ρ → Bool} (h : t.count p = 1) :
    ∃ r ∈ t, p r = true := count_pos_iff.mp (h ▸ Nat.one_pos)

theorem count_eq_zero_iff {t : Table ρ} {p : ρ → Bool} :
    t.count p = 0 ↔ ∀ r ∈ t, p r = false := by
  rw [count, List.countP_eq_zero]
  simp [mem_def]

theorem mem_of_find? {t : Table ρ} {p : ρ → Bool} {r : ρ} (h : t.find? p = some r) :
    r ∈ t := List.mem_of_find?_eq_some h

theorem of_find? {t : Table ρ} {p : ρ → Bool} {r : ρ} (h : t.find? p = some r) :
    p r = true := List.find?_some h

theorem find?_eq_none_iff {t : Table ρ} {p : ρ → Bool} :
    t.find? p = none ↔ ∀ r ∈ t, p r = false := by
  rw [find?, List.find?_eq_none]
  simp [mem_def]

/-- Two stored rows that conflict are the same row. -/
theorem eq_of_conflict {t : Table ρ} {a b : ρ} (ha : a ∈ t) (hb : b ∈ t)
    (hab : conflict a b = true) : a = b := by
  by_contra hne
  have hsym : Std.Symm fun a b : ρ => conflict a b = false :=
    ⟨fun a b h => (Keyed.symm b a).trans h⟩
  have := t.unique.forall ha hb hne
  rw [this] at hab
  cases hab

/-- A constraint that any two rows satisfying `p` break admits at most one such
row. -/
theorem count_le_one {t : Table ρ} {p : ρ → Bool}
    (hp : ∀ a b, p a = true → p b = true → conflict a b = true) : t.count p ≤ 1 := by
  obtain ⟨rows, hu⟩ := t
  show rows.countP p ≤ 1
  induction rows with
  | nil => simp
  | cons a rest ih =>
    obtain ⟨ha, hrest⟩ := List.pairwise_cons.mp hu
    rw [List.countP_cons]
    by_cases hpa : p a = true
    · have hz : rest.countP p = 0 := by
        rw [List.countP_eq_zero]
        intro b hb hpb
        have := ha b hb
        rw [hp a b hpa hpb] at this
        cases this
      simp [hz, hpa]
    · have := ih hrest
      simp [hpa]
      exact this

/-- A constraint that any two rows satisfying `p` break: one stored row decides the count. -/
theorem count_eq_one_iff {t : Table ρ} {p q : ρ → Bool} {r : ρ}
    (hq : ∀ a b, q a = true → q b = true → conflict a b = true) (hr : r ∈ t) (hqr : q r = true)
    (hp : ∀ a, p a = true → q a = true) : t.count p = 1 ↔ p r = true := by
  have hle : t.count p ≤ 1 := count_le_one fun a b ha hb => hq a b (hp a ha) (hp b hb)
  constructor
  · intro h
    obtain ⟨a, ha, hpa⟩ := exists_of_count_eq_one h
    rwa [← eq_of_conflict ha hr (hq a r (hp a hpa) hqr)]
  · intro hpr
    have hpos : 0 < t.count p := count_pos_iff.mpr ⟨r, hr, hpr⟩
    omega

/-- Looking a row up by a key finds exactly that row. -/
theorem find?_eq_some {t : Table ρ} {p : ρ → Bool} {r : ρ}
    (hp : ∀ a b, p a = true → p b = true → conflict a b = true)
    (hr : r ∈ t) (hpr : p r = true) : t.find? p = some r := by
  cases hf : t.find? p with
  | none =>
    have := find?_eq_none_iff.mp hf r hr
    rw [hpr] at this
    cases this
  | some a =>
    rw [eq_of_conflict (mem_of_find? hf) hr (hp a r (of_find? hf) hpr)]

/-! ## Inserts -/

/-- The table with `r` appended, given that it conflicts with no stored row. -/
def append (t : Table ρ) (r : ρ) (h : t.any (fun a => conflict a r) = false) : Table ρ where
  rows := t.rows ++ [r]
  unique := by
    rw [List.pairwise_append]
    refine ⟨t.unique, List.pairwise_singleton _ _, fun a ha b hb => ?_⟩
    rw [List.mem_singleton.mp hb]
    exact any_eq_false_iff.mp h a ha

/-- `INSERT`: fails on a conflicting row. -/
def insert? (t : Table ρ) (r : ρ) : Option (Table ρ) :=
  if h : t.any (fun a => conflict a r) = false then some (t.append r h) else none

/-- One `INSERT` for each row. -/
def insertAll? (t : Table ρ) (rows : List ρ) : Option (Table ρ) :=
  rows.foldlM (fun t r => t.insert? r) t

/-- `INSERT OR IGNORE`, and the number of rows it inserted. -/
def insertOrIgnore (t : Table ρ) (r : ρ) : Table ρ × Nat :=
  if h : t.any (fun a => conflict a r) = false then (t.append r h, 1) else (t, 0)

@[simp] theorem mem_append {t : Table ρ} {r a : ρ}
    {h : t.any (fun a => conflict a r) = false} :
    a ∈ t.append r h ↔ a ∈ t ∨ a = r := by
  show a ∈ t.rows ++ [r] ↔ _
  simp [mem_def]

theorem insert?_eq_some {t t' : Table ρ} {r : ρ} (h : t.insert? r = some t') :
    (∀ a ∈ t, conflict a r = false) ∧ t'.rows = t.rows ++ [r] := by
  unfold insert? at h
  split at h
  · rename_i hc
    cases h
    exact ⟨any_eq_false_iff.mp hc, rfl⟩
  · cases h

/-- Rows that conflict neither with the table nor with each other are all inserted. -/
theorem exists_insertAll? {t : Table ρ} {rows : List ρ}
    (h : (t.rows ++ rows).Pairwise fun a b => conflict a b = false) :
    ∃ t', t.insertAll? rows = some t' ∧ t'.rows = t.rows ++ rows := by
  induction rows generalizing t with
  | nil => exact ⟨t, rfl, (List.append_nil _).symm⟩
  | cons r rows ih =>
    have hfresh : t.any (fun a => conflict a r) = false :=
      any_eq_false_iff.mpr fun a ha =>
        (List.pairwise_append.mp h).2.2 a ha r List.mem_cons_self
    have hinsert : t.insert? r = some (t.append r hfresh) := dif_pos hfresh
    have hrows : (t.append r hfresh).rows ++ rows = t.rows ++ r :: rows := by
      show (t.rows ++ [r]) ++ rows = _
      rw [List.append_assoc, List.singleton_append]
    rw [← hrows] at h ⊢
    obtain ⟨t', ht', hrows'⟩ := ih h
    refine ⟨t', ?_, hrows'⟩
    rw [insertAll?, List.foldlM_cons, hinsert]
    exact ht'

theorem insertOrIgnore_cases (t : Table ρ) (r : ρ) :
    (∃ a ∈ t, conflict a r = true) ∧ t.insertOrIgnore r = (t, 0) ∨
    ∃ h : t.any (fun a => conflict a r) = false,
      t.insertOrIgnore r = (t.append r h, 1) := by
  unfold insertOrIgnore
  split
  · rename_i h
    exact .inr ⟨h, rfl⟩
  · rename_i h
    rw [Bool.not_eq_false, any_iff] at h
    exact .inl ⟨h, rfl⟩

theorem insertOrIgnore_of_fresh {t : Table ρ} {r : ρ}
    (h : t.any (fun a => conflict a r) = false) : t.insertOrIgnore r = (t.append r h, 1) :=
  dif_pos h

theorem mem_insertOrIgnore {t : Table ρ} {r a : ρ} (h : a ∈ (t.insertOrIgnore r).1) :
    a ∈ t ∨ a = r := by
  obtain ⟨-, he⟩ | ⟨hn, he⟩ := insertOrIgnore_cases t r
  · rw [he] at h
    exact .inl h
  · rw [he] at h
    have h' : a ∈ t.append r hn := h
    exact mem_append.mp h'

theorem subset_insertOrIgnore {t : Table ρ} {r a : ρ} (h : a ∈ t) :
    a ∈ (t.insertOrIgnore r).1 := by
  obtain ⟨-, he⟩ | ⟨hn, he⟩ := insertOrIgnore_cases t r
  · rw [he]
    exact h
  · rw [he]
    show a ∈ t.append r hn
    exact mem_append.mpr (.inl h)

theorem find?_append {t : Table ρ} {r : ρ} {h : t.any (fun a => conflict a r) = false}
    (p : ρ → Bool) :
    (t.append r h).find? p = (t.find? p).or (if p r then some r else none) := by
  show (t.rows ++ [r]).find? p = _
  rw [List.find?_append, find?]
  cases hp : p r <;> simp [hp]

/-! ## Updates -/

/-- The row an `UPDATE ... WHERE p` leaves for `r`. -/
def rewrite (p : ρ → Bool) (f : ρ → ρ) (r : ρ) : ρ := if p r then f r else r

theorem conflict_rewrite {p : ρ → Bool} {f : ρ → ρ} (hf : Compatible p f) {a b : ρ}
    (h : conflict (rewrite p f a) (rewrite p f b) = true) : conflict a b = true := by
  have hl : ∀ a b, conflict (rewrite p f a) b = true → conflict a b = true := by
    intro a b h
    unfold rewrite at h
    split at h
    · rename_i hp
      exact hf a b hp h
    · exact h
  rw [Keyed.symm]
  apply hl
  rw [Keyed.symm]
  exact hl a _ h

/-- `UPDATE t SET f WHERE p`, for an update that cannot break a constraint. -/
def update (t : Table ρ) (p : ρ → Bool) (f : ρ → ρ)
    (hf : Compatible p f := by exact fun _ _ _ h => h) : Table ρ where
  rows := t.rows.map (rewrite p f)
  unique := by
    rw [List.pairwise_map]
    refine t.unique.imp fun {a b} h => ?_
    rw [← Bool.not_eq_true] at h ⊢
    exact fun h' => h (conflict_rewrite hf h')

/-- `UPDATE t SET f WHERE p`, failing when the rows it leaves would conflict. -/
def update? (t : Table ρ) (p : ρ → Bool) (f : ρ → ρ) : Option (Table ρ) :=
  if h : (t.rows.map (rewrite p f)).Pairwise (fun a b => conflict a b = false) then
    some ⟨t.rows.map (rewrite p f), h⟩
  else none

/-- An update of a single row succeeds when that row comes into no new conflict. -/
theorem exists_update? {t : Table ρ} {p : ρ → Bool} {f : ρ → ρ}
    (hp : ∀ a b, p a = true → p b = true → conflict a b = true)
    (hf : ∀ a ∈ t, ∀ b ∈ t, p a = true → conflict (f a) b = true → conflict a b = true) :
    ∃ t', t.update? p f = some t' := by
  have hkept : (t.rows.map (rewrite p f)).Pairwise fun a b => conflict a b = false := by
    refine List.pairwise_map.mpr (t.unique.imp_of_mem fun {a b} ha hb hab => ?_)
    rw [← Bool.not_eq_true] at hab ⊢
    intro h
    unfold rewrite at h
    split at h <;> split at h
    · exact hab (hp a b ‹_› ‹_›)
    · exact hab (hf a ha b hb ‹_› h)
    · rw [Keyed.symm] at h
      exact hab (Keyed.symm b a ▸ hf b hb a ha ‹_› h)
    · exact hab h
  exact ⟨_, dif_pos hkept⟩

/-- `INSERT INTO t VALUES r ON CONFLICT DO UPDATE SET f WHERE p`, and the number
of rows inserted or updated. -/
def upsert (t : Table ρ) (r : ρ) (p : ρ → Bool) (f : ρ → ρ)
    (hf : Compatible (fun a => conflict a r && p a) f := by exact fun _ _ _ h => h) :
    Table ρ × Nat :=
  if h : t.any (fun a => conflict a r) = false then (t.append r h, 1)
  else (t.update (fun a => conflict a r && p a) f hf, t.count fun a => conflict a r && p a)

theorem upsert_snd {t : Table ρ} {r : ρ} {p : ρ → Bool} {f : ρ → ρ}
    {hf : Compatible (fun a => conflict a r && p a) f} : (t.upsert r p f hf).2 =
      if t.any (fun a => conflict a r) = false then 1
      else t.count fun a => conflict a r && p a := by
  unfold upsert
  split <;> rfl

/-- A row that an update touches is in the table it leaves, rewritten. -/
theorem mem_rewritten {t t' : Table ρ} {p : ρ → Bool} {f : ρ → ρ} {r : ρ}
    (hrows : t'.rows = t.rows.map (rewrite p f)) (hr : r ∈ t) (hp : p r = true) : f r ∈ t' := by
  rw [mem_def, hrows]
  refine List.mem_map.mpr ⟨r, hr, ?_⟩
  rw [rewrite, if_pos hp]

theorem update?_eq_some {t t' : Table ρ} {p : ρ → Bool} {f : ρ → ρ}
    (h : t.update? p f = some t') : t'.rows = t.rows.map (rewrite p f) := by
  unfold update? at h
  split at h
  · cases h
    rfl
  · cases h

theorem mem_update? {t t' : Table ρ} {p : ρ → Bool} {f : ρ → ρ} (h : t.update? p f = some t')
    {r : ρ} : r ∈ t' ↔ ∃ a ∈ t, rewrite p f a = r := by
  rw [mem_def, update?_eq_some h]
  exact List.mem_map

/-- An update whose condition no row meets changes nothing. -/
theorem update_eq_self {t : Table ρ} {p : ρ → Bool} {f : ρ → ρ} {hf : Compatible p f}
    (h : t.count p = 0) : t.update p f hf = t := by
  apply Table.ext
  show t.rows.map (rewrite p f) = t.rows
  refine (List.map_congr_left fun r hr => ?_).trans (List.map_id _)
  simp [rewrite, count_eq_zero_iff.mp h r hr]

omit [Keyed ρ] in
private theorem find?_map_rewrite {rows : List ρ} {p q : ρ → Bool} {f : ρ → ρ}
    (hq : ∀ r, q (f r) = q r) :
    (rows.map (rewrite p f)).find? q = (rows.find? q).map (rewrite p f) := by
  rw [List.find?_map]
  congr 2
  funext r
  show q (rewrite p f r) = q r
  unfold rewrite
  split
  · exact hq r
  · rfl

/-- An update that keeps `q` on the rows it touches keeps the number of rows that
meet it. -/
theorem count_update {t : Table ρ} {p q : ρ → Bool} {f : ρ → ρ} (hf : Compatible p f)
    (hq : ∀ r ∈ t, p r = true → q (f r) = q r) : (t.update p f hf).count q = t.count q := by
  show (t.rows.map (rewrite p f)).countP q = t.rows.countP q
  rw [List.countP_map]
  refine List.countP_congr fun r hr => ?_
  show q (rewrite p f r) = true ↔ q r = true
  unfold rewrite
  split
  · rename_i hp
    rw [hq r hr hp]
  · rfl

theorem find?_update {t : Table ρ} {p q : ρ → Bool} {f : ρ → ρ} (hf : Compatible p f)
    (hq : ∀ r, q (f r) = q r) : (t.update p f hf).find? q = (t.find? q).map (rewrite p f) :=
  find?_map_rewrite hq

theorem find?_update? {t t' : Table ρ} {p q : ρ → Bool} {f : ρ → ρ}
    (h : t.update? p f = some t') (hq : ∀ r, q (f r) = q r) :
    t'.find? q = (t.find? q).map (rewrite p f) := by
  rw [find?, update?_eq_some h]
  exact find?_map_rewrite hq

/-! ## Deletes -/

/-- `DELETE FROM t WHERE p`. -/
def delete (t : Table ρ) (p : ρ → Bool) : Table ρ where
  rows := t.rows.filter fun r => !p r
  unique := t.unique.filter _

@[simp] theorem mem_delete {t : Table ρ} {p : ρ → Bool} {r : ρ} :
    r ∈ t.delete p ↔ r ∈ t ∧ p r = false := by
  show r ∈ t.rows.filter _ ↔ _
  simp [mem_def]

/-- Of the row under a key a delete leaves that row or none. -/
theorem find?_delete {t : Table ρ} {p q : ρ → Bool}
    (hq : ∀ a b, q a = true → q b = true → conflict a b = true) :
    (t.delete p).find? q = (t.find? q).filter fun r => !p r := by
  cases hfound : t.find? q with
  | none =>
    rw [Option.filter_none, find?_eq_none_iff]
    intro r hr
    exact find?_eq_none_iff.mp hfound r (mem_delete.mp hr).1
  | some r =>
    have hr : r ∈ t := mem_of_find? hfound
    have hqr : q r = true := of_find? hfound
    have honly : ∀ a ∈ t, q a = true → a = r := fun a ha hqa =>
      eq_of_conflict ha hr (hq a r hqa hqr)
    cases hp : p r with
    | true =>
      rw [Option.filter_some, hp, Bool.not_true, if_neg Bool.false_ne_true, find?_eq_none_iff]
      intro a ha
      obtain ⟨hmem, hkept⟩ := mem_delete.mp ha
      by_contra hqa
      rw [honly a hmem (Bool.not_eq_false _ ▸ hqa)] at hkept
      rw [hp] at hkept
      cases hkept
    | false =>
      rw [Option.filter_some, hp, Bool.not_false, if_pos rfl]
      exact find?_eq_some hq (mem_delete.mpr ⟨hr, hp⟩) hqr

/-- A delete whose condition no row meets changes nothing. -/
theorem delete_eq_self {t : Table ρ} {p : ρ → Bool} (h : t.count p = 0) :
    t.delete p = t := by
  apply Table.ext
  show t.rows.filter _ = t.rows
  rw [List.filter_eq_self]
  intro r hr
  simp [count_eq_zero_iff.mp h r hr]

/-! ## Properties of every row -/

end Table

end Relational
