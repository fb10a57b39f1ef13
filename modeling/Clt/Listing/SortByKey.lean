import Mathlib.Data.List.InsertIdx
import Mathlib.Data.List.Nodup
import Mathlib.Data.List.Pairwise
import Mathlib.Data.List.Perm.Basic
import Mathlib.Data.List.Sort
import Mathlib.Data.List.TakeWhile

/-!
# Listings

A listing shows items that are stored in no particular order, sorted by a key. The item with
the smallest key comes first (`head?_sortByKey`) and the one with the largest key last
(`getLast?_sortByKey`), wherever they are stored.
-/

namespace Listing

universe u v

variable {α : Type u} {κ : Type v} [LinearOrder κ]

/-- The items in the order of their keys; items with one key stay in the order they had. -/
def sortByKey (key : α → κ) (l : List α) : List α := l.insertionSort fun a b => key a ≤ key b

variable {key : α → κ} {l : List α}

theorem sortByKey_perm (key : α → κ) (l : List α) : (sortByKey key l).Perm l :=
  List.perm_insertionSort _ l

theorem pairwise_sortByKey (key : α → κ) (l : List α) :
    (sortByKey key l).Pairwise fun a b => key a ≤ key b := by
  have : Std.Total fun a b : α => key a ≤ key b := ⟨fun a b => le_total (key a) (key b)⟩
  have : IsTrans α fun a b => key a ≤ key b := ⟨fun _ _ _ => le_trans⟩
  exact List.pairwise_insertionSort _ l

/-! ## The ends of a listing

A listing has the items in some order before they are sorted, and two items may have one key. -/

/-- Items in the order of distinct keys are what sorting gives, wherever they are stored. -/
theorem sortByKey_eq {l' : List α} (hperm : l'.Perm l)
    (hlt : l.Pairwise fun a b => key a < key b) : sortByKey key l' = l := by
  have hkeys : l.Pairwise fun a b => key a ≠ key b := hlt.imp ne_of_lt
  have : Std.Symm fun a b => key a ≠ key b := ⟨fun _ _ h => h.symm⟩
  have hdistinct := hkeys.forall
  refine ((sortByKey_perm key l').trans hperm).eq_of_pairwise
    (fun a b ha hb hab hba => ?_) (pairwise_sortByKey key l') (hlt.imp le_of_lt)
  by_contra hne
  exact hdistinct (((sortByKey_perm key l').trans hperm).subset ha) hb hne (le_antisymm hab hba)

/-- An item with the smallest key comes first. -/
theorem head?_sortByKey {l' : List α} {x : α} (hfirst : ∀ a ∈ l, key x < key a)
    (hperm : l'.Perm (x :: l)) : (sortByKey key l').head? = some x := by
  have hall := (sortByKey_perm key l').trans hperm
  cases hsorted : sortByKey key l' with
  | nil =>
    rw [hsorted] at hall
    cases hall.nil_eq
  | cons first rest =>
    rw [hsorted] at hall
    have hle := pairwise_sortByKey key l'
    rw [hsorted, List.pairwise_cons] at hle
    rcases List.mem_cons.mp (hall.subset List.mem_cons_self) with heq | hmem
    · rw [List.head?_cons, heq]
    · -- Another item cannot stand before the one with the smallest key.
      have hx : x ∈ first :: rest := hall.symm.subset List.mem_cons_self
      have hlt := hfirst first hmem
      rcases List.mem_cons.mp hx with rfl | hx
      · exact absurd hlt (lt_irrefl _)
      · exact absurd (hle.1 x hx) (not_le.mpr hlt)

/-- An item with the largest key comes last. -/
theorem getLast?_sortByKey {l' : List α} {x : α} (hlast : ∀ a ∈ l, key a < key x)
    (hperm : l'.Perm (x :: l)) : (sortByKey key l').getLast? = some x := by
  have hall := (sortByKey_perm key l').trans hperm
  rcases List.eq_nil_or_concat (sortByKey key l') with hnil | ⟨rest, last, hsorted⟩
  · rw [hnil] at hall
    cases hall.nil_eq
  · rw [List.concat_eq_append] at hsorted
    rw [hsorted] at hall ⊢
    rw [List.getLast?_concat]
    have hle := pairwise_sortByKey key l'
    rw [hsorted, List.pairwise_append] at hle
    have hin : last ∈ x :: l := hall.subset (List.mem_append_right _ (List.mem_singleton_self _))
    rcases List.mem_cons.mp hin with heq | hmem
    · rw [heq]
    · have hx : x ∈ rest ++ [last] := hall.symm.subset List.mem_cons_self
      have hlt := hlast last hmem
      rcases List.mem_append.mp hx with hrest | hsame
      · exact absurd (hle.2.2 x hrest last (List.mem_singleton_self _)) (not_le.mpr hlt)
      · rw [List.mem_singleton.mp hsame]

/-- An item that is stored first comes last in the listing only with the largest key: of two
items with one key the one that is stored first stays first. -/
theorem lt_of_getLast?_sortByKey_cons {x : α} (hx : x ∉ l)
    (hlast : (sortByKey key (x :: l)).getLast? = some x) : ∀ a ∈ l, key a < key x := by
  intro a ha
  have hsplit := List.insertionSort_cons_eq_take_drop (fun a b => key a ≤ key b) x l
  rw [sortByKey, hsplit] at hlast
  -- Sorting puts the item before those whose key is not below its own.
  rcases hdrop : (sortByKey key l).dropWhile fun b => ¬ key x ≤ key b with _ | ⟨b, bs⟩
  · have hall := List.dropWhile_eq_nil_iff.mp hdrop a ((sortByKey_perm key l).symm.subset ha)
    simpa using hall
  · rw [sortByKey] at hdrop
    rw [hdrop, List.getLast?_append, List.getLast?_cons_cons] at hlast
    have hmem : x ∈ b :: bs := by
      cases hend : (b :: bs).getLast? with
      | none => cases List.getLast?_eq_none_iff.mp hend
      | some c =>
        rw [hend, Option.some_or] at hlast
        obtain rfl := Option.some.inj hlast
        exact List.mem_of_getLast? hend
    rw [← hdrop] at hmem
    exact absurd ((sortByKey_perm key l).subset ((List.dropWhile_sublist _).subset hmem)) hx

/-! ## Plain lists -/

/-- `Vec::insert`, at the end when the list is shorter. -/
def insertAt (l : List α) (index : Nat) (x : α) : List α := l.insertIdx (min index l.length) x

/-- Take one item out of a list and put it at an index of the others. -/
def moveTo (l : List α) (fromIdx toIdx : Nat) : List α :=
  match l[fromIdx]? with
  | some x => insertAt (l.eraseIdx fromIdx) toIdx x
  | none => l

theorem insertAt_perm (l : List α) (index : Nat) (x : α) : (insertAt l index x).Perm (x :: l) :=
  List.perm_insertIdx x l (Nat.min_le_right _ _)

theorem moveTo_perm (l : List α) (fromIdx toIdx : Nat) : (moveTo l fromIdx toIdx).Perm l := by
  unfold moveTo
  split
  · rename_i x hx
    obtain ⟨hlt, rfl⟩ := List.getElem?_eq_some_iff.mp hx
    exact (insertAt_perm _ _ _).trans (List.getElem_cons_eraseIdx_perm hlt)
  · exact List.Perm.refl l

end Listing
