import Clt.Listing.SortByKey

/-!
# The marked items of a list

A list in which some items carry an entry, `read item = some entry`, and the others do not.
Inserting, erasing and replacing at the place of the i-th marked item is inserting, erasing and
replacing the i-th entry, and leaves the items without an entry as they were.
-/

namespace Listing

universe u v

variable {α : Type u} {β : Type v} (read : α → Option β)

/-- The places of the marked items. -/
def positions (l : List α) : List Nat :=
  (l.zipIdx.filter fun item => (read item.1).isSome).map Prod.snd

/-- The items without an entry. -/
def unmarked (l : List α) : List α := l.filter fun a => (read a).isNone

variable {read} {l before after : List α} {a x : α} {y : β} {i k : Nat}

theorem unmarked_append (l₁ l₂ : List α) :
    unmarked read (l₁ ++ l₂) = unmarked read l₁ ++ unmarked read l₂ := List.filter_append ..

theorem unmarked_cons_of_some (h : read a = some y) (l : List α) :
    unmarked read (a :: l) = unmarked read l :=
  List.filter_cons_of_neg (by simp [h])

theorem positions_cons (a : α) (l : List α) :
    positions read (a :: l) =
      (if (read a).isSome then [0] else []) ++ (positions read l).map (· + 1) := by
  have hshift : ∀ items : List (α × Nat),
      ((items.map (Prod.map id (· + 1))).filter fun item => (read item.1).isSome).map Prod.snd =
        ((items.filter fun item => (read item.1).isSome).map Prod.snd).map (· + 1) := by
    intro items
    rw [List.filter_map, List.map_map, List.map_map]
    rfl
  have hsucc : l.zipIdx (0 + 1) = l.zipIdx.map (Prod.map id (· + 1)) :=
    List.zipIdx_succ.trans (List.map_congr_left fun _ _ => rfl)
  unfold positions
  rw [List.zipIdx_cons, hsucc, List.filter_cons]
  split
  · rw [List.map_cons, hshift]
    rfl
  · rw [hshift]
    rfl

/-- The marked items are as many as the entries. -/
theorem length_positions (l : List α) :
    (positions read l).length = (l.filterMap read).length := by
  induction l with
  | nil => rfl
  | cons a l ih =>
    rw [positions_cons, List.length_append, List.length_map, ih, List.filterMap_cons]
    cases h : read a with
    | none => simp
    | some y => simp [Nat.add_comm]

theorem nodup_positions (l : List α) : (positions read l).Nodup := by
  refine (List.filter_sublist.map Prod.snd).nodup ?_
  rw [List.zipIdx_map_snd]
  exact List.nodup_range'

/-- A marked item stands between those before it and those behind it. -/
theorem exists_split (h : (positions read l)[i]? = some k) :
    ∃ before a after y, l = before ++ a :: after ∧ before.length = k ∧ read a = some y ∧
      (before.filterMap read).length = i := by
  induction l generalizing i k with
  | nil => cases h
  | cons a l ih =>
    rw [positions_cons] at h
    cases hread : read a with
    | none =>
      rw [hread, Option.isSome_none, if_neg (by decide), List.nil_append, List.getElem?_map] at h
      obtain ⟨k', hk', rfl⟩ := Option.map_eq_some_iff.mp h
      obtain ⟨before, b, after, y, rfl, rfl, hb, hi⟩ := ih hk'
      refine ⟨a :: before, b, after, y, rfl, rfl, hb, ?_⟩
      rw [List.filterMap_cons_none hread]
      exact hi
    | some y =>
      rw [hread, Option.isSome_some, if_pos rfl, List.singleton_append] at h
      cases i with
      | zero =>
        cases h
        exact ⟨[], a, l, y, rfl, rfl, hread, rfl⟩
      | succ i =>
        rw [List.getElem?_cons_succ, List.getElem?_map] at h
        obtain ⟨k', hk', rfl⟩ := Option.map_eq_some_iff.mp h
        obtain ⟨before, b, after, z, rfl, rfl, hb, hi⟩ := ih hk'
        refine ⟨a :: before, b, after, z, rfl, rfl, hb, ?_⟩
        rw [List.filterMap_cons_some hread, List.length_cons, hi]

theorem filterMap_split (hread : read a = some y) :
    (before ++ a :: after).filterMap read =
      before.filterMap read ++ y :: after.filterMap read := by
  rw [List.filterMap_append, List.filterMap_cons_some hread]

theorem getElem?_of_split (hread : read a = some y) (hi : (before.filterMap read).length = i) :
    ((before ++ a :: after).filterMap read)[i]? = some y := by
  rw [filterMap_split hread, ← hi, List.getElem?_append_right (Nat.le_refl _), Nat.sub_self]
  rfl

/-- The item at the place of the i-th entry has that entry. -/
theorem exists_getElem?_of_positions (h : (positions read l)[i]? = some k) :
    ∃ a y, l[k]? = some a ∧ read a = some y ∧ (l.filterMap read)[i]? = some y := by
  obtain ⟨before, a, after, y, rfl, rfl, hread, hi⟩ := exists_split h
  refine ⟨a, y, ?_, hread, getElem?_of_split hread hi⟩
  rw [List.getElem?_append_right (Nat.le_refl _), Nat.sub_self]
  rfl

/-! ## Changes at a marked item -/

theorem insertIdx_split (before : List α) (x : α) (rest : List α) :
    (before ++ rest).insertIdx before.length x = before ++ x :: rest := by
  induction before with
  | nil => rfl
  | cons b before ih =>
    rw [List.cons_append, List.length_cons, List.insertIdx_succ_cons, ih]
    rfl

theorem eraseIdx_split (before : List α) (a : α) (after : List α) :
    (before ++ a :: after).eraseIdx before.length = before ++ after := by
  rw [List.eraseIdx_append_of_length_le (Nat.le_refl _), Nat.sub_self]
  rfl

theorem set_split (before : List α) (a x : α) (after : List α) :
    (before ++ a :: after).set before.length x = before ++ x :: after := by
  rw [List.set_append_right _ _ (Nat.le_refl _), Nat.sub_self]
  rfl

theorem filterMap_insertIdx (h : (positions read l)[i]? = some k) (hx : read x = some y) :
    (l.insertIdx k x).filterMap read = (l.filterMap read).insertIdx i y := by
  obtain ⟨before, a, after, z, rfl, rfl, hread, rfl⟩ := exists_split h
  rw [insertIdx_split, filterMap_split hx, List.filterMap_append, insertIdx_split]

theorem unmarked_insertIdx (h : (positions read l)[i]? = some k) (hx : read x = some y) :
    unmarked read (l.insertIdx k x) = unmarked read l := by
  obtain ⟨before, a, after, z, rfl, rfl, -, -⟩ := exists_split h
  rw [insertIdx_split, unmarked_append, unmarked_cons_of_some hx, ← unmarked_append]

theorem filterMap_eraseIdx (h : (positions read l)[i]? = some k) :
    (l.eraseIdx k).filterMap read = (l.filterMap read).eraseIdx i := by
  obtain ⟨before, a, after, z, rfl, rfl, hread, rfl⟩ := exists_split h
  rw [eraseIdx_split, filterMap_split hread, eraseIdx_split, List.filterMap_append]

theorem unmarked_eraseIdx (h : (positions read l)[i]? = some k) :
    unmarked read (l.eraseIdx k) = unmarked read l := by
  obtain ⟨before, a, after, z, rfl, rfl, hread, -⟩ := exists_split h
  rw [eraseIdx_split, unmarked_append, unmarked_append, unmarked_cons_of_some hread]

theorem filterMap_set (h : (positions read l)[i]? = some k) (hx : read x = some y) :
    (l.set k x).filterMap read = (l.filterMap read).set i y := by
  obtain ⟨before, a, after, z, rfl, rfl, hread, rfl⟩ := exists_split h
  rw [set_split, filterMap_split hx, filterMap_split hread, set_split]

theorem unmarked_set (h : (positions read l)[i]? = some k) (hx : read x = some y) :
    unmarked read (l.set k x) = unmarked read l := by
  obtain ⟨before, a, after, z, rfl, rfl, hread, -⟩ := exists_split h
  rw [set_split, unmarked_append, unmarked_append, unmarked_cons_of_some hx,
    unmarked_cons_of_some hread]

/-! ## Inserting before the i-th entry -/

theorem insertIdx_length (l : List α) (x : α) : l.insertIdx l.length x = l ++ [x] := by
  have hend := insertIdx_split l x []
  rwa [List.append_nil] at hend

theorem insertAt_of_le (h : l.length ≤ i) (a : α) : insertAt l i a = l ++ [a] := by
  rw [insertAt, Nat.min_eq_right h, insertIdx_length]

variable (read) in
/-- Insert an item before the i-th marked item, or at the end. -/
def insertMarked (l : List α) (i : Nat) (x : α) : List α :=
  l.insertIdx ((positions read l)[i]?.getD l.length) x

theorem filterMap_insertMarked (l : List α) (i : Nat) (hx : read x = some y) :
    (insertMarked read l i x).filterMap read = insertAt (l.filterMap read) i y := by
  unfold insertMarked
  cases h : (positions read l)[i]? with
  | some k =>
    have hi : i < (l.filterMap read).length := by
      obtain ⟨hlt, -⟩ := List.getElem?_eq_some_iff.mp h
      rwa [length_positions] at hlt
    rw [Option.getD_some, filterMap_insertIdx h hx, insertAt, Nat.min_eq_left (Nat.le_of_lt hi)]
  | none =>
    have hi : (l.filterMap read).length ≤ i := by
      rw [← length_positions]
      exact List.getElem?_eq_none_iff.mp h
    rw [Option.getD_none, insertIdx_length, List.filterMap_append, insertAt_of_le hi,
      List.filterMap_cons_some hx]
    rfl

theorem unmarked_insertMarked (l : List α) (i : Nat) (hx : read x = some y) :
    unmarked read (insertMarked read l i x) = unmarked read l := by
  unfold insertMarked
  cases h : (positions read l)[i]? with
  | some k => exact unmarked_insertIdx h hx
  | none =>
    rw [Option.getD_none, insertIdx_length, unmarked_append, unmarked_cons_of_some hx]
    exact List.append_nil _

end Listing
