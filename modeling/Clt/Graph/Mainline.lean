import Mathlib.Data.List.Nodup

/-!
# Mainlines

In a history every node comes after its parents. The mainline of a node follows the first parent
of each, and a path along it leads from one node of the mainline up to another
(`MainlinePath`). What lies between two nodes is the mainline of the upper one without what the
lower one comes from (`between`), and that is the path between them when there is one
(`MainlinePath.between_eq`).
-/

namespace Graph

universe u

/-- Nodes with their parents, each of which comes before them. -/
structure History (α : Type u) where
  parents : α → List α
  rank : α → Nat
  rank_lt : ∀ a, ∀ p ∈ parents a, rank p < rank a

namespace History

variable {α : Type u} (h : History α)

/-- The mainline of a node, as far as the fuel goes. -/
def mainlineFrom : Nat → α → List α
  | 0, _ => []
  | fuel + 1, a =>
    a :: match (h.parents a).head? with
      | some p => mainlineFrom fuel p
      | none => []

/-- A node, its first parent, the first parent of that, and so on. -/
def mainline (a : α) : List α := h.mainlineFrom (h.rank a + 1) a

variable [DecidableEq α]

/-- Whether the first node comes from the second, as far as the fuel goes. -/
def comesFromWithin : Nat → α → α → Bool
  | 0, _, _ => false
  | fuel + 1, a, b => a == b || (h.parents a).any fun p => comesFromWithin fuel p b

/-- Whether the first node is the second, or comes from it through any parents. -/
def comesFrom (a b : α) : Bool := h.comesFromWithin (h.rank a + 1) a b

/-- The mainline of `tip` without what `start` comes from, the oldest node first. -/
def between (start tip : α) : List α :=
  ((h.mainline tip).filter fun a => !h.comesFrom start a).reverse

omit [DecidableEq α] in
/-- The nodes that lead up the mainline from `start` to `tip`, without `start`. -/
inductive MainlinePath (start : α) : α → List α → Prop
  | refl : MainlinePath start start []
  | step {tip p : α} {path : List α} (parent : (h.parents tip).head? = some p)
      (below : MainlinePath start p path) : MainlinePath start tip (path ++ [tip])

variable {h}

/-! ## Mainlines -/

section Mainline

omit [DecidableEq α]

theorem rank_lt_of_head? {a p : α} (hp : (h.parents a).head? = some p) : h.rank p < h.rank a :=
  h.rank_lt a p (List.mem_of_head? hp)

/-- More fuel than the rank makes no difference. -/
theorem mainlineFrom_eq {a : α} {m n : Nat} (hm : h.rank a < m) (hn : h.rank a < n) :
    h.mainlineFrom m a = h.mainlineFrom n a := by
  induction m generalizing a n with
  | zero => omega
  | succ m ih =>
    cases n with
    | zero => omega
    | succ n =>
      unfold mainlineFrom
      cases hp : (h.parents a).head? with
      | none => rfl
      | some p =>
        have hlt := rank_lt_of_head? hp
        exact congrArg (a :: ·) (ih (by omega) (by omega))

theorem mainline_of_parent {a p : α} (hp : (h.parents a).head? = some p) :
    h.mainline a = a :: h.mainline p := by
  have hlt := rank_lt_of_head? hp
  have hbelow : h.mainlineFrom (h.rank a) p = h.mainline p := mainlineFrom_eq hlt (by omega)
  rw [mainline, mainlineFrom, hp, ← hbelow]

theorem mainline_of_root {a : α} (hp : (h.parents a).head? = none) : h.mainline a = [a] := by
  rw [mainline, mainlineFrom, hp]

theorem mem_mainline_self (a : α) : a ∈ h.mainline a := List.mem_cons_self

/-- A node of the mainline has a path from it. -/
theorem exists_path_of_mem {start tip : α} (hmem : start ∈ h.mainline tip) :
    ∃ path, h.MainlinePath start tip path := by
  induction hrank : h.rank tip using Nat.strongRecOn generalizing tip with
  | _ n ih =>
    cases hp : (h.parents tip).head? with
    | none =>
      rw [mainline_of_root hp, List.mem_singleton] at hmem
      exact ⟨[], hmem ▸ .refl⟩
    | some p =>
      rw [mainline_of_parent hp] at hmem
      rcases List.mem_cons.mp hmem with rfl | hbelow
      · exact ⟨[], .refl⟩
      · have hlt := rank_lt_of_head? hp
        obtain ⟨path, hpath⟩ := ih (h.rank p) (hrank ▸ hlt) hbelow rfl
        exact ⟨path ++ [tip], .step hp hpath⟩

end Mainline

namespace MainlinePath

variable {start tip : α} {path : List α}

section Paths

omit [DecidableEq α]

theorem start_mem (hpath : h.MainlinePath start tip path) : start ∈ h.mainline tip := by
  induction hpath with
  | refl => exact mem_mainline_self start
  | step parent _ ih =>
    rw [mainline_of_parent parent]
    exact List.mem_cons_of_mem _ ih

theorem rank_le (hpath : h.MainlinePath start tip path) : h.rank start ≤ h.rank tip := by
  induction hpath with
  | refl => exact Nat.le_refl _
  | step parent _ ih =>
    have hlt := rank_lt_of_head? parent
    omega

/-- Two paths one after the other. -/
theorem trans {next : α} {path' : List α} (hpath : h.MainlinePath start tip path)
    (hnext : h.MainlinePath tip next path') : h.MainlinePath start next (path ++ path') := by
  induction hnext with
  | refl => simpa using hpath
  | step parent _ ih =>
    rw [← List.append_assoc]
    exact .step parent ih

/-- Of two nodes of one mainline, one lies below the other. -/
theorem comparable {start' : α} {path' : List α} (hpath : h.MainlinePath start tip path)
    (hpath' : h.MainlinePath start' tip path') :
    (∃ r, h.MainlinePath start start' r ∧ path = r ++ path') ∨
    ∃ r, h.MainlinePath start' start r ∧ path' = r ++ path := by
  induction hpath generalizing path' with
  | refl => exact .inr ⟨path', hpath', (List.append_nil _).symm⟩
  | step parent below ih =>
    cases hpath' with
    | refl => exact .inl ⟨_, .step parent below, (List.append_nil _).symm⟩
    | step parent' below' =>
      obtain rfl := Option.some.inj (parent.symm.trans parent')
      rcases ih below' with ⟨r, hr, rfl⟩ | ⟨r, hr, rfl⟩
      · exact .inl ⟨r, hr, List.append_assoc ..⟩
      · exact .inr ⟨r, hr, List.append_assoc ..⟩

theorem rank_le_of_mem (hpath : h.MainlinePath start tip path) {a : α} (ha : a ∈ path) :
    h.rank a ≤ h.rank tip := by
  induction hpath with
  | refl => cases ha
  | step parent below ih =>
    rcases List.mem_append.mp ha with ha | ha
    · have hlt := rank_lt_of_head? parent
      have hle := ih ha
      omega
    · obtain rfl := List.mem_singleton.mp ha
      exact Nat.le_refl _

/-- A path visits no node twice. -/
theorem nodup (hpath : h.MainlinePath start tip path) : path.Nodup := by
  induction hpath with
  | refl => exact List.nodup_nil
  | step parent below ih =>
    refine List.nodup_append.mpr ⟨ih, List.nodup_singleton _, ?_⟩
    rintro a ha b hb rfl
    obtain rfl := List.mem_singleton.mp hb
    have hlt := rank_lt_of_head? parent
    have hle := below.rank_le_of_mem ha
    omega

end Paths

/-! ## What lies between two nodes -/

theorem rank_le_of_comesFromWithin {fuel : Nat} {a b : α}
    (hfrom : h.comesFromWithin fuel a b = true) : h.rank b ≤ h.rank a := by
  induction fuel generalizing a with
  | zero => cases hfrom
  | succ fuel ih =>
    simp only [comesFromWithin, Bool.or_eq_true, beq_iff_eq, List.any_eq_true] at hfrom
    rcases hfrom with rfl | ⟨p, hp, hbelow⟩
    · exact Nat.le_refl _
    · have hlt := h.rank_lt a p hp
      have hle := ih hbelow
      omega

theorem comesFromWithin_of_mem {fuel : Nat} {a b : α} (hfuel : h.rank a < fuel)
    (hmem : b ∈ h.mainline a) : h.comesFromWithin fuel a b = true := by
  induction fuel generalizing a with
  | zero => omega
  | succ fuel ih =>
    simp only [comesFromWithin, Bool.or_eq_true, beq_iff_eq, List.any_eq_true]
    cases hp : (h.parents a).head? with
    | none =>
      rw [mainline_of_root hp, List.mem_singleton] at hmem
      exact .inl hmem.symm
    | some p =>
      rw [mainline_of_parent hp] at hmem
      rcases List.mem_cons.mp hmem with rfl | hbelow
      · exact .inl rfl
      · have hlt := rank_lt_of_head? hp
        exact .inr ⟨p, List.mem_of_head? hp, ih (by omega) hbelow⟩

/-- What lies between the ends of a path is the path. -/
theorem between_eq (hpath : h.MainlinePath start tip path) : h.between start tip = path := by
  induction hpath with
  | refl =>
    unfold between
    rw [List.filter_eq_nil_iff.mpr, List.reverse_nil]
    intro a ha
    rw [Bool.not_eq_true', Bool.not_eq_false]
    exact comesFromWithin_of_mem (Nat.lt_succ_self _) ha
  | step parent below ih =>
    rename_i tip p path
    have hnew : h.comesFrom start tip = false := by
      rw [← Bool.not_eq_true]
      intro hfrom
      have hle := rank_le_of_comesFromWithin hfrom
      have hlt := rank_lt_of_head? parent
      have hbelow := below.rank_le
      omega
    unfold between at ih ⊢
    rw [mainline_of_parent parent, List.filter_cons_of_pos (by simp [hnew]), List.reverse_cons, ih]

end MainlinePath

end History

end Graph
