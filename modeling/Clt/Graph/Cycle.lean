import Mathlib.Logic.Relation

/-!
# Cycles of a relation

A relation is acyclic when no node reaches itself. A search that finishes the successors of
a node before the node may conclude about the node from them (`SoundFrom.of_successors`), and
an edit of one node's edges can only close a cycle through that node
(`acyclic_of_changed_at`).
-/

namespace Graph

open Relation

universe u

variable {α : Type u} {r r' : α → α → Prop} {P : α → Prop} {a b : α}

/-- No node reaches itself. -/
def Acyclic (r : α → α → Prop) : Prop := ∀ a, ¬ TransGen r a a

/-- Every node that `a` reaches meets `P` and lies on no cycle. -/
def SoundFrom (r : α → α → Prop) (P : α → Prop) (a : α) : Prop :=
  ∀ b, ReflTransGen r a b → P b ∧ ¬ TransGen r b b

theorem SoundFrom.step (h : SoundFrom r P a) (hab : r a b) : SoundFrom r P b :=
  fun c hbc => h c (ReflTransGen.head hab hbc)

/-- A node is sound once its successors are: a cycle through it passes through one of them. -/
theorem SoundFrom.of_successors (ha : P a) (h : ∀ b, r a b → SoundFrom r P b) :
    SoundFrom r P a := by
  intro b hab
  rcases ReflTransGen.cases_head hab with rfl | ⟨c, hac, hcb⟩
  · refine ⟨ha, fun hcycle => ?_⟩
    obtain ⟨c, hac, hca⟩ := TransGen.head'_iff.mp hcycle
    exact (h c hac a hca).2 hcycle
  · exact h c hac b hcb

/-- A walk over edited edges stays among the old ones, or visits the edited node. -/
theorem transGen_of_changed_at (hold : ∀ x y, r' x y → x ≠ a → r x y) {x y : α}
    (h : TransGen r' x y) : TransGen r x y ∨ ReflTransGen r' x a ∧ TransGen r' a y := by
  induction h with
  | single hxy =>
    by_cases hx : x = a
    · subst hx
      exact .inr ⟨.refl, .single hxy⟩
    · exact .inl (.single (hold _ _ hxy hx))
  | tail hxy hyz ih =>
    rename_i y z
    rcases ih with hwalk | ⟨hxa, hay⟩
    · by_cases hy : y = a
      · subst hy
        exact .inr ⟨hxy.to_reflTransGen, .single hyz⟩
      · exact .inl (hwalk.tail (hold _ _ hyz hy))
    · exact .inr ⟨hxa, hay.tail hyz⟩

/-- Edges that change at one node only close a cycle through that node, or none. -/
theorem acyclic_of_changed_at (hold : ∀ x y, r' x y → x ≠ a → r x y) (hr : Acyclic r)
    (ha : ¬ TransGen r' a a) : Acyclic r' := by
  intro x hcycle
  rcases transGen_of_changed_at hold hcycle with hwalk | ⟨hxa, hax⟩
  · exact hr x hwalk
  · exact ha (TransGen.trans_left hax hxa)

end Graph
