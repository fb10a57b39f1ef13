import Mathlib.Data.List.Basic

/-!
# Runs of a deterministic transition system

A system whose operations are total functions on its state: `step op s` is the
state that the operation `op` leaves when it is started in `s`, whether it
succeeded, did nothing or failed. A run is a list of operations, so an
interleaving of any number of processes whose operations are atomic is one run
over all their operations.

The rules: an invariant of every step holds after every run (`exec_invariant`),
also when only some steps are known to keep it (`exec_invariant_along`); a
condition that a run acquires is acquired at one of its steps
(`exists_crossing`); an event that disables itself happens at most once
(`occurrences_le_one`).
-/

namespace Transition

universe u v

variable {σ : Type u} {ω : Type v} (step : ω → σ → σ)

/-- The state a run leaves. -/
def exec (ops : List ω) (s : σ) : σ := ops.foldl (fun s op => step op s) s

@[simp] theorem exec_nil (s : σ) : exec step [] s = s := rfl

@[simp] theorem exec_cons (op : ω) (ops : List ω) (s : σ) :
    exec step (op :: ops) s = exec step ops (step op s) := rfl

theorem exec_append (pre post : List ω) (s : σ) :
    exec step (pre ++ post) s = exec step post (exec step pre s) :=
  List.foldl_append

theorem exec_concat (pre : List ω) (op : ω) (s : σ) :
    exec step (pre ++ [op]) s = step op (exec step pre s) :=
  exec_append step pre [op] s

/-! ## Invariants -/

variable {step}

/-- What every step keeps, every run keeps. -/
theorem exec_invariant {I : σ → Prop} (hstep : ∀ op s, I s → I (step op s)) (ops : List ω)
    {s : σ} (h : I s) : I (exec step ops s) := by
  induction ops generalizing s with
  | nil => exact h
  | cons op ops ih => exact ih (hstep op s h)

/-- What every step relates to its start, every run does, for a preorder. -/
theorem exec_related {R : σ → σ → Prop} (hrefl : ∀ s, R s s)
    (htrans : ∀ a b c, R a b → R b c → R a c) (hstep : ∀ op s, R s (step op s))
    (ops : List ω) (s : σ) : R s (exec step ops s) := by
  induction ops generalizing s with
  | nil => exact hrefl s
  | cons op ops ih => exact htrans _ _ _ (hstep op s) (ih (step op s))

variable (step)

/-- Every step of the run is taken in a state that meets `C`. -/
def Along (C : ω → σ → Prop) : List ω → σ → Prop
  | [], _ => True
  | op :: ops, s => C op s ∧ Along C ops (step op s)

instance Along.instDecidable (C : ω → σ → Prop) [∀ op s, Decidable (C op s)] :
    ∀ ops s, Decidable (Along step C ops s)
  | [], _ => .isTrue trivial
  | op :: ops, s =>
    haveI := instDecidable C ops (step op s)
    inferInstanceAs (Decidable (C op s ∧ Along step C ops (step op s)))

variable {step}

theorem along_append {C : ω → σ → Prop} {pre post : List ω} {s : σ} :
    Along step C (pre ++ post) s ↔ Along step C pre s ∧ Along step C post (exec step pre s) := by
  induction pre generalizing s with
  | nil => simp [Along]
  | cons op ops ih =>
    show C op s ∧ Along step C (ops ++ post) (step op s) ↔
      (C op s ∧ Along step C ops (step op s)) ∧ Along step C post (exec step ops (step op s))
    rw [ih, and_assoc]

/-- What every step of the run keeps, the run keeps. -/
theorem exec_invariant_along {I : σ → Prop} {C : ω → σ → Prop}
    (hstep : ∀ op s, C op s → I s → I (step op s)) {ops : List ω} {s : σ}
    (hrun : Along step C ops s) (h : I s) : I (exec step ops s) := by
  induction ops generalizing s with
  | nil => exact h
  | cons op ops ih => exact ih hrun.2 (hstep op s hrun.1 h)

/-! ## Crossings -/

/-- A run that ends in `P` without starting there has a step that enters it. -/
theorem exists_crossing {P : σ → Prop} {ops : List ω} {s : σ} (h0 : ¬ P s)
    (h1 : P (exec step ops s)) :
    ∃ pre op post, ops = pre ++ op :: post ∧ ¬ P (exec step pre s) ∧
      P (step op (exec step pre s)) := by
  induction ops generalizing s with
  | nil => exact absurd h1 h0
  | cons op ops ih =>
    by_cases hp : P (step op s)
    · exact ⟨[], op, ops, rfl, h0, hp⟩
    · obtain ⟨pre, op', post, rfl, hpre, hop⟩ := ih hp h1
      exact ⟨op :: pre, op', post, rfl, hpre, hop⟩

/-! ## Events -/

variable (step)

/-- The number of steps of a run at which the event `E` happens. -/
def occurrences (E : ω → σ → Bool) : List ω → σ → Nat
  | [], _ => 0
  | op :: ops, s => (if E op s then 1 else 0) + occurrences E ops (step op s)

variable {step}

/-- Once a stable condition rules an event out, the event never happens again. -/
theorem occurrences_eq_zero {E : ω → σ → Bool} {D : σ → Prop}
    (hstable : ∀ op s, D s → D (step op s)) (hoff : ∀ op s, D s → E op s = false)
    (ops : List ω) {s : σ} (h : D s) : occurrences step E ops s = 0 := by
  induction ops generalizing s with
  | nil => rfl
  | cons op ops ih =>
    show (if E op s then 1 else 0) + _ = 0
    rw [hoff op s h, ih (hstable op s h)]
    rfl

/-- An event that establishes a stable condition under which it cannot happen
happens at most once. -/
theorem occurrences_le_one {E : ω → σ → Bool} {D : σ → Prop}
    (hstable : ∀ op s, D s → D (step op s)) (hoff : ∀ op s, D s → E op s = false)
    (hon : ∀ op s, E op s = true → D (step op s)) (ops : List ω) (s : σ) :
    occurrences step E ops s ≤ 1 := by
  induction ops generalizing s with
  | nil => exact Nat.zero_le 1
  | cons op ops ih =>
    show (if E op s then 1 else 0) + _ ≤ 1
    by_cases he : E op s = true
    · have hrest := occurrences_eq_zero hstable hoff ops (hon op s he)
      simp only [if_pos he]
      omega
    · rw [if_neg he, Nat.zero_add]
      exact ih (step op s)

end Transition
