import Mathlib.Logic.Basic

/-!
# Procedures that can be killed

A procedure changes a durable state in steps. What it does not decide is its fate: what the
others do before each of its steps, how each step turns out, and at which step it is killed.
`Triple` is a Hoare triple with one more postcondition, for what is left when the procedure is
killed: the rules ask for it at every step. What the others do between the steps is bounded by
a relation, under which the assertions have to be stable.
-/

namespace Durable

/-- How a procedure ended. -/
inductive Ended (κ α : Type) where
  | killed
  | failed (error : κ)
  | returned (value : α)

/-- What a procedure does not decide, step by step. -/
structure Fate (ι σ : Type) where
  others : Nat → σ → σ
  answer : Nat → ι
  dies : Nat → Bool

/-- A procedure on the state `σ` that is answered by `ι` and fails with `κ` or returns. Its
second argument counts the steps. -/
def Procedure (ι σ κ α : Type) : Type := Fate ι σ → Nat → σ → Ended κ α × Nat × σ

namespace Procedure

variable {ι σ κ α β : Type}

/-- Go on with the value, or end as the first procedure did. -/
def andThen (p : Procedure ι σ κ α) (f : α → Procedure ι σ κ β) : Procedure ι σ κ β := fun fate t w =>
  match p fate t w with
  | (.returned a, t', w') => f a fate t' w'
  | (.failed e, rest) => (.failed e, rest)
  | (.killed, rest) => (.killed, rest)

instance : Monad (Procedure ι σ κ) where
  pure a := fun _ t w => (.returned a, t, w)
  bind := andThen

/-- Leave with an error. -/
def fail (e : κ) : Procedure ι σ κ α := fun _ t w => (.failed e, t, w)

/-- One step: the others move, and then the procedure is killed or `f` answers. -/
def step (f : ι → σ → Except κ α × σ) : Procedure ι σ κ α := fun fate t w =>
  if fate.dies t then (.killed, t + 1, fate.others t w)
  else match f (fate.answer t) (fate.others t w) with
    | (.ok a, w') => (.returned a, t + 1, w')
    | (.error e, w') => (.failed e, t + 1, w')

/-- Go on with the error as a value. -/
def attempt (p : Procedure ι σ κ α) : Procedure ι σ κ (Except κ α) := fun fate t w =>
  match p fate t w with
  | (.returned a, rest) => (.returned (.ok a), rest)
  | (.failed e, rest) => (.returned (.error e), rest)
  | (.killed, rest) => (.killed, rest)

/-- Run `p` where `c` holds. -/
def whenever (c : Prop) [Decidable c] (p : Procedure ι σ κ Unit) : Procedure ι σ κ Unit :=
  if c then p else pure ()

/-- Leave with the error that was met, or go on with the value. -/
def rethrow : Except κ α → Procedure ι σ κ α
  | .ok a => pure a
  | .error e => fail e

end Procedure

/-! ## Triples -/

section

variable {ι σ κ α β : Type} (rely : σ → σ → Prop)

/-- What a result that was attempted leaves. -/
def Attempted (ok : α → σ → Prop) (error : κ → σ → Prop) : Except κ α → σ → Prop
  | .ok a, w => ok a w
  | .error e, w => error e w

/-- What the three ways to end leave. -/
def Meets (ok : α → σ → Prop) (error : κ → σ → Prop) (crash : σ → Prop) : Ended κ α → σ → Prop
  | .returned a, w => ok a w
  | .failed e, w => error e w
  | .killed, w => crash w

/-- Whatever its fate, when the others keep to `rely`, the procedure started where `pre` holds
leaves what its postconditions say. -/
def Triple (pre : σ → Prop) (p : Procedure ι σ κ α) (ok : α → σ → Prop) (error : κ → σ → Prop)
    (crash : σ → Prop) : Prop :=
  ∀ fate : Fate ι σ, (∀ t w, rely w (fate.others t w)) →
    ∀ t w, pre w → Meets ok error crash (p fate t w).1 (p fate t w).2.2

/-- What the others do keeps the assertion. -/
def Stable (pre : σ → Prop) : Prop := ∀ w w', rely w w' → pre w → pre w'

variable {rely} {pre pre' : σ → Prop} {ok ok' : α → σ → Prop} {error error' : κ → σ → Prop}
  {crash crash' : σ → Prop} {next : β → σ → Prop} {p : Procedure ι σ κ α}

theorem Stable.and (h : Stable rely pre) (h' : Stable rely pre') :
    Stable rely fun w => pre w ∧ pre' w :=
  fun w w' hr hw => ⟨h w w' hr hw.1, h' w w' hr hw.2⟩

theorem Triple.of_pre (h : Triple rely pre p ok error crash) (hpre : ∀ w, pre' w → pre w) :
    Triple rely pre' p ok error crash :=
  fun fate hothers t w hw => h fate hothers t w (hpre w hw)

theorem Meets.mono {r : Ended κ α} {w : σ} (h : Meets ok error crash r w)
    (hok : ∀ a w, ok a w → ok' a w) (herror : ∀ e w, error e w → error' e w)
    (hcrash : ∀ w, crash w → crash' w) : Meets ok' error' crash' r w := by
  cases r with
  | killed => exact hcrash w h
  | failed e => exact herror e w h
  | returned a => exact hok a w h

theorem Triple.mono (h : Triple rely pre p ok error crash) (hok : ∀ a w, ok a w → ok' a w)
    (herror : ∀ e w, error e w → error' e w) (hcrash : ∀ w, crash w → crash' w) :
    Triple rely pre p ok' error' crash' :=
  fun fate hothers t w hw => (h fate hothers t w hw).mono hok herror hcrash

theorem Triple.of_ok (h : Triple rely pre p ok error crash) (hok : ∀ a w, ok a w → ok' a w) :
    Triple rely pre p ok' error crash :=
  h.mono hok (fun _ _ he => he) fun _ hc => hc

/-- A triple whose precondition never holds. -/
theorem Triple.of_false (h : ∀ w, ¬ pre w) : Triple rely pre p ok error crash :=
  fun _ _ _ w hw => absurd hw (h w)

/-- A fact that does not depend on the state. -/
theorem Triple.of_fact {c : Prop} (h : c → Triple rely pre p ok error crash) :
    Triple rely (fun w => c ∧ pre w) p ok error crash :=
  fun fate hothers t w hw => h hw.1 fate hothers t w hw.2

theorem triple_pure {a : α} (h : ∀ w, pre w → ok a w) :
    Triple rely pre (pure a : Procedure ι σ κ α) ok error crash :=
  fun _ _ _ w hw => h w hw

theorem triple_fail {e : κ} (h : ∀ w, pre w → error e w) :
    Triple rely pre (Procedure.fail e : Procedure ι σ κ α) ok error crash :=
  fun _ _ _ w hw => h w hw

/-- A step is killed where its precondition holds, or leaves what its answer says. -/
theorem triple_step {f : ι → σ → Except κ α × σ} (hstable : Stable rely pre)
    (hcrash : ∀ w, pre w → crash w)
    (hok : ∀ i w a, pre w → (f i w).1 = .ok a → ok a (f i w).2)
    (herror : ∀ i w e, pre w → (f i w).1 = .error e → error e (f i w).2) :
    Triple rely pre (Procedure.step f) ok error crash := by
  intro fate hothers t w hw
  have hmoved : pre (fate.others t w) := hstable w _ (hothers t w) hw
  unfold Procedure.step
  by_cases hdies : fate.dies t = true
  · rw [if_pos hdies]
    exact hcrash _ hmoved
  · rw [if_neg hdies]
    rcases hf : f (fate.answer t) (fate.others t w) with ⟨result, w'⟩
    cases result with
    | ok a =>
      have h := hok (fate.answer t) _ a hmoved (by rw [hf])
      rw [hf] at h
      exact h
    | error e =>
      have h := herror (fate.answer t) _ e hmoved (by rw [hf])
      rw [hf] at h
      exact h

theorem Triple.bind {f : α → Procedure ι σ κ β} (hp : Triple rely pre p ok error crash)
    (hf : ∀ a, Triple rely (ok a) (f a) next error crash) :
    Triple rely pre (p >>= f) next error crash := by
  intro fate hothers t w hw
  have hmid := hp fate hothers t w hw
  show Meets next error crash (Procedure.andThen p f fate t w).1 (Procedure.andThen p f fate t w).2.2
  unfold Procedure.andThen
  rcases hrun : p fate t w with ⟨result, t', w'⟩
  rw [hrun] at hmid
  cases result with
  | killed => exact hmid
  | failed e => exact hmid
  | returned a => exact hf a fate hothers t' w' hmid

/-- What is attempted returns: its value, or its error. -/
theorem Triple.attempt (hp : Triple rely pre p ok error crash) :
    Triple rely pre p.attempt (Attempted ok error) error' crash := by
  intro fate hothers t w hw
  have hmid := hp fate hothers t w hw
  unfold Procedure.attempt
  rcases hrun : p fate t w with ⟨result, t', w'⟩
  rw [hrun] at hmid
  cases result with
  | killed => exact hmid
  | failed e => exact hmid
  | returned a => exact hmid

theorem triple_rethrow {result : Except κ α}
    (h : ∀ w, pre w → Attempted ok error result w) :
    Triple rely pre (Procedure.rethrow result : Procedure ι σ κ α) ok error crash := by
  cases result with
  | ok a => exact triple_pure h
  | error e => exact triple_fail h

end

/-! ## Guarded procedures -/

section

variable {ι σ κ α β : Type} (rely : σ → σ → Prop)

/-- The procedure keeps the guard `I` however it ends, and what it returns meets `ok`. -/
def Guarded (I pre : σ → Prop) (p : Procedure ι σ κ α) (ok : α → σ → Prop) : Prop :=
  Triple rely (fun w => I w ∧ pre w) p (fun a w => I w ∧ ok a w) (fun _ => I) I

variable {rely} {I I' pre pre' : σ → Prop} {ok ok' : α → σ → Prop} {next : β → σ → Prop}
  {p : Procedure ι σ κ α}

theorem guarded_pure {a : α} (h : ∀ w, I w → pre w → ok a w) :
    Guarded rely I pre (pure a : Procedure ι σ κ α) ok :=
  triple_pure fun w hw => ⟨hw.1, h w hw.1 hw.2⟩

theorem guarded_fail {e : κ} : Guarded rely I pre (Procedure.fail e : Procedure ι σ κ α) ok :=
  triple_fail fun _ hw => hw.1

/-- A step keeps the guard when each of its answers does. -/
theorem guarded_step {f : ι → σ → Except κ α × σ} (hI : Stable rely I) (hpre : Stable rely pre)
    (hkeeps : ∀ i w, I w → pre w → I (f i w).2)
    (hok : ∀ i w a, I w → pre w → (f i w).1 = .ok a → ok a (f i w).2) :
    Guarded rely I pre (Procedure.step f) ok :=
  triple_step (hI.and hpre) (fun _ hw => hw.1)
    (fun i w a hw hf => ⟨hkeeps i w hw.1 hw.2, hok i w a hw.1 hw.2 hf⟩)
    fun i w _ hw _ => hkeeps i w hw.1 hw.2

theorem Guarded.of_pre (h : Guarded rely I pre p ok) (hpre : ∀ w, I w → pre' w → pre w) :
    Guarded rely I pre' p ok :=
  Triple.of_pre h fun w hw => ⟨hw.1, hpre w hw.1 hw.2⟩

theorem Guarded.of_ok (h : Guarded rely I pre p ok) (hok : ∀ a w, I w → ok a w → ok' a w) :
    Guarded rely I pre p ok' :=
  Triple.of_ok h fun a w hw => ⟨hw.1, hok a w hw.1 hw.2⟩

variable (I' pre' ok') in
/-- A guard that is entered on the way and implies the guard outside. -/
theorem Guarded.within (henter : ∀ w, I w → pre w → I' w ∧ pre' w)
    (h : Guarded rely I' pre' p ok') (hleave : ∀ w, I' w → I w)
    (hok : ∀ a w, I' w → ok' a w → ok a w) : Guarded rely I pre p ok :=
  (Triple.mono h (fun a w hw => ⟨hleave w hw.1, hok a w hw.1 hw.2⟩) (fun _ w hw => hleave w hw)
    hleave).of_pre fun w hw => henter w hw.1 hw.2

theorem Guarded.bind {f : α → Procedure ι σ κ β} (hp : Guarded rely I pre p ok)
    (hf : ∀ a, Guarded rely I (ok a) (f a) next) : Guarded rely I pre (p >>= f) next :=
  Triple.bind hp hf

variable (ok) in
/-- Go on through what is said between the two. -/
theorem Guarded.through {f : α → Procedure ι σ κ β} (hp : Guarded rely I pre p ok)
    (hf : ∀ a, Guarded rely I (ok a) (f a) next) : Guarded rely I pre (p >>= f) next :=
  hp.bind hf

/-- What is attempted leaves the guard, and what it says when it returned. -/
theorem Guarded.attempt (h : Guarded rely I pre p ok) :
    Guarded rely I pre p.attempt fun result w => ∀ a, result = .ok a → ok a w := by
  have hattempt : Triple rely (fun w => I w ∧ pre w) p.attempt
      (Attempted (fun a w => I w ∧ ok a w) fun _ => I) (fun _ => I) I := Triple.attempt h
  refine hattempt.of_ok ?_
  intro result w hw
  cases result with
  | error e => exact ⟨hw, fun a ha => by cases ha⟩
  | ok a => exact ⟨hw.1, fun b hb => by cases hb; exact hw.2⟩

theorem guarded_rethrow {result : Except κ α}
    (h : ∀ w a, I w → pre w → result = .ok a → ok a w) :
    Guarded rely I pre (Procedure.rethrow result : Procedure ι σ κ α) ok := by
  refine triple_rethrow ?_
  intro w hw
  cases result with
  | ok a => exact ⟨hw.1, h w a hw.1 hw.2 rfl⟩
  | error e => exact hw.1

theorem guarded_whenever {c : Prop} [Decidable c] {q : Procedure ι σ κ Unit}
    (h : c → Guarded rely I pre q fun _ => pre) :
    Guarded rely I pre (Procedure.whenever c q) fun _ => pre := by
  unfold Procedure.whenever
  by_cases hc : c
  · rw [if_pos hc]
    exact h hc
  · rw [if_neg hc]
    exact guarded_pure fun _ _ hw => hw

/-- A fact that does not depend on the state. -/
theorem Guarded.of_fact {c : Prop} (h : c → Guarded rely I pre p ok) :
    Guarded rely I (fun w => c ∧ pre w) p ok :=
  fun fate hothers t w hw => h hw.2.1 fate hothers t w ⟨hw.1, hw.2.2⟩

/-- What an assertion names is fixed. -/
theorem Guarded.of_exists {γ : Type} {pre : γ → σ → Prop}
    (h : ∀ x, Guarded rely I (pre x) p ok) : Guarded rely I (fun w => ∃ x, pre x w) p ok := by
  rintro fate hothers t w ⟨hw, x, hx⟩
  exact h x fate hothers t w ⟨hw, hx⟩

end

/-! ## Undisturbed procedures -/

section

variable {ι σ κ α β : Type}

/-- Nobody else moves, every step is answered well, and the procedure is not killed. -/
structure Smooth (good : ι → Prop) (fate : Fate ι σ) : Prop where
  others : ∀ t w, fate.others t w = w
  answer : ∀ t, good (fate.answer t)
  dies : ∀ t, fate.dies t = false

variable (good : ι → Prop)

/-- Undisturbed, the procedure ends as its postconditions say. -/
def Smoothly (pre : σ → Prop) (p : Procedure ι σ κ α) (ok : α → σ → Prop)
    (error : κ → σ → Prop) : Prop :=
  ∀ fate : Fate ι σ, Smooth good fate →
    ∀ t w, pre w → Meets ok error (fun _ => False) (p fate t w).1 (p fate t w).2.2

/-- Undisturbed, the procedure returns. -/
abbrev Returns (pre : σ → Prop) (p : Procedure ι σ κ α) (ok : α → σ → Prop) : Prop :=
  Smoothly good pre p ok fun _ _ => False

variable {good} {pre pre' : σ → Prop} {ok ok' : α → σ → Prop} {error error' : κ → σ → Prop}
  {next : β → σ → Prop} {p : Procedure ι σ κ α}

theorem Smoothly.mono (h : Smoothly good pre p ok error) (hpre : ∀ w, pre' w → pre w)
    (hok : ∀ a w, ok a w → ok' a w) (herror : ∀ e w, error e w → error' e w) :
    Smoothly good pre' p ok' error' :=
  fun fate hfate t w hw => (h fate hfate t w (hpre w hw)).mono hok herror fun _ hc => hc

theorem smoothly_pure {a : α} (h : ∀ w, pre w → ok a w) :
    Smoothly good pre (pure a : Procedure ι σ κ α) ok error :=
  fun _ _ _ w hw => h w hw

theorem smoothly_fail {e : κ} (h : ∀ w, pre w → error e w) :
    Smoothly good pre (Procedure.fail e : Procedure ι σ κ α) ok error :=
  fun _ _ _ w hw => h w hw

theorem smoothly_step {f : ι → σ → Except κ α × σ}
    (h : ∀ i w, good i → pre w → Attempted ok error (f i w).1 (f i w).2) :
    Smoothly good pre (Procedure.step f) ok error := by
  intro fate hfate t w hw
  have hanswer := h (fate.answer t) w (hfate.answer t) hw
  unfold Procedure.step
  rw [hfate.dies t, hfate.others t w, if_neg (by decide)]
  rcases hf : f (fate.answer t) w with ⟨result, w'⟩
  rw [hf] at hanswer
  cases result with
  | ok a => exact hanswer
  | error e => exact hanswer

variable (ok) in
theorem Smoothly.through {f : α → Procedure ι σ κ β} (hp : Smoothly good pre p ok error)
    (hf : ∀ a, Smoothly good (ok a) (f a) next error) :
    Smoothly good pre (p >>= f) next error := by
  intro fate hfate t w hw
  have hmid := hp fate hfate t w hw
  show Meets next error (fun _ => False) (Procedure.andThen p f fate t w).1
    (Procedure.andThen p f fate t w).2.2
  unfold Procedure.andThen
  rcases hrun : p fate t w with ⟨result, t', w'⟩
  rw [hrun] at hmid
  cases result with
  | killed => exact hmid
  | failed e => exact hmid
  | returned a => exact hf a fate hfate t' w' hmid

theorem Smoothly.attempt (hp : Smoothly good pre p ok error) :
    Smoothly good pre p.attempt (Attempted ok error) error' := by
  intro fate hfate t w hw
  have hmid := hp fate hfate t w hw
  unfold Procedure.attempt
  rcases hrun : p fate t w with ⟨result, t', w'⟩
  rw [hrun] at hmid
  cases result with
  | killed => exact hmid
  | failed e => exact hmid
  | returned a => exact hmid

theorem smoothly_whenever {c : Prop} [Decidable c] {q : Procedure ι σ κ Unit}
    (h : c → Smoothly good pre q (fun _ => pre) error) :
    Smoothly good pre (Procedure.whenever c q) (fun _ => pre) error := by
  unfold Procedure.whenever
  by_cases hc : c
  · rw [if_pos hc]
    exact h hc
  · rw [if_neg hc]
    exact smoothly_pure fun _ hw => hw

/-- A fact that does not depend on the state. -/
theorem smoothly_of_fact {c : Prop} (h : c → Smoothly good pre p ok error) :
    Smoothly good (fun w => c ∧ pre w) p ok error :=
  fun fate hfate t w hw => h hw.1 fate hfate t w hw.2

/-- What an assertion names is fixed. -/
theorem smoothly_of_exists {γ : Type} {pre : γ → σ → Prop}
    (h : ∀ x, Smoothly good (pre x) p ok error) :
    Smoothly good (fun w => ∃ x, pre x w) p ok error := by
  rintro fate hfate t w ⟨x, hx⟩
  exact h x fate hfate t w hx

/-! ### Ending somehow -/

variable (good) in
/-- Undisturbed, the procedure ends. -/
abbrev Ends (p : Procedure ι σ κ α) : Prop :=
  Smoothly good (fun _ => True) p (fun _ _ => True) fun _ _ => True

theorem ends_pure {a : α} : Ends good (pure a : Procedure ι σ κ α) :=
  smoothly_pure fun _ _ => trivial

theorem ends_fail {e : κ} : Ends good (Procedure.fail e : Procedure ι σ κ α) :=
  smoothly_fail fun _ _ => trivial

theorem ends_step {f : ι → σ → Except κ α × σ} : Ends good (Procedure.step f) :=
  smoothly_step fun i w _ _ => by cases (f i w).1 <;> trivial

theorem Ends.bind {f : α → Procedure ι σ κ β} (hp : Ends good p) (hf : ∀ a, Ends good (f a)) :
    Ends good (p >>= f) :=
  Smoothly.through _ hp hf

theorem Ends.attempt (hp : Ends good p) : Ends good p.attempt :=
  (Smoothly.attempt hp).mono (fun _ h => h) (fun _ _ _ => trivial) fun _ _ h => h

theorem ends_rethrow {result : Except κ α} :
    Ends good (Procedure.rethrow result : Procedure ι σ κ α) := by
  cases result with
  | ok a => exact ends_pure
  | error e => exact ends_fail

theorem ends_whenever {c : Prop} [Decidable c] {q : Procedure ι σ κ Unit} (h : Ends good q) :
    Ends good (Procedure.whenever c q) :=
  smoothly_whenever fun _ => h

/-- What a procedure keeps under its guard it keeps where it ends. -/
theorem Guarded.smoothly {rely : σ → σ → Prop} {I : σ → Prop} (hrefl : ∀ w, rely w w)
    (h : Guarded rely I pre p ok) (hends : Ends good p) :
    Smoothly good (fun w => I w ∧ pre w) p (fun a w => I w ∧ ok a w) fun _ => I := by
  intro fate hfate t w hw
  have hothers : ∀ t w, rely w (fate.others t w) := fun t w => by
    rw [hfate.others t w]
    exact hrefl w
  have hmeets := h fate hothers t w hw
  have hended := hends fate hfate t w trivial
  rcases hresult : (p fate t w).1 with _ | e | a
  · rw [hresult] at hended
    exact hended.elim
  · rw [hresult] at hmeets
    exact hmeets
  · rw [hresult] at hmeets
    exact hmeets

/-- What returns undisturbed leaves what it leaves under its guard, too. -/
theorem Guarded.returns {rely : σ → σ → Prop} {I : σ → Prop} (hrefl : ∀ w, rely w w)
    (h : Guarded rely I pre p ok) (hreturns : Returns good (fun w => I w ∧ pre w) p ok') :
    Returns good (fun w => I w ∧ pre w) p fun a w => I w ∧ ok a w ∧ ok' a w := by
  intro fate hfate t w hw
  have hothers : ∀ t w, rely w (fate.others t w) := fun t w => by
    rw [hfate.others t w]
    exact hrefl w
  have hmeets := h fate hothers t w hw
  have hreturned := hreturns fate hfate t w hw
  rcases hresult : (p fate t w).1 with _ | e | a
  · rw [hresult] at hreturned
    exact hreturned
  · rw [hresult] at hreturned
    exact hreturned
  · rw [hresult] at hmeets hreturned
    exact ⟨hmeets.1, hmeets.2, hreturned⟩

end

end Durable
