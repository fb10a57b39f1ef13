import Mathlib.Data.List.Forall2

/-!
# Programs on a shared world

A program takes steps on a world that others share. Before each step the others have
changed the world as they like; a step then reads and writes it at once and logs what it
saw. `Logs` is what a program's log tells whatever the others do, and `Solo` what a program
does to the world when it is alone.
-/

namespace Interleave

/-- What a computation with errors went through to return. -/
theorem bind_eq_ok {κ α β : Type} {x : Except κ α} {f : α → Except κ β} {b : β} :
    (x >>= f) = .ok b ↔ ∃ a, x = .ok a ∧ f a = .ok b := by
  cases x <;> simp [bind, Except.bind]

/-- A list of computations returns the list of their results. -/
theorem mapM_eq_ok {κ α β : Type} {f : α → Except κ β} {as : List α} {bs : List β} :
    as.mapM f = .ok bs ↔ List.Forall₂ (fun a b => f a = .ok b) as bs := by
  induction as generalizing bs with
  | nil =>
    rw [List.mapM_nil, List.forall₂_nil_left_iff]
    exact ⟨fun h => (Except.ok.inj h).symm, fun h => congrArg Except.ok h.symm⟩
  | cons a as ih =>
    rw [List.mapM_cons, bind_eq_ok]
    constructor
    · rintro ⟨b, hb, hrest⟩
      obtain ⟨bs', hbs, heq⟩ := bind_eq_ok.mp hrest
      cases heq
      exact .cons hb (ih.mp hbs)
    · intro h
      cases h with
      | cons hb hrest => exact ⟨_, hb, bind_eq_ok.mpr ⟨_, ih.mpr hrest, rfl⟩⟩

/-- A run so far: the steps it took, the world they left and what they logged. -/
structure Run (σ ε : Type) where
  clock : Nat
  world : σ
  log : List ε

/-- A program on the world `σ` that logs `ε` and ends with an error `κ` or a value. Its first
argument is what the others do before each of its steps. -/
def Program (σ ε κ α : Type) : Type := (Nat → σ → σ) → Run σ ε → Except κ α × Run σ ε

namespace Program

variable {σ ε κ α β : Type}

/-- Go on with the value, or leave with the error. -/
def andThen (p : Program σ ε κ α) (f : α → Program σ ε κ β) : Program σ ε κ β := fun others r =>
  match p others r with
  | (.ok a, r') => f a others r'
  | (.error e, r') => (.error e, r')

instance : Monad (Program σ ε κ) where
  pure a := fun _ r => (.ok a, r)
  bind := andThen

/-- Leave with an error. -/
def fail (e : κ) : Program σ ε κ α := fun _ r => (.error e, r)

/-- The value computed, or its error. -/
def ofExcept (x : Except κ α) : Program σ ε κ α := fun _ r => (x, r)

/-- One step: the others move, and then `f` does. -/
def step (f : σ → Except κ α × σ × List ε) : Program σ ε κ α := fun others r =>
  match f (others r.clock r.world) with
  | (result, world, events) => (result, ⟨r.clock + 1, world, r.log ++ events⟩)

/-- A step that only reads. -/
def ask (f : σ → Except κ α) : Program σ ε κ α := step fun w => (f w, w, [])

/-! ## What a program logs -/

/-- Whatever the others do, the program's result and the events it logs meet `post`. -/
def Logs (p : Program σ ε κ α) (post : Except κ α → List ε → Prop) : Prop :=
  ∀ others r, ∃ events, (p others r).2.log = r.log ++ events ∧ post (p others r).1 events

variable {post : Except κ α → List ε → Prop} {goal : Except κ β → List ε → Prop}

theorem Logs.mono {p : Program σ ε κ α} {post' : Except κ α → List ε → Prop} (hp : p.Logs post)
    (h : ∀ result events, post result events → post' result events) : p.Logs post' := by
  intro others r
  obtain ⟨events, hlog, hpost⟩ := hp others r
  exact ⟨events, hlog, h _ _ hpost⟩

theorem logs_pure {a : α} (h : post (.ok a) []) : Logs (pure a : Program σ ε κ α) post :=
  fun _ r => ⟨[], (List.append_nil r.log).symm, h⟩

theorem logs_fail {e : κ} (h : post (.error e) []) : Logs (fail e : Program σ ε κ α) post :=
  fun _ r => ⟨[], (List.append_nil r.log).symm, h⟩

theorem logs_ofExcept {x : Except κ α} (h : post x []) :
    Logs (ofExcept x : Program σ ε κ α) post :=
  fun _ r => ⟨[], (List.append_nil r.log).symm, h⟩

theorem logs_step {f : σ → Except κ α × σ × List ε} (h : ∀ w, post (f w).1 (f w).2.2) :
    (step f).Logs post :=
  fun others r => ⟨_, rfl, h (others r.clock r.world)⟩

theorem logs_ask {f : σ → Except κ α} (h : ∀ w, post (f w) []) :
    Logs (ask f : Program σ ε κ α) post :=
  logs_step h

/-- A program that goes on logs what its parts log, one after the other. -/
theorem Logs.bind {p : Program σ ε κ α} {f : α → Program σ ε κ β} (hp : p.Logs post)
    (hok : ∀ a events, post (.ok a) events →
      (f a).Logs fun result more => goal result (events ++ more))
    (herror : ∀ e events, post (.error e) events → goal (.error e) events) :
    (p >>= f).Logs goal := by
  intro others r
  obtain ⟨events, hlog, hpost⟩ := hp others r
  show ∃ es, (andThen p f others r).2.log = r.log ++ es ∧ goal (andThen p f others r).1 es
  unfold andThen
  rcases hrun : p others r with ⟨result, r'⟩
  rw [hrun] at hlog hpost
  cases result with
  | error e => exact ⟨events, hlog, herror e events hpost⟩
  | ok a =>
    obtain ⟨more, hmore, hgoal⟩ := hok a events hpost others r'
    refine ⟨events ++ more, ?_, hgoal⟩
    rw [hmore, hlog, List.append_assoc]

/-! ## A program alone -/

/-- Nobody else moves. -/
def alone : Nat → σ → σ := fun _ w => w

/-- With nobody else, a run from a world that meets `pre` ends as `post` says. -/
def Solo (p : Program σ ε κ α) (pre : σ → Prop) (post : Except κ α → σ → Prop) : Prop :=
  ∀ r, pre r.world → post (p alone r).1 (p alone r).2.world

variable {pre : σ → Prop} {mid : Except κ α → σ → Prop} {final : Except κ β → σ → Prop}

theorem Solo.mono {p : Program σ ε κ α} {mid' : Except κ α → σ → Prop} (hp : p.Solo pre mid)
    (h : ∀ result w, mid result w → mid' result w) : p.Solo pre mid' :=
  fun r hr => h _ _ (hp r hr)

theorem Solo.of_pre {p : Program σ ε κ α} {pre' : σ → Prop} (hp : p.Solo pre mid)
    (h : ∀ w, pre' w → pre w) : p.Solo pre' mid :=
  fun r hr => hp r (h _ hr)

theorem solo_pure {a : α} (h : ∀ w, pre w → mid (.ok a) w) :
    Solo (pure a : Program σ ε κ α) pre mid :=
  fun r hr => h r.world hr

theorem solo_fail {e : κ} (h : ∀ w, pre w → mid (.error e) w) :
    Solo (fail e : Program σ ε κ α) pre mid :=
  fun r hr => h r.world hr

theorem solo_ofExcept {x : Except κ α} (h : ∀ w, pre w → mid x w) :
    Solo (ofExcept x : Program σ ε κ α) pre mid :=
  fun r hr => h r.world hr

theorem solo_step {f : σ → Except κ α × σ × List ε} (h : ∀ w, pre w → mid (f w).1 (f w).2.1) :
    (step f).Solo pre mid :=
  fun r hr => h r.world hr

theorem solo_ask {f : σ → Except κ α} (h : ∀ w, pre w → mid (f w) w) :
    Solo (ask f : Program σ ε κ α) pre mid :=
  solo_step h

theorem Solo.bind {p : Program σ ε κ α} {f : α → Program σ ε κ β} (hp : p.Solo pre mid)
    (hok : ∀ a, (f a).Solo (mid (.ok a)) final)
    (herror : ∀ e w, mid (.error e) w → final (.error e) w) : (p >>= f).Solo pre final := by
  intro r hr
  have hmid := hp r hr
  show final (andThen p f alone r).1 (andThen p f alone r).2.world
  unfold andThen
  rcases hrun : p alone r with ⟨result, r'⟩
  rw [hrun] at hmid
  cases result with
  | error e => exact herror e _ hmid
  | ok a => exact hok a r' hmid

end Program

end Interleave
