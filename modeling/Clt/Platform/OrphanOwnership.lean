import Clt.Platform.OrphanSweep

/-!
# Whom an orphan signals

Only members are signalled, and members are owned after every call. A sweep signals nobody once
one of those that it captured carries the context of another run.
-/

namespace Clt

open Interleave Program

namespace Orphan

variable {history : KernelHistory} {run : OrphanRun} {α β : Type}
  {r r' r'' : Run Machine OrphanEvent} {events more : List OrphanEvent}

/-! ## Signals -/

/-- The event is a signal to a process that was owned and had its number at that moment. -/
def Delivered (history : KernelHistory) (run : OrphanRun) (event : OrphanEvent) : Prop :=
  ∃ moment process, event = .signalled moment process ∧ history.Owned run moment process ∧
    ((history.moment moment).process? process.pid).map KernelProcess.generation =
      some process.generation

/-- Owned processes were signalled, and nothing else was done. -/
structure Signals (history : KernelHistory) (run : OrphanRun) (r r' : Run Machine OrphanEvent) :
    Prop where
  members : r'.world.members = r.world.members
  events : ∃ events, Goes r r' events ∧ ∀ event ∈ events, Delivered history run event

theorem Signals.refl (r : Run Machine OrphanEvent) : Signals history run r r :=
  ⟨rfl, [], .refl r, by simp⟩

theorem Signals.trans (h : Signals history run r r') (h' : Signals history run r' r'') :
    Signals history run r r'' := by
  obtain ⟨hmembers, events, hgoes, hdelivered⟩ := h
  obtain ⟨hmembers', more, hmore, hrest⟩ := h'
  refine ⟨hmembers'.trans hmembers, events ++ more, hgoes.trans hmore, ?_⟩
  intro event hevent
  rcases List.mem_append.mp hevent with hmem | hmem
  · exact hdelivered event hmem
  · exact hrest event hmem

theorem signals_next (r : Run Machine OrphanEvent) : Signals history run r (next history r) :=
  ⟨rfl, [], goes_next r, by simp⟩

theorem Signals.clock (h : Signals history run r r') : r.clock ≤ r'.clock := by
  obtain ⟨-, events, hgoes, -⟩ := h
  exact hgoes.clock

/-- A signal that is delivered reaches the generation that was captured. -/
theorem signals_deliver (process : NativeProcess) (r : Run Machine OrphanEvent)
    (howned : history.Owned run r.clock process) :
    Signals history run r (deliver process history.others r).2 := by
  refine ⟨rfl, _, ⟨Nat.le_succ _, rfl⟩, ?_⟩
  intro event hevent
  split at hevent
  · rename_i hreaches
    have hany := (Bool.and_eq_true_iff.mp hreaches).2
    obtain ⟨found, hfound, hgeneration⟩ := (Option.any_eq_true _ _).mp hany
    refine ⟨r.clock, process, List.mem_singleton.mp hevent, howned, ?_⟩
    show ((history.moment r.clock).process? process.pid).map KernelProcess.generation = _
    rw [show (history.moment r.clock).process? process.pid = some found from hfound,
      Option.map_some, eq_of_beq hgeneration]
  · cases hevent

theorem signals_signalMembers (members : List NativeProcess) (r : Run Machine OrphanEvent)
    (howned : ∀ process ∈ members, history.Owned run r.clock process) :
    Signals history run r (signalMembers members history.others r).2 := by
  induction members generalizing r with
  | nil => exact .refl r
  | cons process members ih =>
    have hrest (r' : Run Machine OrphanEvent) (hsofar : Signals history run r r') :
        Signals history run r (signalMembers members history.others r').2 := by
      refine hsofar.trans (ih r' fun other hother => ?_)
      exact (howned other (List.mem_cons_of_mem _ hother)).mono hsofar.clock
    -- The kernel is asked once more before each signal: only a current process gets one.
    have hasked : Signals history run r (next history r) := signals_next r
    rw [signalMembers, bind_apply, call_apply]
    cases hcurrent : (history.moment r.clock).isCurrent process with
    | error e => exact hasked
    | ok current =>
      cases current with
      | false => exact hrest _ hasked
      | true =>
        have hprocess := (howned process List.mem_cons_self).mono hasked.clock
        have hdeliver := signals_deliver process (next history r) hprocess
        dsimp only
        rw [if_pos rfl, bind_apply]
        rcases hdone : deliver process history.others (next history r) with ⟨result, r₂⟩
        rw [hdone] at hdeliver
        cases result with
        | error e => exact hasked.trans hdeliver
        | ok done => exact hrest r₂ (hasked.trans hdeliver)

/-! ## Calls -/

/-- What a call may do: members stay owned, and what is signalled comes after what was inspected,
when none of it carries another context. -/
structure Controls (history : KernelHistory) (run : OrphanRun) (r r' : Run Machine OrphanEvent) :
    Prop where
  holds : Holds history run r'
  events : ∃ between inspected signals, Watches history run r between inspected ∧
    Goes between r' signals ∧ (∀ event ∈ signals, Delivered history run event) ∧
    (signals = [] ∨ Clean run inspected)

/-- A call that only inspects. -/
theorem controls_watches (hwatches : Watches history run r r' events)
    (hholds : Holds history run r') : Controls history run r r' :=
  ⟨hholds, r', events, [], hwatches, .refl _, by simp, .inl rfl⟩

theorem Signals.controls (hwatches : Watches history run r r' events) (hclean : Clean run events)
    (hholds : Holds history run r') (h : Signals history run r' r'') :
    Controls history run r r'' := by
  obtain ⟨hmembers, signals, hgoes, hdelivered⟩ := h
  exact ⟨hholds.of_members hmembers hgoes.clock, r', events, signals, hwatches, hgoes, hdelivered,
    .inr hclean⟩

/-- A group that is asked for inspects nobody. -/
theorem sweeps_isRunning (r : Run Machine OrphanEvent) :
    Sweeps history run r (isRunning run history.others r) fun running stop =>
      stop = r.clock + 1 ∧
        (history.moment r.clock).groupExists run.processGroup = .ok running :=
  sweeps_call _ r

theorem keptMembers_apply (r : Run Machine OrphanEvent) :
    keptMembers history.others r = (.ok r.world.members, next history r) := by
  show (Except.ok r.world.members, (⟨r.clock + 1, _, r.log ++ []⟩ : Run Machine OrphanEvent)) = _
  rw [List.append_nil]
  rfl

/-- One sweep of `stop` or `kill`. -/
theorem controls_signal (h : Holds history run r) :
    Controls history run r (signal run history.others r).2 := by
  have hrunning : Sweeps history run r (isRunning run history.others r) _ := sweeps_isRunning r
  rw [signal, bind_apply]
  rcases hasks : isRunning run history.others r with ⟨result, r₁⟩
  rw [hasks] at hrunning
  have hholds₁ := h.of_members hrunning.members hrunning.clock
  obtain ⟨-, asked, hasked, hok⟩ := hrunning
  cases result with
  | error e => exact controls_watches hasked hholds₁
  | ok running =>
    cases running with
    | false => exact controls_watches hasked hholds₁
    | true =>
      have hrefresh := refreshes_refreshMembers hholds₁
      dsimp only
      rw [if_pos rfl, bind_apply]
      rcases hrefreshes : refreshMembers run history.others r₁ with ⟨result, r₂⟩
      rw [hrefreshes] at hrefresh
      obtain ⟨hholds₂, seen, hseen, hclean⟩ := hrefresh
      have hwatches := hasked.trans hseen
      cases result with
      | error e => exact controls_watches hwatches hholds₂
      | ok done =>
        -- From here on nobody is inspected: the members of the refresh are signalled.
        have hkept : Signals history run r₂ (next history r₂) := signals_next r₂
        have hmembers := signals_signalMembers r₂.world.members (next history r₂)
          fun process hprocess => (hholds₂ process hprocess).mono hkept.clock
        dsimp only
        rw [bind_apply, keptMembers_apply]
        exact (hkept.trans hmembers).controls hwatches
          ((hok true rfl).1.append (hclean done rfl)) hholds₂

theorem controls_call (call : OrphanCall) (h : Holds history run r) :
    Controls history run r (call.program run history.others r).2 := by
  cases call with
  | isRunning =>
    have hasks : Sweeps history run r ((isRunning run >>= fun _ => pure ()) history.others r)
        fun _ _ => True :=
      (sweeps_isRunning r).bind fun _ r' _ _ _ => .ok trivial
    obtain ⟨events, hwatches, -⟩ := hasks.watches
    exact controls_watches hwatches (h.of_members hasks.members hasks.clock)
  | stop => exact controls_signal h
  | kill => exact controls_signal h

/-! ## Attachment -/

/-- An attachment signals nobody, and the members that it keeps are owned. -/
theorem refreshes_attach (h : Holds history run r) :
    Refreshes history run r (attach run history.others r) := by
  rw [attach]
  split
  · exact .error h
  · split
    · refine (sweeps_verifiedAnchor r).refreshes h fun found r₁ _ hfound hholds₁ => ?_
      cases found with
      | none =>
        refine (sweeps_isRunning r₁).refreshes hholds₁ fun running r₂ _ _ hholds₂ => ?_
        cases running with
        | true => exact .error hholds₂
        | false => exact .ok hholds₂
      | some anchor =>
        have hanchor : ∀ process ∈ [anchor], history.Owned run r₁.clock process := by
          intro process hprocess
          rw [List.mem_singleton.mp hprocess]
          exact hfound anchor rfl
        refine keepMembers_bind [anchor] hanchor fun r₂ hholds₂ => ?_
        exact (refreshes_refreshMembers hholds₂).bind fun _ r₃ _ hholds₃ => .ok hholds₃
    · exact .error h

/-- What a program returned came from its last part. -/
theorem bind_result {p : Orphan α} {f : α → Orphan β} {b : β}
    (h : ((p >>= f) history.others r).1 = .ok b) :
    ∃ a r', p history.others r = (.ok a, r') ∧ (f a history.others r').1 = .ok b ∧
      ((p >>= f) history.others r).2 = (f a history.others r').2 := by
  rw [bind_apply] at h ⊢
  rcases hfirst : p history.others r with ⟨result, r'⟩
  rw [hfirst] at h
  cases result with
  | error e => cases h
  | ok a => exact ⟨a, r', rfl, h, rfl⟩

/-- Where no orphan is attached, the group was seen to be gone. -/
theorem attach_absent (h : (attach run history.others r).1 = .ok false) :
    ∃ moment, r.clock ≤ moment ∧ moment < (attach run history.others r).2.clock ∧
      (history.moment moment).groupExists run.processGroup = .ok false := by
  rw [attach] at h ⊢
  split at h
  · cases h
  · rename_i hpid
    rw [if_neg hpid]
    split at h
    · rename_i hidentity
      rw [if_pos hidentity]
      obtain ⟨found, r₁, hanchor, h, heq⟩ := bind_result h
      rw [heq]
      have hclock : r.clock ≤ (verifiedAnchor run history.others r).2.clock :=
        (sweeps_verifiedAnchor r).clock
      rw [hanchor] at hclock
      -- Without an anchor the answer is that of the last question, at its moment.
      cases found with
      | none =>
        obtain ⟨running, r₂, hasked, h, heq⟩ := bind_result h
        dsimp only at heq ⊢
        rw [heq]
        rw [isRunning, call_apply] at hasked
        obtain ⟨hexists, rfl⟩ := Prod.mk.inj hasked
        cases running with
        | true => cases h
        | false => exact ⟨r₁.clock, hclock, Nat.lt_succ_self _, hexists⟩
      | some anchor =>
        obtain ⟨_, r₂, -, h, -⟩ := bind_result h
        obtain ⟨_, r₃, -, h, -⟩ := bind_result h
        cases h
    · cases h

/-! ## Runs -/

/-- No orphan yet. -/
def start (history : KernelHistory) (clock : Nat) : Run Machine OrphanEvent :=
  ⟨clock, ⟨clock, history.moment clock, []⟩, []⟩

/-- The orphan after some calls. -/
def afterCalls (history : KernelHistory) (run : OrphanRun) (calls : List OrphanCall)
    (r : Run Machine OrphanEvent) : Run Machine OrphanEvent :=
  calls.foldl (fun r call => (call.program run history.others r).2) r

/-- What is kept over the calls: the members are owned, and so was whatever was signalled. -/
structure Safe (history : KernelHistory) (run : OrphanRun) (r : Run Machine OrphanEvent) : Prop where
  holds : Holds history run r
  delivered : ∀ moment process, .signalled moment process ∈ r.log →
    Delivered history run (.signalled moment process)

/-- Whatever is inspected was captured; it is no signal. -/
theorem Watches.not_signalled (h : Watches history run r r' events) {moment : Nat}
    {process : NativeProcess} : .signalled moment process ∉ events := by
  intro hevent
  obtain ⟨_, _, heq, -⟩ := h.seen _ hevent
  cases heq

theorem Safe.controls (hsafe : Safe history run r) (h : Controls history run r r') :
    Safe history run r' := by
  obtain ⟨hholds, between, inspected, signals, hwatches, hgoes, hdelivered, -⟩ := h
  refine ⟨hholds, fun moment process hevent => ?_⟩
  rw [hgoes.log, hwatches.log] at hevent
  rcases List.mem_append.mp hevent with hmem | hmem
  · rcases List.mem_append.mp hmem with hmem | hmem
    · exact hsafe.delivered moment process hmem
    · exact absurd hmem hwatches.not_signalled
  · exact hdelivered _ hmem

/-- By induction over the calls. -/
theorem safe_afterCalls (calls : List OrphanCall) (hsafe : Safe history run r) :
    Safe history run (afterCalls history run calls r) := by
  induction calls generalizing r with
  | nil => exact hsafe
  | cons call calls ih => exact ih (hsafe.controls (controls_call call hsafe.holds))

theorem safe_attach (history : KernelHistory) (run : OrphanRun) (clock : Nat) :
    Safe history run (attach run history.others (start history clock)).2 := by
  have hempty : Holds history run (start history clock) := by
    intro process hprocess
    cases hprocess
  obtain ⟨hholds, events, hwatches, -⟩ := refreshes_attach hempty
  refine ⟨hholds, fun moment process hevent => ?_⟩
  rw [hwatches.log] at hevent
  exact absurd hevent hwatches.not_signalled

/-- What one call logs: the members that it captured in the group, then the signals, of which
there are none once a member carries the context of another run. -/
theorem Controls.sweep (h : Controls history run r r') :
    ∃ inspected signals, r'.log = r.log ++ inspected ++ signals ∧
      (∀ event ∈ inspected, ∃ process environment, event = .inspected process environment ∧
        history.Captured run r.clock r'.clock process environment) ∧
      (∀ event ∈ signals, ∃ moment process, event = .signalled moment process) ∧
      ∀ process environment, .inspected process environment ∈ inspected →
        hasContext environment = true → carriesContext run environment = false →
        signals = [] := by
  obtain ⟨-, between, inspected, signals, hwatches, hgoes, hdelivered, hclean⟩ := h
  refine ⟨inspected, signals, by rw [hgoes.log, hwatches.log], ?_, ?_, ?_⟩
  · intro event hevent
    obtain ⟨process, environment, heq, hcaptured⟩ := hwatches.seen event hevent
    exact ⟨process, environment, heq, hcaptured.mono (Nat.le_refl _) hgoes.clock⟩
  · intro event hevent
    obtain ⟨moment, process, heq, -⟩ := hdelivered event hevent
    exact ⟨moment, process, heq⟩
  · intro process environment hmem hhas hcarries
    refine hclean.resolve_right fun hclean => ?_
    rw [hclean process environment hmem hhas] at hcarries
    cases hcarries

/-- An orphan that is attached at any moment and then called in any order. `None` is returned only
for a group that was seen to be gone. Whoever is signalled is owned, and kin to a process that
carried the exact context in the same group, and has its number when the signal arrives. A sweep
that captures a member with another context signals nobody. -/
theorem signalsOwned (history : KernelHistory) (run : OrphanRun) (clock : Nat)
    (calls : List OrphanCall) :
    let attached := attach run history.others (start history clock)
    let orphan := afterCalls history run calls attached.2
    (attached.1 = .ok false → ∃ moment, clock ≤ moment ∧ moment < attached.2.clock ∧
      (history.moment moment).groupExists run.processGroup = .ok false) ∧
    (∀ moment process, .signalled moment process ∈ orphan.log →
      history.Owned run moment process ∧ history.Kin run moment process ∧
        ((history.moment moment).process? process.pid).map KernelProcess.generation =
          some process.generation) ∧
    ∀ call : OrphanCall,
      let after := (call.program run history.others orphan).2
      ∃ inspected signals, after.log = orphan.log ++ inspected ++ signals ∧
        (∀ event ∈ inspected, ∃ process environment, event = .inspected process environment ∧
          history.Captured run orphan.clock after.clock process environment) ∧
        (∀ event ∈ signals, ∃ moment process, event = .signalled moment process) ∧
        ∀ process environment, .inspected process environment ∈ inspected →
          hasContext environment = true → carriesContext run environment = false →
          signals = [] := by
  have hsafe := safe_afterCalls calls (safe_attach history run clock)
  -- What the control holds after any calls is the invariant; each call is judged from it.
  refine ⟨attach_absent, ?_, fun call => (controls_call call hsafe.holds).sweep⟩
  intro moment process hevent
  obtain ⟨_, _, heq, howned, hcurrent⟩ := hsafe.delivered moment process hevent
  obtain ⟨rfl, rfl⟩ := OrphanEvent.signalled.inj heq
  exact ⟨howned, howned.kin, hcurrent⟩

/-- One process, which is there at every moment. -/
def lonely : Kernel where
  process? pid := if pid = 7 then some ⟨1, 7, asBytes "CLT_AGENT_PROJECT_ID=3\x00CLT_AGENT_RUN_TOKEN=t"⟩
    else none
  members _ := .ok [7]
  groupExists _ := .ok true
  refuses _ := none
  escapes _ := false

def lonelyHistory : KernelHistory where
  moment _ := lonely
  incarnation _ _ := 0
  same_generation _ _ hfirst _ := Kernel.generation_of_has hfirst
  same_group _ _ _ _ := rfl

example :
    let attached := attach ⟨7, 3, "t"⟩ lonelyHistory.others (start lonelyHistory 0)
    let orphan := afterCalls lonelyHistory ⟨7, 3, "t"⟩ [.isRunning, .stop] attached.2
    attached.1 = .ok true ∧ orphan.log.getLast? = some (.signalled 30 ⟨7, 7, 1⟩) := by
  decide +kernel

end Orphan

end Clt
