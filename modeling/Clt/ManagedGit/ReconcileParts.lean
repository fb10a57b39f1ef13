import Clt.ManagedGit.Reconcile

/-!
# The parts of a reconciliation

Most parts of a round only read. Such a part logs no write to the journal, leaves the world as
it finds it when nobody else moves, and fails with a message of its own (`Passive`); each part
is shown to be one from the parts it is made of.
-/

namespace Clt

open Interleave Interleave.Program

/-- The event is a write to the journal. -/
def ReconcileEvent.isWrite : ReconcileEvent → Bool
  | wrote .. => true
  | _ => false

/-- A log without a write. -/
def Quiet (events : List ReconcileEvent) : Prop := ∀ e ∈ events, e.isWrite = false

theorem quiet_nil : Quiet [] := fun _ h => absurd h List.not_mem_nil

theorem quiet_singleton {e : ReconcileEvent} (h : e.isWrite = false) : Quiet [e] := by
  intro e' he
  rwa [List.mem_singleton.mp he]

theorem Quiet.append {events more : List ReconcileEvent} (h : Quiet events) (hmore : Quiet more) :
    Quiet (events ++ more) := by
  intro e he
  rcases List.mem_append.mp he with hl | hr
  · exact h e hl
  · exact hmore e hr

namespace Reconcile

variable {α β : Type} {objects : GitObjects} {around : Surroundings}

theorem mapError_eq_ok {x : Except String α} {a : α} :
    x.mapError ReconcileError.message = .ok a ↔ x = .ok a := by
  cases x <;> simp [Except.mapError]

/-! ## Silent parts -/

/-- Programs that write nothing to the journal. -/
def Silent (p : Reconcile α) : Prop := p.Logs fun _ es => Quiet es

theorem silent_bind {p : Reconcile α} {g : α → Reconcile β} (hp : Silent p)
    (hg : ∀ a, Silent (g a)) : Silent (p >>= g) := by
  refine Logs.bind hp (fun a es hes => ?_) fun _ _ hes => hes
  exact (hg a).mono fun _ more hmore => hes.append hmore

theorem silent_pure (a : α) : Silent (pure a : Reconcile α) := logs_pure quiet_nil

theorem silent_fail (e : ReconcileError) : Silent (fail e : Reconcile α) := logs_fail quiet_nil

theorem silent_fail_bind (e : ReconcileError) (g : α → Reconcile β) : Silent (fail e >>= g) :=
  fun _ r => ⟨[], (List.append_nil r.log).symm, quiet_nil⟩

theorem silent_ite {c : Bool} {p q : Reconcile α} (hp : Silent p) (hq : Silent q) :
    Silent (if c = true then p else q) := by
  split
  · exact hp
  · exact hq

/-! ## What a part does alone -/

/-- An end with a value that meets `Q`, or with a message. -/
def Ends (Q : α → World → Prop) : Except ReconcileError α → World → Prop
  | .ok a, w => Q a w
  | .error (.message _), _ => True
  | .error (.changedTooManyTimes _), _ => False

theorem Ends.mono {Q Q' : α → World → Prop} {result : Except ReconcileError α} {w : World}
    (h : Ends Q result w) (hQ : ∀ a, Q a w → Q' a w) : Ends Q' result w := by
  match result, h with
  | .ok a, h => exact hQ a h
  | .error (.message _), _ => trivial

/-- A part that leaves the world as it is, and what its value says about it. -/
def Still (p : Reconcile α) (R : α → World → Prop) : Prop :=
  ∀ w, p.Solo (fun w' => w' = w) (Ends fun a w' => w' = w ∧ R a w)

/-- Alone, a part that leaves the world as it is hands on what held of it before. -/
theorem Still.bind {p : Reconcile α} {g : α → Reconcile β} {R : α → World → Prop}
    {pre : World → Prop} {Q : β → World → Prop} (hp : Still p R)
    (hg : ∀ a, (g a).Solo (fun w => pre w ∧ R a w) (Ends Q)) : (p >>= g).Solo pre (Ends Q) := by
  intro r hr
  have hmid : p.Solo (fun w => w = r.world) fun result w => Ends (fun a w => pre w ∧ R a w) result w :=
    (hp r.world).mono fun result w h => h.mono fun a ⟨hw, hR⟩ => hw ▸ ⟨hr, hR⟩
  refine Solo.bind hmid hg (fun e w h => ?_) r rfl
  cases e with
  | message text => trivial
  | changedTooManyTimes sessionId => exact h

theorem still_bind {p : Reconcile α} {g : α → Reconcile β} {R : α → World → Prop}
    {S : β → World → Prop} (hp : Still p R)
    (hg : ∀ a, (∀ w, R a w → (g a).Solo (fun w' => w' = w) (Ends fun b w' => w' = w ∧ S b w))) :
    Still (p >>= g) S := by
  intro w
  refine hp.bind fun a r hr => ?_
  obtain ⟨hw, hR⟩ := hr
  exact hg a w (hw ▸ hR) r hw

theorem still_pure (a : α) : Still (pure a : Reconcile α) fun b _ => b = a :=
  fun _ => solo_pure fun _ hw => ⟨hw, rfl⟩

theorem still_lift (x : Except String α) : Still (lift x) fun a _ => x = .ok a := by
  intro w
  refine solo_ofExcept fun w' hw => ?_
  cases x with
  | ok a => exact ⟨hw, rfl⟩
  | error text => trivial

theorem still_read (g : World → Except String α) :
    Still (Reconcile.read g) fun a w => g w = .ok a := by
  intro w
  refine solo_ask fun w' hw => ?_
  rw [hw]
  cases hg : g w with
  | ok a => exact ⟨rfl, hg⟩
  | error text => trivial

theorem still_observe (g : World → Except String α) (event : Except String α → ReconcileEvent) :
    Still (observe g event) fun a w => g w = .ok a := by
  intro w
  refine solo_step fun w' hw => ?_
  subst hw
  show Ends _ ((g w').mapError .message) w'
  cases hg : g w' with
  | ok a => exact ⟨rfl, hg⟩
  | error text => trivial

/-! ## Passive parts -/

/-- A part that only reads. -/
structure Passive (p : Reconcile α) : Prop where
  silent : Silent p
  still : Still p fun _ _ => True

theorem Still.weaken {p : Reconcile α} {R : α → World → Prop} (h : Still p R) :
    Still p fun _ _ => True :=
  fun w => (h w).mono fun _ _ hend => hend.mono fun _ ⟨hw, _⟩ => ⟨hw, trivial⟩

theorem passive_pure (a : α) : Passive (pure a : Reconcile α) :=
  ⟨silent_pure a, (still_pure a).weaken⟩

theorem passive_fail (text : String) : Passive (fail (.message text) : Reconcile α) :=
  ⟨silent_fail _, fun _ => solo_fail fun _ _ => trivial⟩

theorem passive_lift (x : Except String α) : Passive (lift x) :=
  ⟨logs_ofExcept quiet_nil, (still_lift x).weaken⟩

theorem passive_read (g : World → Except String α) : Passive (Reconcile.read g) :=
  ⟨logs_ask fun _ => quiet_nil, (still_read g).weaken⟩

theorem passive_observe (g : World → Except String α) {event : Except String α → ReconcileEvent}
    (h : ∀ answer, (event answer).isWrite = false) : Passive (observe g event) :=
  ⟨logs_step fun _ => quiet_singleton (h _), (still_observe g event).weaken⟩

theorem passive_bind {p : Reconcile α} {g : α → Reconcile β} (hp : Passive p)
    (hg : ∀ a, Passive (g a)) : Passive (p >>= g) :=
  ⟨silent_bind hp.silent fun a => (hg a).silent,
    still_bind hp.still fun a w _ => (hg a).still w⟩

theorem passive_ite {c : Bool} {p q : Reconcile α} (hp : Passive p) (hq : Passive q) :
    Passive (if c = true then p else q) := by
  split
  · exact hp
  · exact hq

theorem passive_check (c : Bool) (text : String) : Passive (check c text) :=
  passive_ite (passive_pure ()) (passive_fail text)

theorem passive_fence (lease : Option AgentGitFinalizationLease) :
    Passive (fence around lease) := by
  cases lease with
  | none => exact passive_pure ()
  | some held => exact passive_read _

theorem passive_reread (f : GitFinalization) (missing : String) : Passive (reread f missing) := by
  refine passive_bind (passive_read _) fun g => ?_
  cases g with
  | none => exact passive_fail _
  | some g => exact passive_pure g

theorem passive_commitIsRetained (branchRef : Option String)
    (commit sessionId taskIdentity : String) :
    Passive (commitIsRetained objects branchRef commit sessionId taskIdentity) := by
  cases branchRef with
  | none => exact passive_pure false
  | some branch =>
    refine passive_bind (passive_observe _ fun _ => rfl) fun head => ?_
    refine passive_ite (passive_pure _) (passive_bind (passive_observe _ fun _ => rfl) fun _ => ?_)
    refine passive_ite (passive_pure _) (passive_bind (passive_observe _ fun _ => rfl) fun _ => ?_)
    refine passive_bind (passive_lift _) fun retains => ?_
    refine passive_ite (passive_pure _) (passive_bind (passive_observe _ fun _ => rfl) fun _ => ?_)
    exact passive_pure _

theorem passive_recheck (lease : AgentGitFinalizationLease) (f : GitFinalization)
    (branch taskIdentity commit : String) :
    Passive (recheck objects around lease f branch taskIdentity commit) := by
  refine passive_bind (passive_read _) fun _ => passive_bind (passive_read _) fun _ => ?_
  refine passive_bind (passive_check _ _) fun _ => passive_bind (passive_read _) fun _ => ?_
  refine passive_bind (passive_check _ _) fun _ => passive_bind (passive_read _) fun _ => ?_
  refine passive_bind (passive_check _ _) fun _ => passive_bind (passive_read _) fun _ => ?_
  refine passive_bind (passive_check _ _) fun _ => ?_
  refine passive_bind (passive_observe _ fun _ => rfl) fun _ => ?_
  refine passive_bind (passive_check _ _) fun _ => ?_
  refine passive_bind (passive_observe _ fun _ => rfl) fun _ => ?_
  refine passive_bind (passive_check _ _) fun _ => ?_
  exact passive_bind (passive_commitIsRetained _ _ _ _) fun _ => passive_check _ _

theorem passive_worktreeContainsCompletedDoneTask (sessionId : String) :
    Passive (worktreeContainsCompletedDoneTask sessionId) :=
  passive_bind (passive_read _) fun _ => passive_pure _

theorem passive_manifestParentIsCurrent (f : GitFinalization) :
    Passive (manifestParentIsCurrent objects around f) := by
  refine passive_bind (passive_observe _ fun _ => rfl) fun head => ?_
  refine passive_ite (passive_pure _) (passive_bind (passive_observe _ fun _ => rfl) fun _ => ?_)
  refine passive_bind (passive_lift _) fun baseline => ?_
  split
  · exact passive_pure _
  · cases f.startingHead with
    | none => exact passive_pure false
    | some startingHead => exact passive_lift _

theorem passive_acquireGuard (guarded : Bool) (f : GitFinalization) :
    Passive (acquireGuard around guarded f) :=
  passive_ite (passive_bind (passive_read _) fun _ => passive_pure true) (passive_pure guarded)

/-! ## The repair -/

theorem silent_updateRef (branch repaired commit : String) :
    Silent (updateRef branch repaired commit) := by
  refine logs_step fun w => ?_
  split
  · split <;> exact quiet_nil
  · exact quiet_nil

theorem silent_publishRepair (lease : AgentGitFinalizationLease) (f : GitFinalization)
    (baseline : AgentGitWorktreeBaseline) (tree branch taskIdentity commit : String) :
    Silent (publishRepair objects around lease f baseline tree branch taskIdentity commit) := by
  have hread : ∀ g : World → Except String Unit, Silent (Reconcile.read g) := fun g =>
    (passive_read g).silent
  have hrecheck : Silent (recheck objects around lease f branch taskIdentity commit) :=
    (passive_recheck lease f branch taskIdentity commit).silent
  refine silent_bind (hread _) fun _ => silent_bind hrecheck fun _ => ?_
  refine silent_bind (hread _) fun _ => silent_bind hrecheck fun _ => ?_
  refine silent_bind (passive_read _).silent fun _ => silent_bind (passive_lift _).silent fun _ => ?_
  refine silent_bind (passive_check _ _).silent fun _ => silent_bind hrecheck fun _ => ?_
  refine silent_bind (hread _) fun _ => silent_bind (silent_updateRef _ _ _) fun _ => ?_
  exact silent_bind (hread _) fun _ => silent_pure true

theorem silent_repairBoardOrder (lease : Option AgentGitFinalizationLease) (f : GitFinalization)
    (commit : String) : Silent (repairBoardOrder objects around lease f commit) := by
  cases lease with
  | none => exact silent_pure false
  | some held =>
    refine silent_bind (passive_lift _).silent fun _ => ?_
    refine silent_bind (passive_lift _).silent fun baseline => ?_
    split
    · refine silent_ite (silent_pure false) (silent_bind (passive_lift _).silent fun _ => ?_)
      exact silent_ite (silent_pure false) (silent_publishRepair _ _ _ _ _ _ _)
    · exact silent_pure false

end Reconcile

end Clt
