import Clt.Registry.LeaseExpiry
import Clt.Scheduler.Pass

/-!
# The leases of a pass

A pass takes a lease for each of its jobs. Whatever fails, and whatever the others do meanwhile, it
leaves no other lease behind: the log says which leases it took and did not give back
(`Account`), every step keeps this account, and the guards give back what an error leaves.
-/

namespace Clt.Scheduler

open Relational Durable

section

variable (holder : String) (base : Int → Prop)

/-- The holder has the lease of the project. -/
def Holds (w : World) (projectId : Int) : Prop :=
  ∃ l ∈ w.db.leases, l.projectId = projectId ∧ l.holder = holder

/-- What others do: they take no lease in the name of the holder. -/
structure Disturbs (w w' : World) : Prop where
  log : w'.log = w.log
  holds : ∀ p, Holds holder w' p → Holds holder w p

/-- The lease was taken and not given back since. -/
def isTaken (projectId : Int) : List Event → Bool
  | [] => false
  | .acquired other :: rest => other == projectId || isTaken projectId rest
  | .released other :: rest => other != projectId && isTaken projectId rest
  | .unsure other :: rest => other != projectId && isTaken projectId rest
  | _ :: rest => isTaken projectId rest

/-- The leases in the name of the holder are those from before, those that the log has taken, and
those of calls that failed; what was earned was acquired. -/
structure Account (taken earned : List Int) (w : World) : Prop where
  held : ∀ p, Holds holder w p → base p ∨ isTaken p w.log = true ∨ .unsure p ∈ w.log
  taken : ∀ p, isTaken p w.log = true → p ∈ taken
  earned : ∀ p ∈ earned, .acquired p ∈ w.log

/-- The account says what is left when the procedure returns, and nothing is added by an error. -/
abbrev Leaves {α : Type} (taken earned : List Int) (p : Scheduled α) (ok : α → World → Prop) : Prop :=
  Triple (Disturbs holder) (Account holder base taken earned) p ok (fun _ => Account holder base taken earned)
    fun _ => True

/-- The procedure takes no lease and gives none back. -/
def Quiet {α : Type} (p : Scheduled α) : Prop :=
  ∀ taken earned, Leaves holder base taken earned p fun _ => Account holder base taken earned

end

variable {α β : Type} {holder : String} {base : Int → Prop} {taken earned : List Int} {w w' : World}
  {p : Scheduled α} {projectId : Int}

/-! ## The account -/

theorem Account.mono {more : List Int} (h : Account holder base taken earned w)
    (hmore : ∀ p ∈ taken, p ∈ more) : Account holder base more earned w :=
  ⟨h.held, fun p hp => hmore p (h.taken p hp), h.earned⟩

theorem Account.disturbed (h : Account holder base taken earned w) (hd : Disturbs holder w w') :
    Account holder base taken earned w' := by
  constructor
  · intro p hp
    rw [hd.log]
    exact h.held p (hd.holds p hp)
  · intro p hp
    rw [hd.log] at hp
    exact h.taken p hp
  · intro p hp
    rw [hd.log]
    exact h.earned p hp

theorem stable_account : Stable (Disturbs holder) (Account holder base taken earned) :=
  fun _ _ hd h => h.disturbed hd

/-- What was earned may be forgotten. -/
theorem Account.forget {fewer : List Int} (h : Account holder base taken earned w)
    (hfewer : ∀ p ∈ fewer, p ∈ earned) : Account holder base taken fewer w :=
  ⟨h.held, h.taken, fun p hp => h.earned p (hfewer p hp)⟩

/-- The leases may get fewer. -/
theorem Account.fewer {db : Registry} (h : Account holder base taken earned w)
    (hfewer : ∀ l ∈ db.leases, l ∈ w.db.leases) : Account holder base taken earned { w with db } :=
  ⟨fun p ⟨l, hl, hp⟩ => h.held p ⟨l, hfewer l hl, hp⟩, h.taken, h.earned⟩

/-- An event that is not about leases. -/
theorem Account.noted {event : Event} (h : Account holder base taken earned w)
    (hevent : ∀ p, isTaken p (event :: w.log) = isTaken p w.log) :
    Account holder base taken earned (noted event w) := by
  constructor
  · intro p hp
    rcases h.held p hp with hbase | htaken | hunsure
    · exact .inl hbase
    · exact .inr (.inl ((hevent p).trans htaken))
    · exact .inr (.inr (List.mem_cons_of_mem _ hunsure))
  · intro p hp
    exact h.taken p ((hevent p).symm.trans hp)
  · exact fun p hp => List.mem_cons_of_mem _ (h.earned p hp)

/-- A lease is taken. -/
theorem Account.acquired {db : Registry} (h : Account holder base taken earned w)
    (hother : ∀ l ∈ db.leases, l.projectId ≠ projectId → l ∈ w.db.leases) :
    Account holder base (projectId :: taken) (projectId :: earned)
      (Scheduler.noted (.acquired projectId) { w with db }) := by
  constructor
  · rintro p ⟨l, hl, hp, hholder⟩
    by_cases hproject : p = projectId
    · subst hproject
      exact .inr (.inl (by simp [Scheduler.noted, isTaken]))
    · rcases h.held p ⟨l, hother l hl (hp ▸ hproject), hp, hholder⟩ with hbase | htaken | hunsure
      · exact .inl hbase
      · exact .inr (.inl (by simp [Scheduler.noted, isTaken, htaken]))
      · exact .inr (.inr (List.mem_cons_of_mem _ hunsure))
  · intro p hp
    by_cases hproject : projectId = p
    · exact hproject ▸ List.mem_cons_self
    · have hbefore : isTaken p w.log = true := by
        simpa [Scheduler.noted, isTaken, hproject] using hp
      exact List.mem_cons_of_mem _ (h.taken p hbefore)
  · intro p hp
    rcases List.mem_cons.mp hp with rfl | hp
    · exact List.mem_cons_self
    · exact List.mem_cons_of_mem _ (h.earned p hp)

/-- A lease may have been taken, or is perhaps not given back. -/
theorem Account.unsure {db : Registry} (h : Account holder base (projectId :: taken) earned w)
    (hother : ∀ l ∈ db.leases, l.projectId ≠ projectId → l ∈ w.db.leases) :
    Account holder base taken earned (Scheduler.noted (.unsure projectId) { w with db }) := by
  constructor
  · rintro p ⟨l, hl, hp, hholder⟩
    by_cases hproject : p = projectId
    · exact .inr (.inr (hproject ▸ List.mem_cons_self))
    · rcases h.held p ⟨l, hother l hl (hp ▸ hproject), hp, hholder⟩ with hbase | htaken | hunsure
      · exact .inl hbase
      · exact .inr (.inl (by simp [Scheduler.noted, isTaken, htaken, Ne.symm hproject]))
      · exact .inr (.inr (List.mem_cons_of_mem _ hunsure))
  · intro p hp
    by_cases hproject : projectId = p
    · simp [Scheduler.noted, isTaken, hproject] at hp
    · have hbefore : isTaken p w.log = true := by
        simpa [Scheduler.noted, isTaken, hproject] using hp
      exact (List.mem_cons.mp (h.taken p hbefore)).resolve_left (Ne.symm hproject)
  · exact fun p hp => List.mem_cons_of_mem _ (h.earned p hp)

/-- A lease is given back. -/
theorem Account.released (h : Account holder base (projectId :: taken) earned w) :
    Account holder base taken earned (Scheduler.noted (.released projectId)
      { w with db := (w.db.releaseLease projectId holder).db }) := by
  have hmem : ∀ l ∈ (w.db.releaseLease projectId holder).db.leases,
      l ∈ w.db.leases ∧ ¬ (l.projectId = projectId ∧ l.holder = holder) := by
    intro l hl
    obtain ⟨hl, hnot⟩ := Table.mem_delete.mp hl
    exact ⟨hl, by simpa using hnot⟩
  constructor
  · rintro p ⟨l, hl, hp, hholder⟩
    obtain ⟨hbefore, hnot⟩ := hmem l hl
    have hproject : p ≠ projectId := fun he => hnot ⟨hp.trans he, hholder⟩
    rcases h.held p ⟨l, hbefore, hp, hholder⟩ with hbase | htaken | hunsure
    · exact .inl hbase
    · exact .inr (.inl (by simp [Scheduler.noted, isTaken, htaken, Ne.symm hproject]))
    · exact .inr (.inr (List.mem_cons_of_mem _ hunsure))
  · intro p hp
    by_cases hproject : projectId = p
    · simp [Scheduler.noted, isTaken, hproject] at hp
    · have hbefore : isTaken p w.log = true := by
        simpa [Scheduler.noted, isTaken, hproject] using hp
      exact (List.mem_cons.mp (h.taken p hbefore)).resolve_left (Ne.symm hproject)
  · exact fun p hp => List.mem_cons_of_mem _ (h.earned p hp)

/-! ## Quiet procedures -/

theorem quiet_pure {a : α} : Quiet holder base (pure a : Scheduled α) :=
  fun _ _ => triple_pure fun _ hw => hw

theorem quiet_fail {e : String} : Quiet holder base (Procedure.fail e : Scheduled α) :=
  fun _ _ => triple_fail fun _ hw => hw

theorem Quiet.bind {f : α → Scheduled β} (hp : Quiet holder base p)
    (hf : ∀ a, Quiet holder base (f a)) : Quiet holder base (p >>= f) :=
  fun taken earned => Triple.bind (hp taken earned) fun a => hf a taken earned

/-- A quiet procedure before another. -/
theorem Quiet.before {f : α → Scheduled β} {ok : β → World → Prop} (hp : Quiet holder base p)
    (hf : ∀ a, Leaves holder base taken earned (f a) ok) : Leaves holder base taken earned (p >>= f) ok :=
  Triple.bind (hp taken earned) hf

/-- Go on through what is said between the two. -/
theorem leaves_through {f : α → Scheduled β} (ok : α → World → Prop) {next : β → World → Prop}
    (hp : Leaves holder base taken earned p ok)
    (hf : ∀ a, Triple (Disturbs holder) (ok a) (f a) next
      (fun _ => Account holder base taken earned) fun _ => True) :
    Leaves holder base taken earned (p >>= f) next :=
  Triple.bind hp hf

theorem Quiet.attempt (hp : Quiet holder base p) : Quiet holder base p.attempt := by
  intro taken earned
  refine (Triple.attempt (hp taken earned)).of_ok ?_
  intro result w hw
  cases result with
  | ok a => exact hw
  | error e => exact hw

theorem quiet_rethrow {result : Except String α} :
    Quiet holder base (Procedure.rethrow result : Scheduled α) := by
  cases result with
  | ok a => exact quiet_pure
  | error e => exact quiet_fail

theorem quiet_ite {c : Prop} [Decidable c] {q : Scheduled α} (hp : Quiet holder base p)
    (hq : Quiet holder base q) : Quiet holder base (if c then p else q) := by
  by_cases hc : c
  · rw [if_pos hc]
    exact hp
  · rw [if_neg hc]
    exact hq

/-- A step that leaves the account. -/
theorem quiet_step {f : Reply → World → Except String α × World}
    (h : ∀ taken earned i w, Account holder base taken earned w → Account holder base taken earned (f i w).2) :
    Quiet holder base (Procedure.step f) :=
  fun taken earned => triple_step stable_account (fun _ _ => trivial)
    (fun i w _ hw _ => h taken earned i w hw) fun i w _ hw _ => h taken earned i w hw

theorem quiet_ask {f : Reply → α} : Quiet holder base (ask f) :=
  quiet_step fun _ _ i _ hw => by cases i.fails <;> exact hw

theorem quiet_consult {f : Reply → α} : Quiet holder base (consult f) :=
  quiet_step fun _ _ _ _ hw => hw

theorem quiet_read {f : Registry → α} : Quiet holder base (read f) :=
  quiet_step fun _ _ i _ hw => by cases i.fails <;> exact hw

theorem quiet_asked {f : Reply → α} {seen : α → Event}
    (hseen : ∀ a p log, isTaken p (seen a :: log) = isTaken p log) :
    Quiet holder base (asked f seen) := by
  refine quiet_step fun _ _ i w hw => ?_
  cases i.fails with
  | true => exact hw
  | false => exact hw.noted fun p => hseen (f i) p w.log

theorem quiet_eachOf {f : β → Scheduled Unit} (h : ∀ b, Quiet holder base (f b)) (bs : List β) :
    Quiet holder base (eachOf f bs) := by
  induction bs with
  | nil => exact quiet_pure
  | cons b bs ih => exact (h b).bind fun _ => ih

theorem quiet_queuedResumeCanWait (control : SessionControl) :
    Quiet holder base (queuedResumeCanWait projectId control) := by
  refine quiet_ite quiet_pure (quiet_ask.bind fun task => ?_)
  cases task with
  | none => exact quiet_pure
  | some task =>
    refine Quiet.bind ?_ fun held => ?_
    · exact quiet_ite quiet_pure (quiet_ite quiet_pure quiet_ask)
    · exact quiet_ite quiet_pure (quiet_ite quiet_ask quiet_pure)

theorem quiet_anySuspends (controls : List SessionControl) :
    Quiet holder base (anySuspends projectId controls) := by
  induction controls with
  | nil => exact quiet_pure
  | cons control rest ih =>
    refine Quiet.bind ?_ fun waits => ?_
    · exact quiet_ite quiet_pure (quiet_queuedResumeCanWait control)
    · exact quiet_ite ih quiet_pure

theorem quiet_controlsSuspendReadyWork (controls : List SessionControl) :
    Quiet holder base (controlsSuspendReadyWork projectId controls) :=
  quiet_ite (quiet_anySuspends controls) quiet_pure

section

variable {request : PassRequest} {project : Project} {s : Progress} {scan : AgentProjectScan}
  {selection : AgentTaskSelection} {session : Option String}

theorem quiet_recheck : Quiet holder base (recheck project selection session) := by
  refine Quiet.bind ?_ fun manual => quiet_ite quiet_pure ?_
  · cases session with
    | none => exact quiet_pure
    | some session => exact quiet_asked fun _ _ _ => rfl
  refine Quiet.bind ?_ fun waiting => quiet_ite quiet_pure ?_
  · cases session with
    | none => exact quiet_pure
    | some session => exact quiet_asked fun _ _ _ => rfl
  refine Quiet.bind ?_ fun ready => quiet_ite quiet_pure ?_
  · exact quiet_ite (quiet_asked fun _ _ _ => rfl) quiet_pure
  refine quiet_ite (quiet_ask.bind fun blocked => Quiet.bind ?_ fun gate => quiet_pure) quiet_pure
  exact quiet_asked fun _ _ _ => rfl

theorem quiet_isSuspended : Quiet holder base (isSuspended project selection session) :=
  quiet_ite quiet_pure (quiet_read.bind fun controls =>
    quiet_ite quiet_pure (quiet_controlsSuspendReadyWork controls))

theorem mem_tryReclaimInactiveAgentLease {pass : Pass} {lease l : Lease} {reclaim : Bool}
    {db : Registry} (h : l ∈ (pass.tryReclaimInactiveAgentLease lease reclaim db).db.leases) :
    l ∈ db.leases := by
  unfold Pass.tryReclaimInactiveAgentLease at h
  dsimp only at h
  split at h
  · exact h
  · split at h
    · exact h
    · exact (Table.mem_delete.mp h).1

theorem quiet_tryReclaim {lease : Lease} : Quiet holder base (tryReclaim request project lease) := by
  refine quiet_step fun taken earned i w hw => ?_
  dsimp only
  have hfewer : Account holder base taken earned { w with
      db := (reclaiming request project lease i.now).tryReclaimInactiveAgentLease lease
        request.reclaimCurrentProcessLeases w.db |>.db } :=
    hw.fewer fun l hl => mem_tryReclaimInactiveAgentLease hl
  by_cases hfails : i.fails = true
  · rw [if_pos hfails]
    by_cases hlate : i.late = true
    · rw [if_pos hlate]
      exact hfewer
    · rw [if_neg hlate]
      exact hw
  · rw [if_neg hfails]
    split
    · exact hfewer
    · exact hfewer

/-! ## Acquisitions -/

theorem mem_of_tryAcquireLease_error {db : Registry} {acquiredAt expiresAt e : String} {l : Lease}
    (h : (db.tryAcquireLease projectId holder acquiredAt expiresAt).result = .error e)
    (hl : l ∈ (db.tryAcquireLease projectId holder acquiredAt expiresAt).db.leases) :
    l ∈ db.leases := by
  unfold Registry.tryAcquireLease at h hl
  dsimp only at h hl
  split at h
  · cases h
  · rename_i hrefused
    rw [hrefused] at hl
    exact (Table.mem_delete.mp hl).1

/-- The account after an acquisition. -/
def after (taken : List Int) (projectId : Int) (acquired : Bool) : List Int :=
  if acquired then projectId :: taken else taken

theorem leaves_tryAcquire : Leaves holder base taken earned (tryAcquire projectId holder) fun result =>
    Account holder base (after taken projectId result.1) (after earned projectId result.1) := by
  have hother : ∀ (w : World) (i : Reply),
      ∀ l ∈ (w.db.tryAcquireLease projectId holder i.acquiredAt i.expiresAt).db.leases,
        l.projectId ≠ projectId → l ∈ w.db.leases := by
    intro w i l hl hproject
    obtain ⟨leases, hothers, hdb⟩ :=
      w.db.tryAcquireLease_others holder i.acquiredAt i.expiresAt
    rw [hdb] at hl
    exact (hothers l hproject).mp hl
  refine triple_step stable_account (fun _ _ => trivial) (fun i w a hw hok => ?_)
    fun i w e hw herror => ?_
  · dsimp only at hok ⊢
    by_cases hfails : i.fails = true
    · rw [if_pos hfails] at hok
      cases hok
    · rw [if_neg hfails] at hok ⊢
      split at hok
      · cases hok
      · cases hok
        exact hw.acquired (hother w i)
      · cases hok
        rename_i hrefused
        exact hw.fewer fun l hl => by
          rw [Registry.tryAcquireLease_refused hrefused] at hl
          exact hl
  · dsimp only at herror ⊢
    have hmore : Account holder base (projectId :: taken) earned w :=
      hw.mono fun p hp => List.mem_cons_of_mem _ hp
    by_cases hfails : i.fails = true
    · rw [if_pos hfails]
      by_cases hlate : i.late = true
      · rw [if_pos hlate]
        exact hmore.unsure (hother w i)
      · rw [if_neg hlate]
        exact hw
    · rw [if_neg hfails] at herror ⊢
      split at herror
      · rename_i hresult
        exact hw.fewer fun l hl => mem_of_tryAcquireLease_error hresult hl
      · cases herror
      · cases herror

theorem leaves_release :
    Triple (Disturbs holder) (Account holder base (projectId :: taken) earned) (release projectId holder)
      (fun _ => Account holder base taken earned) (fun _ => Account holder base taken earned) fun _ => True := by
  have hother : ∀ (w : World), ∀ l ∈ (w.db.releaseLease projectId holder).db.leases,
      l.projectId ≠ projectId → l ∈ w.db.leases :=
    fun w l hl _ => (Table.mem_delete.mp hl).1
  refine triple_step stable_account (fun _ _ => trivial) (fun i w a hw hok => ?_)
    fun i w e hw herror => ?_
  · dsimp only at hok ⊢
    by_cases hfails : i.fails = true
    · rw [if_pos hfails] at hok
      cases hok
    · rw [if_neg hfails]
      exact hw.released
  · dsimp only at herror ⊢
    by_cases hfails : i.fails = true
    · rw [if_pos hfails]
      by_cases hlate : i.late = true
      · rw [if_pos hlate]
        exact hw.unsure (hother w)
      · rw [if_neg hlate]
        exact hw.unsure fun l hl _ => hl
    · rw [if_neg hfails] at herror
      cases herror

/-- The guard gives back all that it holds. -/
theorem leaves_dropGuard (leases : List Int) :
    Triple (Disturbs holder) (Account holder base (leases ++ taken) earned)
      (dropGuard (leases.map fun projectId => (projectId, holder)))
      (fun _ => Account holder base taken earned) (fun _ => Account holder base taken earned) fun _ => True := by
  induction leases with
  | nil => exact triple_pure fun _ hw => hw
  | cons projectId rest ih =>
    have hrelease : Triple (Disturbs holder) (Account holder base (projectId :: (rest ++ taken)) earned)
        (release projectId holder).attempt
        (Attempted (fun _ => Account holder base (rest ++ taken) earned)
          fun _ => Account holder base (rest ++ taken) earned)
        (fun _ => Account holder base taken earned) fun _ => True := Triple.attempt leaves_release
    refine Triple.bind hrelease fun result => ih.of_pre fun w hw => ?_
    cases result with
    | ok a => exact hw
    | error e => exact hw

/-- An error under a guard leaves what was held before. -/
theorem leaves_underGuard (leases : List Int) {ok : α → World → Prop}
    (h : Leaves holder base (leases ++ taken) earned p ok) :
    Triple (Disturbs holder) (Account holder base (leases ++ taken) earned)
      (underGuard (leases.map fun projectId => (projectId, holder)) p) ok
      (fun _ => Account holder base taken earned) fun _ => True := by
  have hattempt : Triple (Disturbs holder) (Account holder base (leases ++ taken) earned) p.attempt
      (Attempted ok fun _ => Account holder base (leases ++ taken) earned)
      (fun _ => Account holder base taken earned) fun _ => True := Triple.attempt h
  refine Triple.bind hattempt fun result => ?_
  cases result with
  | ok a => exact triple_pure fun _ hw => hw
  | error e => exact Triple.bind (leaves_dropGuard leases) fun _ => triple_fail fun _ hw => hw

end

end Clt.Scheduler
