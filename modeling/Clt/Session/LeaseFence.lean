import Clt.Registry.LeaseLoss
import Clt.Session.Liveness

/-!
# Who takes a lease away

Schedulers, workers, resume workers, reattached supervisors and interactive guardians share the
registry. Each call of theirs is one step, and so is each read between calls: a party that has
found a lease reclaimable goes on with it while the others move (`Reclaim`). Which holder a party
passes to a call is what the program writes there (`RegistryOp.AsCalled`). A lease of an active
worker is then lost only to the end of that worker, unless a resume worker, or the pass that ends
the run of another worker, releases a lease that it found expired.
-/

namespace Clt

open Relational Registry

/-! ## Holders -/

theorem likePrefix_of_startsWith {s pre : String} (h : startsWith s pre = true) :
    likePrefix pre s = true :=
  List.isPrefixOf_iff_prefix.mpr ((List.isPrefixOf_iff_prefix.mp h).map _)

theorem startsWith_workerLeaseHolder (workerToken : String) :
    startsWith (workerLeaseHolder workerToken) "clt-worker-" = true := by
  refine List.isPrefixOf_iff_prefix.mpr ⟨workerToken.toList, ?_⟩
  rw [workerLeaseHolder, String.toList_append]

theorem workerLeaseHolder_inj {a b : String} (h : workerLeaseHolder a = workerLeaseHolder b) :
    a = b := by
  have hlists := congrArg String.toList h
  rw [workerLeaseHolder, workerLeaseHolder, String.toList_append, String.toList_append] at hlists
  exact String.toList_inj.mp (List.append_cancel_left hlists)

theorem startsWith_of_recoveredSupervisorPid {holder : String} {pid : Nat}
    (h : recoveredSupervisorPid holder = some pid) :
    startsWith holder "clt-reattached-" = true := by
  obtain ⟨text, htext, -⟩ := Option.bind_eq_some_iff.mp h
  unfold stripHolderPrefix at htext
  split at htext
  · assumption
  · cases htext

theorem isReattachedHolder_of_supervisor {holder : String} {pid : Nat}
    (h : recoveredSupervisorPid holder = some pid) : isReattachedHolder holder = true :=
  likePrefix_of_startsWith (startsWith_of_recoveredSupervisorPid h)

/-- A worker is no reattached supervisor. -/
theorem recoveredSupervisorPid_workerLeaseHolder (workerToken : String) :
    recoveredSupervisorPid (workerLeaseHolder workerToken) = none := by
  refine Option.eq_none_iff_forall_ne_some.mpr fun pid h => ?_
  have hprefix := prefix_of_startsWith (startsWith_of_recoveredSupervisorPid h)
    (startsWith_workerLeaseHolder workerToken)
  exact absurd hprefix (by decide)

/-- The process of a worker is not read off its holder. -/
theorem Processes.liveness_workerLeaseHolder (os : Processes) (workerToken : String) :
    os.agentLeaseHolderLiveness (workerLeaseHolder workerToken) = .unknown :=
  os.agentLeaseHolderLiveness_eq_unknown (startsWith_workerLeaseHolder workerToken) (by decide)

/-- The holder of a supervisor names the process that its liveness is asked of. -/
theorem Processes.liveness_supervisor (os : Processes) {holder : String} {pid : Nat}
    (h : recoveredSupervisorPid holder = some pid) :
    os.agentLeaseHolderLiveness holder = os.agentPidLiveness pid := by
  rw [agentLeaseHolderLiveness, agentLeaseHolderPid, h]

theorem Processes.eq_currentPid {os : Processes} {pid : Nat}
    (h : os.agentPidLiveness pid = .currentProcess) : pid = os.currentPid := by
  unfold agentPidLiveness at h
  split at h
  · assumption
  · split at h <;> cases h

/-- A holder of neither a worker nor a reattached supervisor. -/
def IsPlainHolder (holder : String) : Prop :=
  startsWith holder "clt-worker-" = false ∧ recoveredSupervisorPid holder = none

/-! ## The parties -/

/-- How far a party is with a lease that it is about to take back. -/
inductive ReclaimStage where
  /-- Found reclaimable, by a scheduler. -/
  | found
  /-- And no active worker has it. -/
  | unfenced
  /-- Found with a dead owner, by the repair of the workers. -/
  | deadOwner
  /-- Found reclaimable, by a resume worker. -/
  | resumeWorker
  deriving DecidableEq

/-- A lease that a party is about to take back. -/
structure Reclaim where
  projectId : Int
  holder : String
  stage : ReclaimStage
  deriving DecidableEq

/-- The registry, what the parties are about to take back, and the holders whose process somebody
has found dead. -/
structure Fleet where
  db : Registry
  reclaims : List Reclaim
  dead : List String

/-- A step of one party. -/
inductive PartyAct where
  | call (op : RegistryOp)
  | find (lease : Lease)
  | findNoWorker (reclaim : Reclaim)
  | findDeadOwner (lease : Lease)
  | findAsResumeWorker (lease : Lease)
  | release (reclaim : Reclaim)

/-- The process of the holder is found dead. -/
def Processes.findsDead (os : Processes) (holder : String) : Bool :=
  os.agentLeaseHolderLiveness holder = .dead || os.interactiveLeaseHolderIsProvenDead holder

/-- The dead holders after one more has been looked at. -/
def Processes.note (os : Processes) (holder : String) (dead : List String) : List String :=
  if os.findsDead holder then holder :: dead else dead

/-- What the parties pass to the calls that can take a lease away: their own holder, the holder of
the run that they end, or a lease that they have found reclaimable. A new worker has a token that
nobody has read yet, and a supervisor releases its lease itself. The cancellation of a journal is a
call of the user's. -/
def RegistryOp.AsCalled (os : Processes) (s : Fleet) : RegistryOp → Prop
  | .releaseLease _ holder =>
    (startsWith holder "clt-worker-" = false ∧
        ∀ pid, recoveredSupervisorPid holder = some pid → pid = os.currentPid) ∨
      -- The lease of a worker goes after the worker has come to an end.
      ∃ w ∈ s.db.agentWorkers, w.leaseHolder = holder ∧ w.state.isActive = false
  | .completeSessionInterruptHandoff _ _ runToken fromHolder .. =>
    fromHolder = workerLeaseHolder runToken ∨ IsPlainHolder fromHolder
  | .finalizeReapedAutomatedSession projectId _ runToken holder .. =>
    holder = workerLeaseHolder runToken ∨ IsPlainHolder holder ∨
      ⟨projectId, holder, .found⟩ ∈ s.reclaims
  | .finalizeReattachedAutomatedSession _ holder .. =>
    recoveredSupervisorPid holder = some os.currentPid
  | .adoptInteractiveGuardian _ _ holder .. | .finishInteractiveGuardian _ _ holder ..
  | .recoverStaleInteractiveGuardian _ _ holder .. => IsPlainHolder holder
  | .reserveWorker r _ =>
    IsPlainHolder r.expectedLeaseHolder ∧
      ∀ reclaim ∈ s.reclaims, reclaim.holder ≠ workerLeaseHolder r.workerToken
  | .tryAcquireGitFinalizationLease _ _ _ _ reclaimHolder =>
    ∀ holder ∈ reclaimHolder, os.agentLeaseHolderLiveness holder = .dead ∨
      os.agentLeaseHolderLiveness holder = .currentProcess
  | .cancelIdleWorkingGitFinalization .. => False
  | _ => True

/-- One step of a party that runs as `os.currentPid`, at some time. -/
inductive Fleet.Step (os : Processes) (now : Nat) : PartyAct → Fleet → Fleet → Prop
  | call {s : Fleet} {op : RegistryOp} (h : op.AsCalled os s) :
      Step os now (.call op) s { s with db := op.apply s.db }
  /-- `try_reclaim_inactive_agent_lease`, up to the read of the worker list. -/
  | find {s : Fleet} {lease : Lease} {reclaimCurrentProcessLeases : Bool}
      (hlease : lease ∈ s.db.leases)
      (h : os.agentLeaseIsReclaimable lease reclaimCurrentProcessLeases now = true ∨
        os.interactiveLeaseHolderIsProvenDead lease.holder = true ∧
          ∀ sc ∈ s.db.sessionControls, sc.projectId = lease.projectId →
            sc.interactiveHolder ≠ some lease.holder) :
      Step os now (.find lease) s { s with
        reclaims := ⟨lease.projectId, lease.holder, .found⟩ :: s.reclaims
        dead := os.note lease.holder s.dead }
  /-- The read of the worker list: a lease of an active worker is left alone. -/
  | findNoWorker {s : Fleet} {reclaim : Reclaim} (hreclaim : reclaim ∈ s.reclaims)
      (hfound : reclaim.stage = .found)
      (h : ∀ w ∈ s.db.agentWorkers, w.state.isActive = true →
        w.projectId = reclaim.projectId → w.leaseHolder ≠ reclaim.holder) :
      Step os now (.findNoWorker reclaim) s { s with
        reclaims := { reclaim with stage := .unfenced } :: s.reclaims.erase reclaim }
  /-- The repair of the workers, which has found no active worker in the project before. -/
  | findDeadOwner {s : Fleet} {lease : Lease} (hlease : lease ∈ s.db.leases)
      (h : os.agentLeaseHolderLiveness lease.holder = .dead) :
      Step os now (.findDeadOwner lease) s { s with
        reclaims := ⟨lease.projectId, lease.holder, .deadOwner⟩ :: s.reclaims
        dead := os.note lease.holder s.dead }
  /-- `run_agent_session_resume_worker`, after its own acquisition was refused. -/
  | findAsResumeWorker {s : Fleet} {lease : Lease} (hlease : lease ∈ s.db.leases)
      (h : os.agentLeaseIsReclaimable lease false now = true) :
      Step os now (.findAsResumeWorker lease) s { s with
        reclaims := ⟨lease.projectId, lease.holder, .resumeWorker⟩ :: s.reclaims
        dead := os.note lease.holder s.dead }
  | release {s : Fleet} {reclaim : Reclaim} (hreclaim : reclaim ∈ s.reclaims)
      (hstage : reclaim.stage ≠ .found) :
      Step os now (.release reclaim) s { s with
        db := (s.db.releaseLease reclaim.projectId reclaim.holder).db
        reclaims := s.reclaims.erase reclaim }

/-- A step with the states around it. -/
structure FleetEvent where
  os : Processes
  now : Nat
  act : PartyAct
  before : Fleet
  after : Fleet

/-- The steps of any number of parties, one after the other. -/
inductive Fleet.Run : Fleet → List FleetEvent → Prop
  | nil (s : Fleet) : Run s []
  | cons {e : FleetEvent} {rest : List FleetEvent}
      (hstep : Fleet.Step e.os e.now e.act e.before e.after) (hrest : Run e.after rest) :
      Run e.before (e :: rest)

/-! ## Leases are kept -/

/-- The step is the finalization, the abandonment or the interrupt hand-off of the worker. -/
def PartyAct.EndsWorker (workerToken : String) : PartyAct → Prop
  | .call (.finalizeWorker q) => q.workerToken = workerToken
  | .call (.abandonWorker q) => q.workerToken = workerToken
  | .call (.completeSessionInterruptHandoff _ _ runToken ..) => runToken = workerToken
  | .call (.finalizeReapedAutomatedSession _ _ runToken ..) => runToken = workerToken
  | _ => False

/-- The step takes no lease of an active worker but at the end of that worker, and none of a
reattached supervisor but by that supervisor or after its process was found dead. -/
structure FleetEvent.KeepsLeases (e : FleetEvent) : Prop where
  worker : ∀ l ∈ e.before.db.leases, ∀ w ∈ e.before.db.agentWorkers, w.state.isActive = true →
    w.projectId = l.projectId → w.leaseHolder = l.holder →
      LeaseStays l e.after.db.leases ∨ e.act.EndsWorker w.workerToken
  supervisor : ∀ l ∈ e.before.db.leases, ∀ pid, recoveredSupervisorPid l.holder = some pid →
    LeaseStays l e.after.db.leases ∨ pid = e.os.currentPid ∨ l.holder ∈ e.before.dead ∨
      e.os.agentLeaseHolderLiveness l.holder = .dead

/-- The step releases a lease of an active worker that it has not asked about: a resume worker
does, and a pass that ends the run of another worker. -/
def PartyAct.Hazard (s : Fleet) : PartyAct → Prop
  | .release reclaim =>
    reclaim.stage = .resumeWorker ∧ ∃ w ∈ s.db.agentWorkers, w.state.isActive = true ∧
      w.projectId = reclaim.projectId ∧ w.leaseHolder = reclaim.holder
  | .call (.finalizeReapedAutomatedSession projectId _ runToken holder ..) =>
    ∃ w ∈ s.db.agentWorkers, w.state.isActive = true ∧ w.projectId = projectId ∧
      w.leaseHolder = holder ∧ w.workerToken ≠ runToken
  | _ => False

/-! ## Invariants -/

/-- What holds between the steps of the parties. -/
structure Fleet.Inv (s : Fleet) : Prop where
  named : ∀ w ∈ s.db.agentWorkers, w.leaseHolder = workerLeaseHolder w.workerToken
  dead : ∀ reclaim ∈ s.reclaims, ∀ pid, recoveredSupervisorPid reclaim.holder = some pid →
    reclaim.holder ∈ s.dead
  unfenced : ∀ reclaim ∈ s.reclaims, reclaim.stage = .unfenced →
    ∀ w ∈ s.db.agentWorkers, w.state.isActive = true → w.projectId = reclaim.projectId →
      w.leaseHolder ≠ reclaim.holder
  unnamed : ∀ reclaim ∈ s.reclaims, reclaim.stage = .deadOwner →
    ∀ workerToken, reclaim.holder ≠ workerLeaseHolder workerToken

namespace Fleet

variable {os : Processes} {now : Nat} {act : PartyAct} {s s' : Fleet}

/-- A lease of a reattached supervisor is reclaimable only when its process is found dead. -/
theorem findsDead_of_reclaimable {lease : Lease} {reclaimCurrentProcessLeases : Bool} {pid : Nat}
    (hsupervisor : recoveredSupervisorPid lease.holder = some pid)
    (h : os.agentLeaseIsReclaimable lease reclaimCurrentProcessLeases now = true) :
    os.findsDead lease.holder = true := by
  rw [Processes.agentLeaseIsReclaimable, hsupervisor, Option.isSome_some, if_pos rfl] at h
  rw [Processes.findsDead, h]
  rfl

theorem mem_note {holder : String} {dead : List String} (h : os.findsDead holder = true) :
    holder ∈ os.note holder dead := by
  rw [Processes.note, if_pos h]
  exact List.mem_cons_self

theorem subset_note (holder : String) (dead : List String) : dead ⊆ os.note holder dead := by
  unfold Processes.note
  split
  · exact List.subset_cons_self ..
  · exact List.Subset.refl _

/-- A party begins to take a lease back. -/
theorem Inv.begin_reclaim (h : s.Inv) {lease : Lease} {stage : ReclaimStage}
    (hdead : ∀ pid, recoveredSupervisorPid lease.holder = some pid →
      os.findsDead lease.holder = true)
    (hstage : stage ≠ .unfenced)
    (hunnamed : stage = .deadOwner → ∀ workerToken, lease.holder ≠ workerLeaseHolder workerToken) :
    Inv { s with
      reclaims := ⟨lease.projectId, lease.holder, stage⟩ :: s.reclaims
      dead := os.note lease.holder s.dead } where
  named := h.named
  dead := by
    intro reclaim hreclaim pid hpid
    rcases List.mem_cons.mp hreclaim with rfl | hreclaim
    · exact mem_note (hdead pid hpid)
    · exact subset_note _ _ (h.dead reclaim hreclaim pid hpid)
  unfenced := by
    intro reclaim hreclaim hunfenced
    rcases List.mem_cons.mp hreclaim with rfl | hreclaim
    · exact absurd hunfenced hstage
    · exact h.unfenced reclaim hreclaim hunfenced
  unnamed := by
    intro reclaim hreclaim hdeadOwner
    rcases List.mem_cons.mp hreclaim with rfl | hreclaim
    · exact hunnamed hdeadOwner
    · exact h.unnamed reclaim hreclaim hdeadOwner

/-- A call keeps the invariants: a worker that becomes active is a new one. -/
theorem Inv.call (h : s.Inv) {op : RegistryOp}
    (hfresh : ∀ w, op.reserves w → ∀ reclaim ∈ s.reclaims,
      reclaim.holder ≠ workerLeaseHolder w.workerToken) :
    Inv { s with db := op.apply s.db } where
  named := by
    intro w' hw'
    rcases op.worker_cases hw' with ⟨w, hw, hcontinues⟩ | hnew
    · rw [hcontinues.leaseHolder, hcontinues.workerToken]
      exact h.named w hw
    · cases op with
      | reserveWorker r initialClaim => rw [hnew.2.2, hnew.1]
      | _ => exact hnew.elim
  dead := h.dead
  unfenced := by
    intro reclaim hreclaim hunfenced w' hw' hactive hproject hholder
    rcases op.worker_cases hw' with ⟨w, hw, hcontinues⟩ | hnew
    · have hwas : w.state.isActive = true := by
        by_contra hidle
        rw [hcontinues.inactive (Bool.eq_false_iff.mpr hidle)] at hactive
        cases hactive
      exact h.unfenced reclaim hreclaim hunfenced w hw hwas
        (hcontinues.projectId.symm.trans hproject) (hcontinues.leaseHolder.symm.trans hholder)
    · have hnamed : w'.leaseHolder = workerLeaseHolder w'.workerToken := by
        cases op with
        | reserveWorker r initialClaim => rw [hnew.2.2, hnew.1]
        | _ => exact hnew.elim
      exact hfresh w' hnew reclaim hreclaim (hholder.symm.trans hnamed)
  unnamed := h.unnamed

theorem Inv.forget (h : s.Inv) (reclaim : Reclaim) :
    Inv { s with reclaims := s.reclaims.erase reclaim } where
  named := h.named
  dead := fun r hr => h.dead r (List.mem_of_mem_erase hr)
  unfenced := fun r hr => h.unfenced r (List.mem_of_mem_erase hr)
  unnamed := fun r hr => h.unnamed r (List.mem_of_mem_erase hr)

/-- Every step keeps the invariants. -/
theorem Inv.step (h : s.Inv) (hstep : Step os now act s s') : s'.Inv := by
  cases hstep with
  | @call _ op hcalled =>
    refine h.call fun w hreserves => ?_
    cases op with
    | reserveWorker r initialClaim =>
      rw [hreserves.1]
      exact hcalled.2
    | _ => exact hreserves.elim
  | find _ hreclaimable =>
    refine h.begin_reclaim (fun pid hpid => ?_) (by decide)
      (by intro hstage; cases hstage)
    rcases hreclaimable with hreclaimable | ⟨hproven, -⟩
    · exact findsDead_of_reclaimable hpid hreclaimable
    · rw [Processes.findsDead, hproven, Bool.or_true]
  | @findNoWorker _ reclaim hreclaim hfound hnone =>
    have hleft := h.forget reclaim
    refine ⟨h.named, ?_, ?_, ?_⟩
    · intro r hr pid hpid
      rcases List.mem_cons.mp hr with rfl | hr
      · exact h.dead reclaim hreclaim pid hpid
      · exact hleft.dead r hr pid hpid
    · intro r hr hunfenced
      rcases List.mem_cons.mp hr with rfl | hr
      · exact hnone
      · exact hleft.unfenced r hr hunfenced
    · intro r hr hdeadOwner
      rcases List.mem_cons.mp hr with rfl | hr
      · cases hdeadOwner
      · exact hleft.unnamed r hr hdeadOwner
  | findDeadOwner _ hdead =>
    refine h.begin_reclaim (fun _ _ => ?_) (by decide) fun _ workerToken hholder => ?_
    · rw [Processes.findsDead, hdead]
      rfl
    · rw [hholder, os.liveness_workerLeaseHolder] at hdead
      cases hdead
  | findAsResumeWorker _ hreclaimable =>
    exact h.begin_reclaim (fun _ hpid => findsDead_of_reclaimable hpid hreclaimable) (by decide)
      (by intro hstage; cases hstage)
  | @release _ reclaim hreclaim _ =>
    exact (@Inv.call _ h (.releaseLease reclaim.projectId reclaim.holder)
      (by intro w hw; exact hw.elim)).forget reclaim

/-! ## Leases that a call takes -/

/-- Two workers with one holder are one worker. -/
theorem eq_of_leaseHolder {w w' : AgentWorker} (hw : w ∈ s.db.agentWorkers)
    (hw' : w' ∈ s.db.agentWorkers) (hholder : w.leaseHolder = w'.leaseHolder) : w = w' :=
  Table.eq_of_conflict hw hw' (by simp [Keyed.conflict, hholder])

/-- A call takes the lease of an active worker only at the end of the worker, or as the pass does
that ends the run of another. -/
theorem Inv.call_endsWorker (h : s.Inv) {op : RegistryOp} (hcalled : op.AsCalled os s)
    (hsafe : ¬ (PartyAct.call op).Hazard s) {l : Lease} {w : AgentWorker}
    (hw : w ∈ s.db.agentWorkers) (hactive : w.state.isActive = true)
    (hproject : w.projectId = l.projectId) (hholder : w.leaseHolder = l.holder)
    (htakes : op.takes s.db l) : (PartyAct.call op).EndsWorker w.workerToken := by
  have hnamed := h.named w hw
  have hworker : startsWith l.holder "clt-worker-" = true := by
    rw [← hholder, hnamed]
    exact startsWith_workerLeaseHolder _
  have hnot_plain (hplain : IsPlainHolder l.holder) : False := by
    rw [hplain.1] at hworker
    cases hworker
  have hof {token : String} (hl : l.holder = workerLeaseHolder token) : token = w.workerToken :=
    workerLeaseHolder_inj (hl.symm.trans (hholder.symm.trans hnamed))
  have hactiveIn : w.activeIn l.projectId = true := by
    simp only [AgentWorker.activeIn, hproject, beq_self_eq_true, hactive, Bool.and_self]
  cases op with
  | tryAcquireLease projectId holder acquiredAt expiresAt =>
    have hfenced : s.db.leaseOfActiveWorker l = true :=
      Table.any_iff.mpr ⟨w, hw, by rw [hactiveIn, hholder, beq_self_eq_true]; rfl⟩
    simp only [RegistryOp.takes, clearableLease, hfenced, Bool.not_true, Bool.and_false,
      Bool.false_eq_true] at htakes
  | tryAcquireGitFinalizationLease projectId holder acquiredAt expiresAt reclaimHolder =>
    have htakes := reclaimableLease_iff.mp htakes
    rw [blocksFinalizer, Bool.or_eq_false_iff] at htakes
    have hidle := Table.any_eq_false_iff.mp htakes.2.2.1 w hw
    rw [← htakes.1, hactiveIn] at hidle
    cases hidle
  | releaseLease projectId holder =>
    obtain ⟨-, rfl⟩ := htakes
    rcases hcalled with ⟨hplain, -⟩ | ⟨w', hw', hsame, hidle⟩
    · rw [hplain] at hworker
      cases hworker
    · rw [eq_of_leaseHolder hw' hw (hsame.trans hholder.symm), hactive] at hidle
      cases hidle
  | completeSessionInterruptHandoff projectId session runToken fromHolder =>
    obtain ⟨-, rfl⟩ := htakes
    exact hcalled.elim hof fun hplain => (hnot_plain hplain).elim
  | finalizeReapedAutomatedSession projectId childPid runToken holder =>
    obtain ⟨hl, rfl⟩ := htakes
    by_contra hother
    exact hsafe ⟨w, hw, hactive, hproject.trans hl, hholder, fun hsame => hother hsame.symm⟩
  | finalizeReattachedAutomatedSession expected holder =>
    obtain ⟨-, rfl⟩ := htakes
    rw [RegistryOp.AsCalled, ← hholder, hnamed, recoveredSupervisorPid_workerLeaseHolder] at hcalled
    cases hcalled
  | adoptInteractiveGuardian projectId session holder =>
    obtain ⟨-, rfl⟩ := htakes
    exact (hnot_plain hcalled).elim
  | finishInteractiveGuardian projectId session holder =>
    obtain ⟨-, rfl⟩ := htakes
    exact (hnot_plain hcalled).elim
  | recoverStaleInteractiveGuardian projectId session holder =>
    obtain ⟨-, rfl⟩ := htakes
    exact (hnot_plain hcalled).elim
  | reserveWorker r initialClaim =>
    obtain ⟨-, hl⟩ := htakes
    exact (hnot_plain (hl ▸ hcalled.1)).elim
  | abandonWorker q =>
    obtain ⟨w', hw', htoken, -, hl⟩ := htakes
    rw [eq_of_leaseHolder hw hw' (hholder.trans hl)]
    exact htoken.symm
  | finalizeWorker q =>
    obtain ⟨w', hw', htoken, -, hl⟩ := htakes
    rw [eq_of_leaseHolder hw hw' (hholder.trans hl)]
    exact htoken.symm
  | cancelIdleWorkingGitFinalization => exact hcalled.elim
  | _ => exact htakes.elim

/-- A call takes the lease of a reattached supervisor only as that supervisor, or from a dead
one. -/
theorem Inv.call_supervisor (h : s.Inv) {op : RegistryOp} (hcalled : op.AsCalled os s)
    {l : Lease} {pid : Nat} (hpid : recoveredSupervisorPid l.holder = some pid)
    (htakes : op.takes s.db l) :
    pid = os.currentPid ∨ l.holder ∈ s.dead ∨ os.agentLeaseHolderLiveness l.holder = .dead := by
  have hreattached := isReattachedHolder_of_supervisor hpid
  have hnot_worker {token : String} (hl : l.holder = workerLeaseHolder token) : False := by
    rw [hl, recoveredSupervisorPid_workerLeaseHolder] at hpid
    cases hpid
  have hnot_plain (hplain : IsPlainHolder l.holder) : False := by
    rw [hplain.2] at hpid
    cases hpid
  cases op with
  | tryAcquireLease projectId holder acquiredAt expiresAt =>
    simp only [RegistryOp.takes, clearableLease, hreattached, Bool.not_true, Bool.and_false,
      Bool.false_and, Bool.false_eq_true] at htakes
  | tryAcquireGitFinalizationLease projectId holder acquiredAt expiresAt reclaimHolder =>
    rcases (reclaimableLease_iff.mp htakes).2.1 with ⟨hother, -⟩ | hreclaim
    · rw [hreattached] at hother
      cases hother
    · rcases hcalled l.holder hreclaim with hdead | hcurrent
      · exact .inr (.inr hdead)
      · rw [os.liveness_supervisor hpid] at hcurrent
        exact .inl (Processes.eq_currentPid hcurrent)
  | releaseLease projectId holder =>
    obtain ⟨-, rfl⟩ := htakes
    rcases hcalled with ⟨-, hown⟩ | ⟨w, hw, hsame, -⟩
    · exact .inl (hown pid hpid)
    · exact (hnot_worker (hsame.symm.trans (h.named w hw))).elim
  | completeSessionInterruptHandoff projectId session runToken fromHolder =>
    obtain ⟨-, rfl⟩ := htakes
    exact (hcalled.elim hnot_worker hnot_plain).elim
  | finalizeReapedAutomatedSession projectId childPid runToken holder =>
    obtain ⟨-, rfl⟩ := htakes
    rcases hcalled with hl | hplain | hfound
    · exact (hnot_worker hl).elim
    · exact (hnot_plain hplain).elim
    · exact .inr (.inl (h.dead _ hfound pid hpid))
  | finalizeReattachedAutomatedSession expected holder =>
    obtain ⟨-, rfl⟩ := htakes
    exact .inl (Option.some.inj (hpid.symm.trans hcalled))
  | adoptInteractiveGuardian projectId session holder =>
    obtain ⟨-, rfl⟩ := htakes
    exact (hnot_plain hcalled).elim
  | finishInteractiveGuardian projectId session holder =>
    obtain ⟨-, rfl⟩ := htakes
    exact (hnot_plain hcalled).elim
  | recoverStaleInteractiveGuardian projectId session holder =>
    obtain ⟨-, rfl⟩ := htakes
    exact (hnot_plain hcalled).elim
  | reserveWorker r initialClaim =>
    obtain ⟨-, hl⟩ := htakes
    exact (hnot_plain (hl ▸ hcalled.1)).elim
  | abandonWorker q =>
    obtain ⟨w, hw, -, -, hl⟩ := htakes
    exact (hnot_worker (hl.trans (h.named w hw))).elim
  | finalizeWorker q =>
    obtain ⟨w, hw, -, -, hl⟩ := htakes
    exact (hnot_worker (hl.trans (h.named w hw))).elim
  | cancelIdleWorkingGitFinalization => exact hcalled.elim
  | _ => exact htakes.elim

/-! ## Steps -/

/-- A step that is no hazard keeps the leases. -/
theorem Inv.keepsLeases (h : s.Inv) (hstep : Step os now act s s') (hsafe : ¬ act.Hazard s) :
    FleetEvent.KeepsLeases ⟨os, now, act, s, s'⟩ := by
  have hframe (hdb : s'.db = s.db) : FleetEvent.KeepsLeases ⟨os, now, act, s, s'⟩ :=
    ⟨fun l hl _ _ _ _ _ => .inl ⟨l, hdb ▸ hl, rfl, rfl⟩,
      fun l hl _ _ => .inl ⟨l, hdb ▸ hl, rfl, rfl⟩⟩
  cases hstep with
  | @call _ op hcalled =>
    have hloses := (op.losesOnly s.db).stays
    constructor
    · intro l hl w hw hactive hproject hholder
      refine (hloses l hl).imp_right fun htakes => ?_
      exact h.call_endsWorker hcalled hsafe hw hactive hproject hholder htakes
    · intro l hl pid hpid
      refine (hloses l hl).imp_right fun htakes => ?_
      exact h.call_supervisor hcalled hpid htakes
  | find => exact hframe rfl
  | findNoWorker => exact hframe rfl
  | findDeadOwner => exact hframe rfl
  | findAsResumeWorker => exact hframe rfl
  | @release _ reclaim hreclaim hstage =>
    have hloses := ((RegistryOp.releaseLease reclaim.projectId reclaim.holder).losesOnly s.db).stays
    constructor
    · intro l hl w hw hactive hproject hholder
      refine (hloses l hl).imp_right fun ⟨hl, hheld⟩ => ?_
      have hw_project : w.projectId = reclaim.projectId := hproject.trans hl
      have hw_holder : w.leaseHolder = reclaim.holder := hholder.trans hheld
      cases hs : reclaim.stage with
      | found => exact (hstage hs).elim
      | unfenced => exact (h.unfenced reclaim hreclaim hs w hw hactive hw_project hw_holder).elim
      | deadOwner =>
        exact (h.unnamed reclaim hreclaim hs _ (hw_holder.symm.trans (h.named w hw))).elim
      | resumeWorker => exact (hsafe ⟨hs, w, hw, hactive, hw_project, hw_holder⟩).elim
    · intro l hl pid hpid
      refine (hloses l hl).imp_right fun ⟨_, hheld⟩ => .inr (.inl ?_)
      rw [hheld] at hpid ⊢
      exact h.dead reclaim hreclaim pid hpid

/-- Where nobody has begun anything, only the names of the workers count. -/
theorem Inv.start {db : Registry} (hempty : db.agentWorkers = .empty) : Inv ⟨db, [], []⟩ where
  named := by
    intro w hw
    rw [hempty] at hw
    cases hw
  dead := by
    intro _ hr
    cases hr
  unfenced := by
    intro _ hr
    cases hr
  unnamed := by
    intro _ hr
    cases hr

/-- The invariants hold along every run, and with them each step that is no hazard keeps the
leases. -/
theorem Run.keepsLeases {trace : List FleetEvent} (hrun : Run s trace) (h : s.Inv)
    (hsafe : ∀ e ∈ trace, ¬ e.act.Hazard e.before) : ∀ e ∈ trace, e.KeepsLeases := by
  induction hrun with
  | nil => exact List.forall_mem_nil _
  | cons hstep hrest ih =>
    refine List.forall_mem_cons.mpr ⟨?_, ?_⟩
    · exact h.keepsLeases hstep (hsafe _ List.mem_cons_self)
    · exact ih (h.step hstep) fun e he => hsafe e (List.mem_cons_of_mem _ he)

/-! ## Every run -/

/-- Along every run, from a registry without workers, in which no step is a hazard, the lease of an
active worker goes only with the end of that worker, and the lease of a reattached supervisor only
by that supervisor or after its process was found dead. -/
theorem lease_fence (db : Registry) (hempty : db.agentWorkers = .empty) (trace : List FleetEvent)
    (hrun : Run ⟨db, [], []⟩ trace) (hsafe : ∀ e ∈ trace, ¬ e.act.Hazard e.before) :
    ∀ e ∈ trace, e.KeepsLeases :=
  hrun.keepsLeases (.start hempty) hsafe

/-- A paused session that the user has asked to resume, in a project whose other tasks run. -/
def resumingRegistry : Registry :=
  { managedRegistry with
    sessionControls := ⟨[SessionControl.fresh 1 "s" .resumeRequested "1"], by decide⟩ }

/-- The worker of an automatic run. -/
def automaticWorker : AgentWorkerReservation :=
  { projectId := 1, workerToken := "w", expectedLeaseHolder := "clt-scheduler-5",
    maxActiveWorkers := 4, protocolVersion := 1, serviceLabel := "", binaryPath := "",
    commandArguments := "", pathEnv := "", codexPath := none, taskSelection := "automatic",
    resumeSessionId := none, createdAt := "10" }

/-- A scheduler takes the lease of the project until 20 and gives it to the worker. -/
def dispatch : List RegistryOp :=
  [.tryAcquireLease 1 "clt-scheduler-5" "10" "20", .reserveWorker automaticWorker none]

/-- The lease of the worker once it is dispatched. -/
def dispatchedLease : Lease := ⟨1, workerLeaseHolder "w", "10", "20"⟩

/-- Both processes run. -/
def twoProcesses : Processes where
  unix := true
  currentPid := 5
  running _ := some true
  groupRunning _ := some true
  self_running := by decide

/-- The dispatch, and a resume worker that finds the lease of the worker expired. -/
def resumeTrace : List FleetEvent :=
  let start : Fleet := ⟨resumingRegistry, [], []⟩
  let acquired : Fleet := ⟨runOps (dispatch.take 1) resumingRegistry, [], []⟩
  let dispatched : Fleet := ⟨runOps dispatch resumingRegistry, [], []⟩
  let reclaim : Reclaim := ⟨1, workerLeaseHolder "w", .resumeWorker⟩
  let found : Fleet := { dispatched with reclaims := [reclaim] }
  [⟨twoProcesses, 10, .call dispatch[0], start, acquired⟩,
    ⟨twoProcesses, 10, .call dispatch[1], acquired, dispatched⟩,
    ⟨twoProcesses, 100, .findAsResumeWorker dispatchedLease, dispatched, found⟩,
    ⟨twoProcesses, 100, .release reclaim, found,
      ⟨(found.db.releaseLease 1 (workerLeaseHolder "w")).db, [], []⟩⟩]

theorem mem_dispatchedLease : dispatchedLease ∈ (runOps dispatch resumingRegistry).leases := by
  rw [Table.mem_def]
  decide

theorem mem_dispatchedWorker :
    automaticWorker.toRow ∈ (runOps dispatch resumingRegistry).agentWorkers := by
  rw [Table.mem_def]
  decide

theorem run_found {rest : List FleetEvent} (hrest : Run resumeTrace[2].after rest) :
    Run ⟨resumingRegistry, [], []⟩ (resumeTrace.take 3 ++ rest) := by
  have hplain : IsPlainHolder "clt-scheduler-5" := ⟨by decide, by decide⟩
  refine .cons (e := resumeTrace[0]) (.call trivial) ?_
  refine .cons (e := resumeTrace[1]) (.call ⟨hplain, List.forall_mem_nil _⟩) ?_
  refine .cons (e := resumeTrace[2]) (.findAsResumeWorker mem_dispatchedLease ?_) hrest
  decide

/-- Until the resume worker releases what it has found, the leases are kept. -/
theorem lease_fence_found : (resumeTrace.take 3).Forall FleetEvent.KeepsLeases := by
  refine List.forall_iff_forall_mem.mpr
    (lease_fence resumingRegistry rfl _ (run_found (.nil _)) fun e he => ?_)
  rcases List.mem_cons.mp he with rfl | he
  · exact id
  rcases List.mem_cons.mp he with rfl | he
  · exact id
  rw [List.mem_singleton.mp he]
  exact id

theorem run_resumeTrace : Run ⟨resumingRegistry, [], []⟩ resumeTrace :=
  run_found (.cons (e := resumeTrace[3]) (.release List.mem_cons_self (by decide)) (.nil _))

/-- A dispatched worker loses its lease to a resume worker that found it expired. -/
theorem expired_lease_released :
    ¬ ∀ (db : Registry) (trace : List FleetEvent), db.agentWorkers = .empty →
        Run ⟨db, [], []⟩ trace → ∀ e ∈ trace, e.KeepsLeases := by
  intro h
  have hkeeps : FleetEvent.KeepsLeases resumeTrace[3] :=
    h _ resumeTrace rfl run_resumeTrace _ (List.getElem_mem _)
  have hgone : resumeTrace[3].after.db.leases.rows = [] := by decide
  rcases hkeeps.worker dispatchedLease mem_dispatchedLease _ mem_dispatchedWorker rfl rfl rfl with
    ⟨l, hl, -⟩ | hends
  · rw [Table.mem_def, hgone] at hl
    cases hl
  · exact hends

end Fleet

end Clt
