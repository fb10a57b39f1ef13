import Clt.Registry.Frame
import Clt.Registry.WorkerFence

/-!
# Leases that a call takes away

A lease is the row of its project under its holder. Most calls keep every lease, renew one or add
one. `RegistryOp.takes` says which lease a call can delete or give to another holder, with what the
call's own conditions ask of it.
-/

namespace Clt

open Relational Registry

/-- The lease of `l`'s project is still that of `l`'s holder. -/
def LeaseStays (l : Lease) (t : Table Lease) : Prop :=
  ∃ l' ∈ t, l'.projectId = l.projectId ∧ l'.holder = l.holder

/-- The leases that meet `P` are the only ones of `t` that can be missing in `t'`. -/
structure LosesOnly (P : Lease → Prop) (t t' : Table Lease) : Prop where
  stays : ∀ l ∈ t, LeaseStays l t' ∨ P l

namespace LosesOnly

variable {P : Lease → Prop} {t t' t'' : Table Lease}

theorem refl (P : Lease → Prop) (t : Table Lease) : LosesOnly P t t :=
  ⟨fun l hl => .inl ⟨l, hl, rfl, rfl⟩⟩

/-- Rows are added to what is left. -/
theorem subset (h : LosesOnly P t t') (hsub : ∀ l ∈ t', l ∈ t'') : LosesOnly P t t'' := by
  refine ⟨fun l hl => ?_⟩
  rcases h.stays l hl with ⟨l', hl', hkey⟩ | hlost
  · exact .inl ⟨l', hsub l' hl', hkey⟩
  · exact .inr hlost

theorem insertOrIgnoreInto {db : Registry} {projectId : Int} {row : Lease} {res : Table Lease × Nat}
    (h : LosesOnly P t t') (hins : db.insertOrIgnoreInto projectId t' row = some res) :
    LosesOnly P t res.1 := by
  rw [insertOrIgnoreInto_eq_some hins]
  exact h.subset fun _ => Table.subset_insertOrIgnore

theorem of_delete {where_ : Lease → Bool} (h : ∀ l ∈ t, where_ l = true → P l) :
    LosesOnly P t (t.delete where_) := by
  refine ⟨fun l hl => ?_⟩
  cases hwhere : where_ l with
  | false => exact .inl ⟨l, Table.mem_delete.mpr ⟨hl, hwhere⟩, rfl, rfl⟩
  | true => exact .inr (h l hl hwhere)

/-- A row that is rewritten keeps its project and holder, or it is one of those that may go. -/
theorem of_rewrite {where_ : Lease → Bool} {set : Lease → Lease}
    (hrows : t'.rows = t.rows.map (Table.rewrite where_ set))
    (h : ∀ l ∈ t, where_ l = true →
      ((set l).projectId = l.projectId ∧ (set l).holder = l.holder) ∨ P l) :
    LosesOnly P t t' := by
  refine ⟨fun l hl => ?_⟩
  have hmem : Table.rewrite where_ set l ∈ t' := by
    rw [Table.mem_def, hrows]
    exact List.mem_map_of_mem hl
  cases hwhere : where_ l with
  | false =>
    rw [Table.rewrite, if_neg (by rw [hwhere]; decide)] at hmem
    exact .inl ⟨l, hmem, rfl, rfl⟩
  | true =>
    rw [Table.rewrite, if_pos hwhere] at hmem
    rcases h l hl hwhere with hkey | hlost
    · exact .inl ⟨_, hmem, hkey⟩
    · exact .inr hlost

end LosesOnly

/-- The lease that a call can delete or give away. -/
def RegistryOp.takes : RegistryOp → Registry → Lease → Prop
  | .tryAcquireLease projectId _ acquiredAt _, db, l => db.clearableLease projectId acquiredAt l
  | .tryAcquireGitFinalizationLease projectId _ acquiredAt _ reclaimHolder, db, l =>
    (db.repairRecoveryFences projectId acquiredAt).reclaimableLease projectId acquiredAt
      reclaimHolder l
  | .releaseLease projectId holder, _, l
  | .finalizeReapedAutomatedSession projectId _ _ holder .., _, l
  | .completeSessionInterruptHandoff projectId _ _ holder .., _, l
  | .adoptInteractiveGuardian projectId _ holder .., _, l
  | .finishInteractiveGuardian projectId _ holder .., _, l
  | .recoverStaleInteractiveGuardian projectId _ holder .., _, l =>
    l.projectId = projectId ∧ l.holder = holder
  | .finalizeReattachedAutomatedSession expected holder .., _, l =>
    l.projectId = expected.projectId ∧ l.holder = holder
  | .reserveWorker r _, _, l => l.projectId = r.projectId ∧ l.holder = r.expectedLeaseHolder
  | .abandonWorker q, db, l =>
    ∃ w ∈ db.agentWorkers, w.workerToken = q.workerToken ∧ l.projectId = w.projectId ∧
      l.holder = w.leaseHolder
  | .finalizeWorker q, db, l =>
    ∃ w ∈ db.agentWorkers, w.workerToken = q.workerToken ∧ l.projectId = w.projectId ∧
      l.holder = w.leaseHolder
  | .cancelIdleWorkingGitFinalization projectId _ _ _ _ acquiredAt .., _, l =>
    expiredLease projectId acquiredAt l
  | _, _, _ => False

namespace Registry

variable {db : Registry} {P : Lease → Prop}

theorem transaction_losesOnly {α : Type} {body : Step α (α × Registry)}
    (h : ∀ a db', body = .ok (a, db') → LosesOnly P db.leases db'.leases) :
    LosesOnly P db.leases (db.transaction body).db.leases :=
  transaction_db (P := fun db' => LosesOnly P db.leases db'.leases) (.refl P _) h

theorem owned_iff {projectId : Int} {holder : String} {l : Lease} :
    (l.projectId == projectId && l.holder == holder) = true ↔
      l.projectId = projectId ∧ l.holder = holder := by
  rw [Bool.and_eq_true, beq_iff_eq, beq_iff_eq]

theorem tryAcquireLease_losesOnly (projectId : Int) (holder acquiredAt expiresAt : String) :
    LosesOnly (fun l => db.clearableLease projectId acquiredAt l) db.leases
      (db.tryAcquireLease projectId holder acquiredAt expiresAt).db.leases := by
  have hcleared : LosesOnly (fun l => db.clearableLease projectId acquiredAt l) db.leases
      (db.leases.delete (db.clearableLease projectId acquiredAt)) := .of_delete fun _ _ h => h
  unfold tryAcquireLease
  dsimp only
  split
  · rename_i hins
    exact hcleared.insertOrIgnoreInto hins
  · exact hcleared

theorem tryAcquireGitFinalizationLease_losesOnly (projectId : Int)
    (holder acquiredAt expiresAt : String) (reclaimHolder : Option String) :
    LosesOnly (fun l => (db.repairRecoveryFences projectId acquiredAt).reclaimableLease projectId
        acquiredAt reclaimHolder l) db.leases
      (db.tryAcquireGitFinalizationLease projectId holder acquiredAt expiresAt
        reclaimHolder).db.leases := by
  refine transaction_losesOnly fun a db' h => ?_
  obtain ⟨res, hins, ⟨⟩⟩ := step_bind_eq_ok.mp h
  have hcleared : LosesOnly (fun l => (db.repairRecoveryFences projectId
      acquiredAt).reclaimableLease projectId acquiredAt reclaimHolder l) db.leases
      (db.leases.delete ((db.repairRecoveryFences projectId acquiredAt).reclaimableLease projectId
        acquiredAt reclaimHolder)) := .of_delete fun _ _ h => h
  unfold insertFinalizerLease at hins
  split at hins
  · exact hcleared.insertOrIgnoreInto (fetch_eq_ok.mp hins)
  · cases hins
    exact hcleared

theorem handOffLease_losesOnly {projectId : Int} {fromHolder toHolder acquiredAt expiresAt : String}
    {leases : Table Lease}
    (h : db.handOffLease projectId fromHolder toHolder acquiredAt expiresAt = .ok leases) :
    LosesOnly (fun l => l.projectId = projectId ∧ l.holder = fromHolder) db.leases leases := by
  unfold handOffLease at h
  dsimp only at h
  split at h
  · cases h
    exact .of_rewrite rfl fun _ _ hwhere => .inr (owned_iff.mp hwhere)
  · obtain ⟨res, hins, h⟩ := fetch_bind_eq_ok.mp h
    obtain ⟨-, ⟨⟩⟩ := require_bind_eq_ok.mp h
    exact (LosesOnly.refl _ _).insertOrIgnoreInto hins

theorem finalizeAutomatedSessionAfterExit_losesOnly (q : AutomatedSessionFinalization)
    (acquiredAt expiresAt now : String) :
    LosesOnly (fun l => l.projectId = q.projectId ∧ l.holder = q.leaseHolder) db.leases
      (db.finalizeAutomatedSessionAfterExit q acquiredAt expiresAt now).db.leases := by
  refine transaction_losesOnly fun a db' h => ?_
  simp only [require_bind_eq_ok, fetch_bind_eq_ok] at h
  obtain ⟨-, _, -, _, -, h⟩ := h
  split at h
  · obtain ⟨_, -, h⟩ := fetch_bind_eq_ok.mp h
    obtain ⟨leases, hleases, h⟩ := step_bind_eq_ok.mp h
    obtain ⟨-, ⟨⟩⟩ := require_bind_eq_ok.mp h
    exact handOffLease_losesOnly hleases
  · obtain ⟨-, ⟨⟩⟩ := require_bind_eq_ok.mp h
    exact .of_delete fun _ _ hwhere => owned_iff.mp hwhere

theorem finalizeReattachedAutomatedSession_losesOnly (expected : SessionControl)
    (holder acquiredAt expiresAt now : String) :
    LosesOnly (fun l => l.projectId = expected.projectId ∧ l.holder = holder) db.leases
      (db.finalizeReattachedAutomatedSession expected holder acquiredAt expiresAt
        now).db.leases := by
  unfold finalizeReattachedAutomatedSession
  split
  · exact finalizeAutomatedSessionAfterExit_losesOnly ⟨expected.projectId, _, _, holder, _⟩ ..
  · exact .refl _ _

theorem completeSessionInterruptHandoff_losesOnly (projectId : Int)
    (codexSessionId runToken fromHolder acquiredAt expiresAt now : String) :
    LosesOnly (fun l => l.projectId = projectId ∧ l.holder = fromHolder) db.leases
      (db.completeSessionInterruptHandoff projectId codexSessionId runToken fromHolder acquiredAt
        expiresAt now).db.leases := by
  refine transaction_losesOnly fun a db' h => ?_
  simp only [require_bind_eq_ok, fetch_bind_eq_ok] at h
  obtain ⟨_, -, _, -, -, -, ⟨⟩⟩ := h
  exact .of_rewrite rfl fun _ _ hwhere => .inr (owned_iff.mp hwhere)

theorem adoptInteractiveGuardian_losesOnly (projectId : Int) (codexSessionId : Option String)
    (fromHolder guardianHolder acquiredAt expiresAt now : String) :
    LosesOnly (fun l => l.projectId = projectId ∧ l.holder = fromHolder) db.leases
      (db.adoptInteractiveGuardian projectId codexSessionId fromHolder guardianHolder acquiredAt
        expiresAt now).db.leases := by
  refine transaction_losesOnly fun a db' h => ?_
  simp only [require_bind_eq_ok, fetch_bind_eq_ok] at h
  obtain ⟨disposition, -, -, h⟩ := h
  have hadopted : LosesOnly (fun l => l.projectId = projectId ∧ l.holder = fromHolder) db.leases
      (if disposition.holdsProjectLease then
        db.leases.update (fun l => l.projectId == projectId && l.holder == fromHolder)
          fun l => { l with
            holder := guardianHolder, acquiredAt := acquiredAt, expiresAt := expiresAt }
      else db.leases) := by
    split
    · exact .of_rewrite rfl fun _ _ hwhere => .inr (owned_iff.mp hwhere)
    · exact .refl _ _
  split at h
  · cases h
    exact hadopted
  · obtain ⟨-, ⟨⟩⟩ := require_bind_eq_ok.mp h
    exact hadopted

theorem releaseGuardianLease_losesOnly (disposition : InteractiveGuardianDisposition)
    (projectId : Int) (guardianHolder : String) (leases : Table Lease) :
    LosesOnly (fun l => l.projectId = projectId ∧ l.holder = guardianHolder) leases
      (releaseGuardianLease disposition projectId guardianHolder leases) := by
  unfold releaseGuardianLease
  split
  · exact .of_delete fun _ _ hwhere => owned_iff.mp hwhere
  · exact .refl _ _

theorem registerKnownSessionWithChild_losesOnly (q : AgentKnownSessionRegistration)
    (now freshExpiry : String) :
    LosesOnly P db.leases (db.registerKnownSessionWithChild q now freshExpiry).db.leases := by
  refine transaction_losesOnly fun a db' h => ?_
  simp only [require_bind_eq_ok] at h
  obtain ⟨-, -, h⟩ := h
  have hrenewed {where_ : Lease → Bool} : LosesOnly P db.leases
      (db.leases.update where_ fun l => { l with expiresAt := freshExpiry }) :=
    .of_rewrite rfl fun _ _ _ => .inl ⟨rfl, rfl⟩
  split at h
  · obtain ⟨-, ⟨⟩⟩ := require_bind_eq_ok.mp h
    exact hrenewed
  · obtain ⟨-, ⟨⟩⟩ := require_bind_eq_ok.mp h
    exact hrenewed

theorem registerInteractiveGuardianChild_losesOnly (projectId : Int)
    (codexSessionId guardianHolder : String) (childPid : Nat) (now freshExpiry : String) :
    LosesOnly P db.leases (db.registerInteractiveGuardianChild projectId codexSessionId
      guardianHolder childPid now freshExpiry).db.leases := by
  refine transaction_losesOnly fun a db' h => ?_
  simp only [require_bind_eq_ok, fetch_bind_eq_ok] at h
  obtain ⟨_, -, -, -, ⟨⟩⟩ := h
  dsimp only
  split
  · exact .of_rewrite rfl fun _ _ _ => .inl ⟨rfl, rfl⟩
  · exact .refl _ _

theorem claimOrphanedSessionSupervision_losesOnly (expected : SessionControl)
    (holder acquiredAt expiresAt : String) :
    LosesOnly P db.leases
      (db.claimOrphanedSessionSupervision expected holder acquiredAt expiresAt).db.leases := by
  refine transaction_losesOnly fun a db' h => ?_
  simp only [require_bind_eq_ok, fetch_bind_eq_ok] at h
  obtain ⟨_, -, _, -, -, -, res, hins, -, ⟨⟩⟩ := h
  exact (LosesOnly.refl _ _).insertOrIgnoreInto hins

theorem beginMissingGitRecovery_losesOnly (q : MissingGitRecovery) :
    LosesOnly P db.leases (db.beginMissingGitRecovery q).db.leases := by
  refine transaction_losesOnly fun a db' h => ?_
  obtain ⟨-, h⟩ := require_bind_eq_ok.mp h
  obtain ⟨-, -, h⟩ := step_bind_eq_ok.mp h
  obtain ⟨-, h⟩ := require_bind_eq_ok.mp h
  obtain ⟨-, -, h⟩ := step_bind_eq_ok.mp h
  obtain ⟨-, -, h⟩ := step_bind_eq_ok.mp h
  obtain ⟨-, -, h⟩ := step_bind_eq_ok.mp h
  simp only [require_bind_eq_ok, fetch_bind_eq_ok] at h
  obtain ⟨-, leases, hins, ⟨⟩⟩ := h
  unfold insertInto at hins
  split at hins
  · refine (LosesOnly.refl _ _).subset fun l hl => ?_
    rw [Table.mem_def, (Table.insert?_eq_some hins).2]
    exact List.mem_append_left _ hl
  · cases hins

theorem reserveWorker_losesOnly (r : AgentWorkerReservation)
    (initialClaim : Option (Nat × String)) :
    LosesOnly (fun l => l.projectId = r.projectId ∧ l.holder = r.expectedLeaseHolder) db.leases
      (db.reserveWorker r initialClaim).db.leases := by
  rcases db.reserveWorker_cases r initialClaim with he | ⟨-, hn, he | ⟨pid, startedAt, he⟩⟩
  · rw [he]
    exact .refl _ _
  · rw [he]
    exact .of_rewrite rfl fun _ _ hwhere => .inr (owned_iff.mp hwhere)
  · rw [he]
    exact .of_rewrite rfl fun _ _ hwhere => .inr (owned_iff.mp hwhere)

theorem renewWorker_losesOnly (workerToken : String) (workerPid : Nat)
    (heartbeatAt leaseExpiresAt : String) :
    LosesOnly P db.leases
      (db.renewWorker workerToken workerPid heartbeatAt leaseExpiresAt).db.leases := by
  refine transaction_losesOnly fun a db' h => ?_
  simp only [require_bind_eq_ok, fetch_bind_eq_ok] at h
  obtain ⟨_, -, -, -, ⟨⟩⟩ := h
  exact .of_rewrite rfl fun _ _ _ => .inl ⟨rfl, rfl⟩

theorem abandonWorker_losesOnly (q : AgentWorkerAbandonment) :
    LosesOnly (fun l => ∃ w ∈ db.agentWorkers, w.workerToken = q.workerToken ∧
      l.projectId = w.projectId ∧ l.holder = w.leaseHolder) db.leases
      (db.abandonWorker q).db.leases := by
  refine transaction_losesOnly fun a db' h => ?_
  simp only [require_bind_eq_ok, fetch_bind_eq_ok, attempt_bind_eq_ok] at h
  obtain ⟨worker, hworker, -, _, -, -, -, ⟨⟩⟩ := h
  have htoken := Table.of_find? hworker
  simp only [Bool.and_eq_true, beq_iff_eq] at htoken
  dsimp only
  split
  · exact .of_delete fun l _ hwhere =>
      ⟨worker, Table.mem_of_find? hworker, htoken.1.1.1, owned_iff.mp hwhere⟩
  · exact .refl _ _

theorem finalizeWorker_losesOnly (q : AgentWorkerFinalization) :
    LosesOnly (fun l => ∃ w ∈ db.agentWorkers, w.workerToken = q.workerToken ∧
      l.projectId = w.projectId ∧ l.holder = w.leaseHolder) db.leases
      (db.finalizeWorker q).db.leases := by
  refine transaction_losesOnly fun a db' h => ?_
  obtain ⟨worker, hworker, h⟩ := fetch_bind_eq_ok.mp h
  split at h
  · obtain ⟨_, -, ⟨⟩⟩ := fetch_bind_eq_ok.mp h
    exact .refl _ _
  · simp only [require_bind_eq_ok, fetch_bind_eq_ok, attempt_bind_eq_ok] at h
    obtain ⟨-, -, -, _, -, _, -, -, ⟨⟩⟩ := h
    have htoken := Table.of_find? hworker
    exact .of_delete fun l _ hwhere =>
      ⟨worker, Table.mem_of_find? hworker, beq_iff_eq.mp htoken, owned_iff.mp hwhere⟩

theorem cancelJournal_leases {projectId : Int} {codexSessionId : String} {generation : Int}
    {taskIdentity : Option String} {acquiredAt : String} {cancellation : GitTaskCancellation}
    {leases : Table Lease} {a : Bool} {db' : Registry}
    (h : db.cancelJournal projectId codexSessionId generation taskIdentity acquiredAt cancellation
      leases = .ok (a, db')) : db'.leases = leases := by
  unfold cancelJournal at h
  obtain ⟨-, h⟩ := require_bind_eq_ok.mp h
  cases cancellation with
  | deletion => cases h; rfl
  | externalCompletion => cases h; rfl

theorem cancelIdleWorkingGitFinalization_losesOnly (projectId : Int) (codexSessionId : String)
    (generation : Int) (taskIdentity : Option String)
    (leaseHolder acquiredAt expiresAt : String) (cancellation : GitTaskCancellation) :
    LosesOnly (fun l => expiredLease projectId acquiredAt l) db.leases
      (db.cancelIdleWorkingGitFinalization projectId codexSessionId generation taskIdentity
        leaseHolder acquiredAt expiresAt cancellation).db.leases := by
  refine transaction_losesOnly fun a db' h => ?_
  split at h
  · rw [cancelJournal_leases h]
    exact .refl _ _
  · simp only [require_bind_eq_ok] at h
    obtain ⟨-, -, -, -, h⟩ := h
    obtain ⟨res, hfenced, h⟩ := step_bind_eq_ok.mp h
    have hcleared : LosesOnly (fun l => expiredLease projectId acquiredAt l) db.leases
        (db.leases.delete (expiredLease projectId acquiredAt)) := .of_delete fun _ _ h => h
    have hleft : LosesOnly (fun l => expiredLease projectId acquiredAt l) db.leases res.1 := by
      unfold fenceCancellation at hfenced
      split at hfenced
      · exact hcleared.insertOrIgnoreInto (fetch_eq_ok.mp hfenced)
      · cases hfenced
        exact hcleared
    split at h
    · rw [cancelJournal_leases h]
      exact hleft
    · cases h
      exact hleft

end Registry

/-- A call takes no other lease away. -/
theorem RegistryOp.losesOnly (op : RegistryOp) (db : Registry) :
    LosesOnly (op.takes db) db.leases (op.apply db).leases := by
  have hframe : op.writes.leases = false →
      LosesOnly (op.takes db) db.leases (op.apply db).leases := by
    intro h
    rw [(op.apply_frame db).leases h]
    exact .refl _ _
  cases op with
  | beginMissingGitRecovery q => exact beginMissingGitRecovery_losesOnly q
  | cancelIdleWorkingGitFinalization =>
    exact cancelIdleWorkingGitFinalization_losesOnly ..
  | registerKnownSessionWithChild => exact registerKnownSessionWithChild_losesOnly ..
  | claimOrphanedSessionSupervision => exact claimOrphanedSessionSupervision_losesOnly ..
  | finalizeReattachedAutomatedSession => exact finalizeReattachedAutomatedSession_losesOnly ..
  | finalizeReapedAutomatedSession projectId childPid runToken holder =>
    exact finalizeAutomatedSessionAfterExit_losesOnly
      ⟨projectId, childPid, runToken, holder, none⟩ ..
  | completeSessionInterruptHandoff => exact completeSessionInterruptHandoff_losesOnly ..
  | adoptInteractiveGuardian => exact adoptInteractiveGuardian_losesOnly ..
  | registerInteractiveGuardianChild => exact registerInteractiveGuardianChild_losesOnly ..
  | finishInteractiveGuardian =>
    refine transaction_losesOnly fun a db' h => ?_
    obtain ⟨-, ⟨⟩⟩ := require_bind_eq_ok.mp h
    exact releaseGuardianLease_losesOnly ..
  | recoverStaleInteractiveGuardian =>
    refine transaction_losesOnly fun a db' h => ?_
    obtain ⟨-, ⟨⟩⟩ := require_bind_eq_ok.mp h
    exact releaseGuardianLease_losesOnly ..
  | tryAcquireLease => exact tryAcquireLease_losesOnly ..
  | renewLease => exact .of_rewrite rfl fun _ _ _ => .inl ⟨rfl, rfl⟩
  | releaseLease => exact .of_delete fun _ _ hwhere => owned_iff.mp hwhere
  | tryAcquireGitFinalizationLease => exact tryAcquireGitFinalizationLease_losesOnly ..
  | renewGitFinalizationLease => exact .of_rewrite rfl fun _ _ _ => .inl ⟨rfl, rfl⟩
  | reserveWorker => exact reserveWorker_losesOnly ..
  | renewWorker => exact renewWorker_losesOnly ..
  | abandonWorker => exact abandonWorker_losesOnly ..
  | finalizeWorker => exact finalizeWorker_losesOnly ..
  | _ => exact hframe rfl

end Clt
