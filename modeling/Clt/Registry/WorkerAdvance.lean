import Clt.Registry.WorkerFence

/-!
# A worker only moves forward

A worker is dispatched, claimed once, and then finished: no call takes a row back to an earlier
state (`AgentWorker.Advances`). A claim or a heartbeat leaves its worker running
(`RegistryOp.touches`), so a worker that was seen in another state is not seen so again. What is
left for an abandonment that names the state, the process and the heartbeat it has seen
(`Abandonable`) is a worker that runs.
-/

namespace Clt

open Relational Registry

/-! ## Forward moves -/

/-- `w'` is the same worker generation as `w`, in the same state or a later one. -/
structure AgentWorker.Advances (w w' : AgentWorker) : Prop where
  workerToken : w'.workerToken = w.workerToken
  state : w'.state = w.state ∨ w.state = .dispatching ∧ w'.state = .running ∨
    w'.state.isActive = false

namespace AgentWorker.Advances

theorem refl (w : AgentWorker) : w.Advances w := ⟨rfl, .inl rfl⟩

/-- A row in the same state. -/
theorem of_state {w w' : AgentWorker} (htoken : w'.workerToken = w.workerToken)
    (h : w'.state = w.state) : w.Advances w' := ⟨htoken, .inl h⟩

/-- A row that is finished. -/
theorem of_inactive {w w' : AgentWorker} (htoken : w'.workerToken = w.workerToken)
    (h : w'.state.isActive = false) : w.Advances w' := ⟨htoken, .inr (.inr h)⟩

theorem trans {a b c : AgentWorker} (h : a.Advances b) (k : b.Advances c) : a.Advances c := by
  refine ⟨k.workerToken.trans h.workerToken, ?_⟩
  rcases k.state with hsame | ⟨hfrom, hto⟩ | hdone
  · rw [hsame]
    exact h.state
  · -- Only a dispatched worker is still dispatched, so the claim is the first move.
    rcases h.state with hb | ⟨-, hb⟩ | hb
    · exact .inr (.inl ⟨hb.symm.trans hfrom, hto⟩)
    · rw [hfrom] at hb
      cases hb
    · rw [hfrom] at hb
      cases hb
  · exact .inr (.inr hdone)

/-- A running worker goes on running or is finished. -/
theorem of_running {w w' : AgentWorker} (h : w.Advances w') (hrunning : w.state = .running) :
    w'.state = .running ∨ w'.state.isActive = false := by
  rcases h.state with hsame | ⟨hfrom, -⟩ | hdone
  · exact .inl (hsame.trans hrunning)
  · rw [hrunning] at hfrom
    cases hfrom
  · exact .inr hdone

end AgentWorker.Advances

/-- Every worker of `t` is still in `t'`, and has only moved forward. -/
def WorkersAdvance (t t' : Table AgentWorker) : Prop := ∀ w ∈ t, ∃ w' ∈ t', w.Advances w'

namespace WorkersAdvance

variable {t t' : Table AgentWorker}

theorem refl (t : Table AgentWorker) : WorkersAdvance t t := fun w hw => ⟨w, hw, .refl w⟩

theorem trans {a b c : Table AgentWorker} (h : WorkersAdvance a b) (k : WorkersAdvance b c) :
    WorkersAdvance a c := by
  intro w hw
  obtain ⟨w', hw', h1⟩ := h w hw
  obtain ⟨w'', hw'', h2⟩ := k w' hw'
  exact ⟨w'', hw'', h1.trans h2⟩

theorem of_rewrite {P : AgentWorker → Bool} {f : AgentWorker → AgentWorker}
    (hrows : t'.rows = t.rows.map (Table.rewrite P f))
    (hf : ∀ w ∈ t, P w = true → w.Advances (f w)) : WorkersAdvance t t' := by
  intro w hw
  refine ⟨Table.rewrite P f w, ?_, ?_⟩
  · rw [Table.mem_def, hrows]
    exact List.mem_map_of_mem hw
  · unfold Table.rewrite
    split
    · rename_i hP
      exact hf w hw hP
    · exact .refl w

end WorkersAdvance

namespace Registry

variable {db : Registry}

theorem transaction_workersAdvance {α : Type} {body : Step α (α × Registry)}
    (h : ∀ a db', body = .ok (a, db') → WorkersAdvance db.agentWorkers db'.agentWorkers) :
    WorkersAdvance db.agentWorkers (db.transaction body).db.agentWorkers :=
  transaction_db (P := fun db' => WorkersAdvance db.agentWorkers db'.agentWorkers) (.refl _) h

theorem claimed_workersAdvance (workerToken : String) (workerPid : Nat) (startedAt : String) :
    WorkersAdvance db.agentWorkers (db.claimed workerToken workerPid startedAt).agentWorkers := by
  refine .of_rewrite rfl fun w _ hw => ⟨rfl, .inr (.inl ⟨?_, rfl⟩)⟩
  simp only [claimable, Bool.and_eq_true, decide_eq_true_eq] at hw
  exact hw.1.2

theorem reserveWorker_workersAdvance (r : AgentWorkerReservation)
    (initialClaim : Option (Nat × String)) :
    WorkersAdvance db.agentWorkers (db.reserveWorker r initialClaim).db.agentWorkers := by
  rcases db.reserveWorker_cases r initialClaim with he | ⟨-, hn, he⟩
  · rw [he]
    exact .refl _
  · have happend : WorkersAdvance db.agentWorkers (db.agentWorkers.append r.toRow hn) :=
      fun w hw => ⟨w, Table.mem_append.mpr (.inl hw), .refl w⟩
    have hreserved : WorkersAdvance db.agentWorkers
        (db.reserved r (db.agentWorkers.append r.toRow hn)).agentWorkers :=
      happend.trans (.of_rewrite rfl fun _ _ _ => .of_inactive rfl rfl)
    rcases he with he | ⟨workerPid, startedAt, he⟩
    · rw [he]
      exact hreserved
    · rw [he]
      exact hreserved.trans (claimed_workersAdvance r.workerToken workerPid startedAt)

/-- A finalization passes through `finalizing` inside one transaction: the worker that it claims
is the one it finishes. -/
theorem finalizeWorker_workersAdvance (q : AgentWorkerFinalization) :
    WorkersAdvance db.agentWorkers (db.finalizeWorker q).db.agentWorkers := by
  refine transaction_workersAdvance fun a db' h => ?_
  obtain ⟨worker, -, h⟩ := fetch_bind_eq_ok.mp h
  split at h
  · obtain ⟨_, -, ⟨⟩⟩ := fetch_bind_eq_ok.mp h
    exact .refl _
  · simp only [require_bind_eq_ok, fetch_bind_eq_ok, attempt_bind_eq_ok] at h
    obtain ⟨-, -, -, finalizing, hupdate, recorded, -, -, ⟨⟩⟩ := h
    intro w hw
    have hrows := Table.update?_eq_some hupdate
    by_cases hclaimed : (w.workerToken == q.workerToken && decide (w.state = worker.state) &&
        sqlSame w.workerPid q.expectedWorkerPid) = true
    · have hmem := Table.mem_rewritten hrows hw hclaimed
      simp only [Bool.and_eq_true, beq_iff_eq] at hclaimed
      refine ⟨AgentWorker.complete q.finishedAt recorded.2 q.error
        { w with state := .finalizing }, Table.mem_rewritten rfl hmem ?_, .of_inactive rfl rfl⟩
      simp [hclaimed.1.1]
    · -- A row the first statement leaves alone is finished by the second or left alone too.
      have hkept : w ∈ finalizing := by
        rw [Table.mem_def, hrows]
        exact List.mem_map.mpr ⟨w, hw, by rw [Table.rewrite, if_neg hclaimed]⟩
      exact WorkersAdvance.of_rewrite (t := finalizing)
        (f := AgentWorker.complete q.finishedAt recorded.2 q.error) rfl
        (fun _ _ _ => .of_inactive rfl rfl) w hkept

end Registry

/-- No call takes a worker back to an earlier state. -/
theorem RegistryOp.workersAdvance (op : RegistryOp) (db : Registry) :
    WorkersAdvance db.agentWorkers (op.apply db).agentWorkers := by
  have hframe : op.writes.agentWorkers = false →
      WorkersAdvance db.agentWorkers (op.apply db).agentWorkers := by
    intro h
    rw [(op.apply_frame db).agentWorkers h]
    exact .refl _
  cases op with
  | reserveWorker r initialClaim => exact reserveWorker_workersAdvance r initialClaim
  | claimWorker token pid startedAt =>
    show WorkersAdvance _ (Registry.claimWorker ..).db.agentWorkers
    unfold Registry.claimWorker
    split
    · exact claimed_workersAdvance token pid startedAt
    · exact .refl _
  | renewWorker =>
    refine transaction_workersAdvance fun a db' h => ?_
    simp only [require_bind_eq_ok, fetch_bind_eq_ok] at h
    obtain ⟨_, -, -, -, ⟨⟩⟩ := h
    exact .of_rewrite rfl fun _ _ _ => .of_state rfl rfl
  | supersedeAbandonedWorkersForLease =>
    exact .of_rewrite rfl fun _ _ _ => .of_inactive rfl rfl
  | markWorkerServiceCleaned => exact .of_rewrite rfl fun _ _ _ => .of_state rfl rfl
  | abandonWorker q =>
    refine transaction_workersAdvance fun a db' h => ?_
    simp only [require_bind_eq_ok, fetch_bind_eq_ok, attempt_bind_eq_ok] at h
    obtain ⟨_, -, -, _, -, -, -, ⟨⟩⟩ := h
    exact .of_rewrite rfl fun _ _ _ => .of_inactive rfl rfl
  | finalizeWorker q => exact finalizeWorker_workersAdvance q
  | _ => exact hframe rfl

theorem workersAdvance_runOps (ops : List RegistryOp) (db : Registry) :
    WorkersAdvance db.agentWorkers (runOps ops db).agentWorkers :=
  Transition.exec_related
    (R := fun a b => WorkersAdvance a.agentWorkers b.agentWorkers)
    (fun s => .refl s.agentWorkers) (fun _ _ _ => .trans) RegistryOp.workersAdvance ops db

/-! ## Claims and heartbeats -/

/-- The call is a claim or a heartbeat of the worker, and it succeeds. -/
def RegistryOp.touches (workerToken : String) : RegistryOp → Registry → Prop
  | .claimWorker token workerPid startedAt, db =>
    token = workerToken ∧ (db.claimWorker token workerPid startedAt).result = .ok true
  | .renewWorker token workerPid heartbeatAt leaseExpiresAt, db =>
    token = workerToken ∧
      (db.renewWorker token workerPid heartbeatAt leaseExpiresAt).result = .ok true
  | _, _ => False

/-- A worker of the token runs. -/
def Registry.Runs (db : Registry) (workerToken : String) : Prop :=
  ∃ w ∈ db.agentWorkers, w.workerToken = workerToken ∧ w.state = .running

namespace Registry

variable {db : Registry} {workerToken : String}

theorem runs_of_claimWorker {workerPid : Nat} {startedAt : String}
    (h : (db.claimWorker workerToken workerPid startedAt).result = .ok true) :
    (db.claimWorker workerToken workerPid startedAt).db.Runs workerToken := by
  unfold claimWorker at h ⊢
  split at h
  · rename_i hcount
    rw [if_pos hcount]
    obtain ⟨w, hw, hp⟩ := Table.exists_of_count_eq_one hcount
    refine ⟨w.claim workerPid startedAt, Table.mem_rewritten rfl hw hp, ?_, rfl⟩
    simp only [claimable, Bool.and_eq_true, beq_iff_eq] at hp
    exact hp.1.1
  · -- A worker that its own process claims again is running already.
    rename_i hcount
    rw [if_neg hcount]
    obtain ⟨w, hw, hp⟩ := Table.exists_of_count_eq_one (of_decide_eq_true (Except.ok.inj h))
    simp only [runningAs, Bool.and_eq_true, beq_iff_eq, decide_eq_true_eq] at hp
    exact ⟨w, hw, hp.1.1.1, hp.1.1.2⟩

theorem runs_of_renewWorker {workerPid : Nat} {heartbeatAt leaseExpiresAt : String}
    (h : (db.renewWorker workerToken workerPid heartbeatAt leaseExpiresAt).result = .ok true) :
    (db.renewWorker workerToken workerPid heartbeatAt leaseExpiresAt).db.Runs workerToken := by
  refine transaction_of_result (P := fun db' => db'.Runs workerToken) h ?_ fun db' hbody => ?_
  · refine leaves_bind (leaves_fetch nofun) fun _ => ?_
    refine leaves_bind (leaves_require nofun) fun _ => ?_
    exact leaves_bind (leaves_require nofun) fun _ => leaves_ok _
  · simp only [require_bind_eq_ok, fetch_bind_eq_ok, decide_eq_true_eq] at hbody
    obtain ⟨worker, -, hcount, -, ⟨⟩⟩ := hbody
    obtain ⟨w, hw, hp⟩ := Table.exists_of_count_eq_one hcount
    refine ⟨{ w with heartbeatAt := some heartbeatAt }, Table.mem_rewritten
      (f := fun w => { w with heartbeatAt := some heartbeatAt }) rfl hw hp, ?_, ?_⟩
    · simp only [runningAs, Bool.and_eq_true, beq_iff_eq] at hp
      exact hp.1.1
    · simp only [runningAs, Bool.and_eq_true, decide_eq_true_eq] at hp
      exact hp.1.2

end Registry

theorem RegistryOp.runs_of_touches {op : RegistryOp} {workerToken : String} {db : Registry}
    (h : op.touches workerToken db) : (op.apply db).Runs workerToken := by
  cases op with
  | claimWorker =>
    obtain ⟨rfl, h⟩ := h
    exact runs_of_claimWorker h
  | renewWorker =>
    obtain ⟨rfl, h⟩ := h
    exact runs_of_renewWorker h
  | _ => exact h.elim

/-- Somewhere in the run the worker is claimed or renewed. -/
def Touched (workerToken : String) (ops : List RegistryOp) (db : Registry) : Prop :=
  ∃ pre op post, ops = pre ++ op :: post ∧ op.touches workerToken (runOps pre db)

/-- After a claim or a heartbeat the worker's row is running or finished, whatever else
happens. -/
theorem state_of_touched {workerToken : String} {ops : List RegistryOp} {db : Registry}
    (h : Touched workerToken ops db) {w : AgentWorker} (hw : w ∈ (runOps ops db).agentWorkers)
    (htoken : w.workerToken = workerToken) :
    w.state = .running ∨ w.state.isActive = false := by
  obtain ⟨pre, op, post, rfl, htouches⟩ := h
  obtain ⟨v, hv, hvt, hrunning⟩ := RegistryOp.runs_of_touches htouches
  obtain ⟨v', hv', hadvances⟩ := workersAdvance_runOps post _ v hv
  have hrun : runOps (pre ++ op :: post) db = runOps post (op.apply (runOps pre db)) := by
    rw [runOps, Transition.exec_append]
    rfl
  rw [hrun] at hw
  have hsame : w = v' := Table.eq_of_conflict hw hv' (by
    simp [Keyed.conflict, htoken, hadvances.workerToken, hvt])
  rw [hsame]
  exact hadvances.of_running hrunning

/-! ## Abandonment -/

namespace Registry

variable {db : Registry}

/-- The run that records an abandonment. -/
def abandonedRun (q : AgentWorkerAbandonment) (w : AgentWorker) : AgentRunOutcome where
  projectId := w.projectId
  status := "failure"
  startedAt := w.startedAt.getD w.createdAt
  finishedAt := some q.finishedAt
  exitCode := none
  logDir := none
  stdoutPath := none
  stderrPath := none
  summary := some q.error
  codexSessionId := none

/-- What an abandonment needs: the worker is still as it was seen, its project's lease is its own,
the permitted successor's or nobody's, and the run can be recorded. -/
def Abandonable (db : Registry) (q : AgentWorkerAbandonment) : Prop :=
  ∃ w ∈ db.agentWorkers, w.workerToken = q.workerToken ∧ w.state = q.expectedState ∧
    w.workerPid = q.expectedWorkerPid ∧ w.heartbeatAt = q.expectedHeartbeatAt ∧
    (∀ l, db.lease? w.projectId = some l →
      l.holder = w.leaseHolder ∨ q.permittedSuccessorHolder = some l.holder) ∧
    ∃ recorded, db.recordWorkerRun (abandonedRun q w) q.workerToken
      ("Failed to record abandoned worker " ++ q.workerToken) = .ok recorded

/-- The condition on the worker's row: it is still as it was seen. -/
private def isSeen (q : AgentWorkerAbandonment) (w : AgentWorker) : Bool :=
  w.workerToken == q.workerToken && w.state = q.expectedState &&
    sqlSame w.workerPid q.expectedWorkerPid && sqlSame w.heartbeatAt q.expectedHeartbeatAt

private theorem isSeen_iff {q : AgentWorkerAbandonment} {w : AgentWorker} :
    isSeen q w = true ↔
      w.workerToken = q.workerToken ∧ w.state = q.expectedState ∧
        w.workerPid = q.expectedWorkerPid ∧ w.heartbeatAt = q.expectedHeartbeatAt := by
  simp only [isSeen, Bool.and_eq_true, beq_iff_eq, decide_eq_true_eq, sqlSame_iff, and_assoc]

/-- A call returns a result that no early exit has exactly when its body runs to the end. -/
theorem transaction_eq_ok {α : Type} {body : Step α (α × Registry)} {a : α}
    (hleaves : Leaves (· ≠ .ok a) body) :
    (db.transaction body).result = .ok a ↔ ∃ db', body = .ok (a, db') := by
  cases body with
  | error r =>
    constructor
    · intro h
      exact absurd h (hleaves r rfl)
    · rintro ⟨_, ⟨⟩⟩
  | ok p =>
    constructor
    · rintro ⟨⟩
      exact ⟨p.2, rfl⟩
    · rintro ⟨_, ⟨⟩⟩
      rfl

/-- An abandonment succeeds exactly when nothing that it needs is missing. -/
theorem abandonWorker_eq_ok_true {q : AgentWorkerAbandonment} :
    (db.abandonWorker q).result = .ok true ↔ db.Abandonable q := by
  unfold abandonWorker
  rw [transaction_eq_ok]
  · simp only [fetch_bind_eq_ok, require_bind_eq_ok, attempt_bind_eq_ok, decide_eq_true_eq]
    constructor
    · rintro ⟨db', w, hfound, hlease, recorded, hrecorded, -, -, -⟩
      obtain ⟨htoken, hstate, hpid, hheartbeat⟩ :=
        isSeen_iff.mp (Table.of_find? (p := isSeen q) hfound)
      refine ⟨w, Table.mem_of_find? hfound, htoken, hstate, hpid, hheartbeat, ?_,
        recorded, hrecorded⟩
      intro l hl
      rw [hl] at hlease
      simpa using hlease
    · rintro ⟨w, hw, htoken, hstate, hpid, hheartbeat, hlease, recorded, hrecorded⟩
      have hseen := isSeen_iff.mpr ⟨htoken, hstate, hpid, hheartbeat⟩
      -- One row has the token, so it is the row that is read, counted and rewritten.
      have hone : ∀ a b : AgentWorker, a.workerToken = q.workerToken →
          b.workerToken = q.workerToken → Keyed.conflict a b = true := by
        intro a b ha hb
        simp [Keyed.conflict, ha, hb]
      refine ⟨_, w, Table.find?_eq_some (p := isSeen q) (fun a b ha hb =>
        hone a b (isSeen_iff.mp ha).1 (isSeen_iff.mp hb).1) hw hseen, ?_, recorded, hrecorded,
        ?_, ?_, rfl⟩
      · cases hl : db.lease? w.projectId with
        | none => rfl
        | some l => simpa using hlease l hl
      · refine (Table.count_eq_one_iff (p := isSeen q) (q := fun a => a.workerToken == q.workerToken)
          (fun a b ha hb => hone a b (beq_iff_eq.mp ha) (beq_iff_eq.mp hb)) hw
          (beq_iff_eq.mpr htoken) fun a ha => beq_iff_eq.mpr (isSeen_iff.mp ha).1).mpr hseen
      · cases hl : db.lease? w.projectId with
        | none => rfl
        | some l =>
          by_cases hown : l.holder = w.leaseHolder
          · have hof := Table.of_find? hl
            simp only [Lease.of, beq_iff_eq] at hof
            have hcount : db.leases.count (fun l =>
                l.projectId == w.projectId && l.holder == w.leaseHolder) = 1 := by
              refine (Table.count_eq_one_iff (q := Lease.of w.projectId) (r := l) ?_
                (Table.mem_of_find? hl) (Table.of_find? hl) ?_).mpr ?_
              · intro a b ha hb
                simp only [Lease.of, beq_iff_eq] at ha hb
                simp [Keyed.conflict, ha, hb]
              · intro a ha
                simp only [Bool.and_eq_true] at ha
                exact ha.1
              · simp [hof, hown]
            simp [hcount]
          · simp [hown]
  · refine leaves_bind (leaves_fetch (by rintro ⟨⟩)) fun _ => ?_
    refine leaves_bind (leaves_require (by rintro ⟨⟩)) fun _ => ?_
    refine leaves_bind (leaves_attempt (by rintro _ ⟨⟩)) fun _ => ?_
    refine leaves_bind (leaves_require (by rintro ⟨⟩)) fun _ => ?_
    exact leaves_bind (leaves_require (by rintro ⟨⟩)) fun _ => leaves_ok _

end Registry

end Clt
