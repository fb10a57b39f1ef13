import Clt.Registry.Frame

/-!
# The fence around worker generations

The transactions of a worker generation guard one another through three things: the
worker's state, the lease held under the worker's own name, and the run row that
carries its token. Here is what they add up to over any interleaving:

- a worker that has stopped being active stays so (`AgentWorker.Continues`),
- a run row is never removed, and a token's row is inserted together with its
  project's statistics (`Settles`), so at most once,
- a claim and a heartbeat need the lease, a reservation respects its bound.
-/

namespace Clt

open Relational Registry

/-! ## Worker rows -/

/-- `w'` is the same worker generation as `w`, and is active only if `w` is. -/
structure AgentWorker.Continues (w w' : AgentWorker) : Prop where
  workerToken : w'.workerToken = w.workerToken
  projectId : w'.projectId = w.projectId
  leaseHolder : w'.leaseHolder = w.leaseHolder
  inactive : w.state.isActive = false → w'.state.isActive = false

namespace AgentWorker.Continues

theorem refl (w : AgentWorker) : w.Continues w := ⟨rfl, rfl, rfl, id⟩

theorem trans {a b c : AgentWorker} (h : a.Continues b) (k : b.Continues c) : a.Continues c :=
  ⟨k.workerToken.trans h.workerToken, k.projectId.trans h.projectId,
    k.leaseHolder.trans h.leaseHolder, fun ha => k.inactive (h.inactive ha)⟩

end AgentWorker.Continues

/-- Every worker of `t` is still in `t'`. -/
def WorkersContinue (t t' : Table AgentWorker) : Prop := ∀ w ∈ t, ∃ w' ∈ t', w.Continues w'

namespace WorkersContinue

variable {t t' : Table AgentWorker}

theorem refl (t : Table AgentWorker) : WorkersContinue t t := fun w hw => ⟨w, hw, .refl w⟩

theorem trans {a b c : Table AgentWorker} (h : WorkersContinue a b) (k : WorkersContinue b c) :
    WorkersContinue a c := by
  intro w hw
  obtain ⟨w', hw', h1⟩ := h w hw
  obtain ⟨w'', hw'', h2⟩ := k w' hw'
  exact ⟨w'', hw'', h1.trans h2⟩

theorem of_rewrite {P : AgentWorker → Bool} {f : AgentWorker → AgentWorker}
    (hrows : t'.rows = t.rows.map (Table.rewrite P f))
    (hf : ∀ w ∈ t, P w = true → w.Continues (f w)) : WorkersContinue t t' := by
  intro w hw
  refine ⟨Table.rewrite P f w, ?_, ?_⟩
  · rw [Table.mem_def, hrows]
    exact List.mem_map_of_mem hw
  · unfold Table.rewrite
    split
    · rename_i hP
      exact hf w hw hP
    · exact .refl w

theorem of_insertOrIgnore (r : AgentWorker) : WorkersContinue t (t.insertOrIgnore r).1 :=
  fun w hw => ⟨w, Table.subset_insertOrIgnore hw, .refl w⟩

end WorkersContinue

/-- A row that is not active any more, however its other columns change. -/
private theorem continues_of_inactive {w w' : AgentWorker} (htoken : w'.workerToken = w.workerToken)
    (hproject : w'.projectId = w.projectId) (hholder : w'.leaseHolder = w.leaseHolder)
    (h : w'.state.isActive = false) : w.Continues w' :=
  ⟨htoken, hproject, hholder, fun _ => h⟩

namespace Registry

variable {db : Registry}

/-! ## Workers continue -/

theorem transaction_workersContinue {α : Type} {body : Step α (α × Registry)}
    (h : ∀ a db', body = .ok (a, db') → WorkersContinue db.agentWorkers db'.agentWorkers) :
    WorkersContinue db.agentWorkers (db.transaction body).db.agentWorkers :=
  transaction_db (P := fun db' => WorkersContinue db.agentWorkers db'.agentWorkers) (.refl _) h

theorem claimed_workersContinue (workerToken : String) (workerPid : Nat) (startedAt : String) :
    WorkersContinue db.agentWorkers (db.claimed workerToken workerPid startedAt).agentWorkers := by
  refine .of_rewrite rfl fun w _ hw => ⟨rfl, rfl, rfl, fun hidle => ?_⟩
  simp only [claimable, Bool.and_eq_true, decide_eq_true_eq] at hw
  rw [hw.1.2] at hidle
  cases hidle

theorem claimWorker_workersContinue (workerToken : String) (workerPid : Nat)
    (startedAt : String) :
    WorkersContinue db.agentWorkers
      (db.claimWorker workerToken workerPid startedAt).db.agentWorkers := by
  unfold claimWorker
  split
  · exact claimed_workersContinue workerToken workerPid startedAt
  · exact .refl _

/-- A reservation leaves the registry alone, or had room for one more worker and
inserted it. -/
theorem reserveWorker_cases (db : Registry) (r : AgentWorkerReservation)
    (initialClaim : Option (Nat × String)) :
    (db.reserveWorker r initialClaim).db = db ∨
    db.agentWorkers.count (fun w => w.state.isActive) < r.maxActiveWorkers ∧
    ∃ h : db.agentWorkers.any (fun w => Keyed.conflict w r.toRow) = false,
      let s := db.reserved r (db.agentWorkers.append r.toRow h)
      (db.reserveWorker r initialClaim).db = s ∨
      ∃ workerPid startedAt,
        (db.reserveWorker r initialClaim).db = s.claimed r.workerToken workerPid startedAt := by
  rcases db.transaction_cases _ with he | ⟨a, db', hb, he⟩
  · exact .inl he
  · refine .inr ?_
    have hdb : (db.reserveWorker r initialClaim).db = db' := congrArg Outcome.db he
    rw [hdb]
    simp only [require_bind_eq_ok, fetch_bind_eq_ok, Bool.and_eq_true, decide_eq_true_eq] at hb
    obtain ⟨-, hroom, res, hins, hone, -, hb⟩ := hb
    refine ⟨hroom.2, ?_⟩
    have hres : res = db.agentWorkers.insertOrIgnore r.toRow := insertOrIgnoreInto_eq_some hins
    rcases Table.insertOrIgnore_cases db.agentWorkers r.toRow with ⟨-, hi⟩ | ⟨hn, hi⟩
    · rw [hres, hi] at hone
      cases hone
    · rw [hres, hi] at hb
      refine ⟨hn, ?_⟩
      split at hb
      · cases hb
        exact .inl rfl
      · obtain ⟨-, ⟨⟩⟩ := require_bind_eq_ok.mp hb
        exact .inr ⟨_, _, rfl⟩

theorem reserved_workersContinue (db : Registry) (r : AgentWorkerReservation)
    (workers : Table AgentWorker) :
    WorkersContinue workers (db.reserved r workers).agentWorkers :=
  .of_rewrite rfl fun _ _ _ => continues_of_inactive rfl rfl rfl rfl

theorem reserveWorker_workersContinue (r : AgentWorkerReservation)
    (initialClaim : Option (Nat × String)) :
    WorkersContinue db.agentWorkers (db.reserveWorker r initialClaim).db.agentWorkers := by
  rcases db.reserveWorker_cases r initialClaim with he | ⟨-, hn, he⟩
  · rw [he]
    exact .refl _
  · have happend : WorkersContinue db.agentWorkers (db.agentWorkers.append r.toRow hn) :=
      fun w hw => ⟨w, Table.mem_append.mpr (.inl hw), .refl w⟩
    have hreserved := happend.trans (db.reserved_workersContinue r _)
    rcases he with he | ⟨workerPid, startedAt, he⟩
    · rw [he]
      exact hreserved
    · rw [he]
      exact hreserved.trans (claimed_workersContinue r.workerToken workerPid startedAt)

theorem renewWorker_workersContinue (workerToken : String) (workerPid : Nat)
    (heartbeatAt leaseExpiresAt : String) :
    WorkersContinue db.agentWorkers
      (db.renewWorker workerToken workerPid heartbeatAt leaseExpiresAt).db.agentWorkers := by
  refine transaction_workersContinue fun a db' h => ?_
  simp only [require_bind_eq_ok, fetch_bind_eq_ok] at h
  obtain ⟨_, -, -, -, ⟨⟩⟩ := h
  exact .of_rewrite rfl fun w _ _ => ⟨rfl, rfl, rfl, id⟩

theorem abandonWorker_workersContinue (q : AgentWorkerAbandonment) :
    WorkersContinue db.agentWorkers (db.abandonWorker q).db.agentWorkers := by
  refine transaction_workersContinue fun a db' h => ?_
  simp only [require_bind_eq_ok, fetch_bind_eq_ok, attempt_bind_eq_ok] at h
  obtain ⟨_, -, -, _, -, -, -, ⟨⟩⟩ := h
  exact .of_rewrite rfl fun w _ _ => continues_of_inactive rfl rfl rfl rfl

/-- The two updates of a finalization touch an active worker only. -/
theorem finalizeWorker_workersContinue (q : AgentWorkerFinalization) :
    WorkersContinue db.agentWorkers (db.finalizeWorker q).db.agentWorkers := by
  refine transaction_workersContinue fun a db' h => ?_
  obtain ⟨worker, -, h⟩ := fetch_bind_eq_ok.mp h
  split at h
  · obtain ⟨_, -, ⟨⟩⟩ := fetch_bind_eq_ok.mp h
    exact .refl _
  · simp only [require_bind_eq_ok, fetch_bind_eq_ok, attempt_bind_eq_ok, Bool.and_eq_true] at h
    obtain ⟨hactive, -, -, finalizing, hupdate, _, -, -, ⟨⟩⟩ := h
    have hfirst : WorkersContinue db.agentWorkers finalizing := by
      refine .of_rewrite (Table.update?_eq_some hupdate) fun w _ hP => ⟨rfl, rfl, rfl, fun hw => ?_⟩
      simp only [Bool.and_eq_true, decide_eq_true_eq] at hP
      rw [hP.1.2, hactive.1] at hw
      cases hw
    exact hfirst.trans (.of_rewrite rfl fun w _ _ => continues_of_inactive rfl rfl rfl rfl)

end Registry

/-- No call removes a worker or makes an inactive one active. -/
theorem RegistryOp.workersContinue (op : RegistryOp) (db : Registry) :
    WorkersContinue db.agentWorkers (op.apply db).agentWorkers := by
  have hframe : op.writes.agentWorkers = false →
      WorkersContinue db.agentWorkers (op.apply db).agentWorkers := by
    intro h
    rw [(op.apply_frame db).agentWorkers h]
    exact .refl _
  cases op with
  | reserveWorker r initialClaim => exact reserveWorker_workersContinue r initialClaim
  | claimWorker token pid startedAt => exact claimWorker_workersContinue token pid startedAt
  | renewWorker token pid heartbeatAt expiresAt =>
    exact renewWorker_workersContinue token pid heartbeatAt expiresAt
  | supersedeAbandonedWorkersForLease =>
    exact .of_rewrite rfl fun w _ _ => continues_of_inactive rfl rfl rfl rfl
  | markWorkerServiceCleaned => exact .of_rewrite rfl fun w _ _ => ⟨rfl, rfl, rfl, id⟩
  | abandonWorker q => exact abandonWorker_workersContinue q
  | finalizeWorker q => exact finalizeWorker_workersContinue q
  | _ => exact hframe rfl

/-! ## Where workers come from -/

/-- Every worker of `t'` has the token of a worker of `t`, or meets `P`. -/
structure WorkersFrom (P : AgentWorker → Prop) (t t' : Table AgentWorker) : Prop where
  known : ∀ w' ∈ t', (∃ w ∈ t, w'.workerToken = w.workerToken) ∨ P w'

namespace WorkersFrom

variable {P : AgentWorker → Prop} {t t' t'' : Table AgentWorker}

theorem refl (P : AgentWorker → Prop) (t : Table AgentWorker) : WorkersFrom P t t :=
  ⟨fun w hw => .inl ⟨w, hw, rfl⟩⟩

/-- Rows are rewritten under the same token, and those that meet `P` go on to. -/
theorem rewrite (h : WorkersFrom P t t') {where_ : AgentWorker → Bool}
    {set : AgentWorker → AgentWorker} (hrows : t''.rows = t'.rows.map (Table.rewrite where_ set))
    (htoken : ∀ w, (set w).workerToken = w.workerToken) (hset : ∀ w, P w → P (set w)) :
    WorkersFrom P t t'' := by
  refine ⟨fun w'' hw'' => ?_⟩
  rw [Table.mem_def, hrows] at hw''
  obtain ⟨w', hw', rfl⟩ := List.mem_map.mp hw''
  unfold Table.rewrite
  split
  · rcases h.known w' hw' with ⟨w, hw, hsame⟩ | hnew
    · exact .inl ⟨w, hw, (htoken w').trans hsame⟩
    · exact .inr (hset w' hnew)
  · exact h.known w' hw'

end WorkersFrom

/-- The worker that a call reserves. -/
def RegistryOp.reserves : RegistryOp → AgentWorker → Prop
  | .reserveWorker r _, w =>
    w.workerToken = r.workerToken ∧ w.projectId = r.projectId ∧
      w.leaseHolder = workerLeaseHolder r.workerToken
  | _, _ => False

namespace Registry

variable {db : Registry} {P : AgentWorker → Prop}

theorem transaction_workersFrom {α : Type} {body : Step α (α × Registry)}
    (h : ∀ a db', body = .ok (a, db') → WorkersFrom P db.agentWorkers db'.agentWorkers) :
    WorkersFrom P db.agentWorkers (db.transaction body).db.agentWorkers :=
  transaction_db (P := fun db' => WorkersFrom P db.agentWorkers db'.agentWorkers) (.refl P _) h

theorem claimed_workersFrom {t : Table AgentWorker} (h : WorkersFrom P t db.agentWorkers)
    (hset : ∀ w pid startedAt, P w → P (w.claim pid startedAt)) (workerToken : String)
    (workerPid : Nat) (startedAt : String) :
    WorkersFrom P t (db.claimed workerToken workerPid startedAt).agentWorkers :=
  h.rewrite rfl (fun _ => rfl) fun w => hset w workerPid startedAt

theorem reserveWorker_workersFrom (r : AgentWorkerReservation)
    (initialClaim : Option (Nat × String)) :
    WorkersFrom (RegistryOp.reserves (.reserveWorker r initialClaim)) db.agentWorkers
      (db.reserveWorker r initialClaim).db.agentWorkers := by
  rcases db.reserveWorker_cases r initialClaim with he | ⟨-, hn, he⟩
  · rw [he]
    exact .refl _ _
  · have happend : WorkersFrom (RegistryOp.reserves (.reserveWorker r initialClaim))
        db.agentWorkers (db.agentWorkers.append r.toRow hn) := by
      refine ⟨fun w hw => ?_⟩
      rcases Table.mem_append.mp hw with hw | rfl
      · exact .inl ⟨w, hw, rfl⟩
      · exact .inr ⟨rfl, rfl, rfl⟩
    have hreserved : WorkersFrom (RegistryOp.reserves (.reserveWorker r initialClaim))
        db.agentWorkers (db.reserved r (db.agentWorkers.append r.toRow hn)).agentWorkers :=
      happend.rewrite rfl (fun _ => rfl) fun _ h => h
    rcases he with he | ⟨workerPid, startedAt, he⟩
    · rw [he]
      exact hreserved
    · rw [he]
      exact claimed_workersFrom hreserved (fun _ _ _ h => h) ..

theorem abandonWorker_workersFrom (q : AgentWorkerAbandonment) :
    WorkersFrom (fun _ => False) db.agentWorkers (db.abandonWorker q).db.agentWorkers := by
  refine transaction_workersFrom fun a db' h => ?_
  simp only [require_bind_eq_ok, fetch_bind_eq_ok, attempt_bind_eq_ok] at h
  obtain ⟨_, -, -, _, -, -, -, ⟨⟩⟩ := h
  exact (WorkersFrom.refl _ _).rewrite rfl (fun _ => rfl) fun _ h => h

theorem finalizeWorker_workersFrom (q : AgentWorkerFinalization) :
    WorkersFrom (fun _ => False) db.agentWorkers (db.finalizeWorker q).db.agentWorkers := by
  refine transaction_workersFrom fun a db' h => ?_
  obtain ⟨worker, -, h⟩ := fetch_bind_eq_ok.mp h
  split at h
  · obtain ⟨_, -, ⟨⟩⟩ := fetch_bind_eq_ok.mp h
    exact .refl _ _
  · simp only [require_bind_eq_ok, fetch_bind_eq_ok, attempt_bind_eq_ok] at h
    obtain ⟨-, -, -, _, hupdate, _, -, -, ⟨⟩⟩ := h
    have hfirst := (WorkersFrom.refl (fun _ => False) db.agentWorkers).rewrite
      (Table.update?_eq_some hupdate) (fun _ => rfl) fun _ h => h
    exact hfirst.rewrite rfl (fun _ => rfl) fun _ h => h

end Registry

theorem RegistryOp.workersFrom (op : RegistryOp) (db : Registry) :
    WorkersFrom op.reserves db.agentWorkers (op.apply db).agentWorkers := by
  have hframe : op.writes.agentWorkers = false →
      WorkersFrom op.reserves db.agentWorkers (op.apply db).agentWorkers := by
    intro h
    rw [(op.apply_frame db).agentWorkers h]
    exact .refl _ _
  have hrewritten {where_ : AgentWorker → Bool} {set : AgentWorker → AgentWorker}
      {t : Table AgentWorker} (hrows : t.rows = db.agentWorkers.rows.map (Table.rewrite where_ set))
      (htoken : ∀ w, (set w).workerToken = w.workerToken) :
      WorkersFrom (fun _ => False) db.agentWorkers t :=
    (WorkersFrom.refl _ _).rewrite hrows htoken fun _ h => h
  cases op with
  | reserveWorker r initialClaim => exact reserveWorker_workersFrom r initialClaim
  | claimWorker =>
    show WorkersFrom _ _ (Registry.claimWorker ..).db.agentWorkers
    unfold Registry.claimWorker
    split
    · exact hrewritten rfl fun _ => rfl
    · exact .refl _ _
  | renewWorker =>
    refine transaction_workersFrom fun a db' h => ?_
    simp only [require_bind_eq_ok, fetch_bind_eq_ok] at h
    obtain ⟨_, -, -, -, ⟨⟩⟩ := h
    exact hrewritten rfl fun _ => rfl
  | supersedeAbandonedWorkersForLease => exact hrewritten rfl fun _ => rfl
  | markWorkerServiceCleaned => exact hrewritten rfl fun _ => rfl
  | abandonWorker q => exact abandonWorker_workersFrom q
  | finalizeWorker q => exact finalizeWorker_workersFrom q
  | _ => exact hframe rfl

/-- A worker after a call is one from before it, or the one that the call reserves. -/
theorem RegistryOp.worker_cases (op : RegistryOp) {db : Registry} {w' : AgentWorker}
    (hw' : w' ∈ (op.apply db).agentWorkers) :
    (∃ w ∈ db.agentWorkers, w.Continues w') ∨ op.reserves w' := by
  rcases (op.workersFrom db).known w' hw' with ⟨w, hw, htoken⟩ | hnew
  · obtain ⟨w'', hw'', hcontinues⟩ := op.workersContinue db w hw
    have hsame : w'' = w' := Table.eq_of_conflict hw'' hw'
      (by simp [Keyed.conflict, hcontinues.workerToken, htoken])
    exact .inl ⟨w, hw, hsame ▸ hcontinues⟩
  · exact .inr hnew

/-! ## The run of a worker token -/

/-- The call `db ⟶ db'` of a worker leaves runs and project statistics alone, or
finds no run under the worker's token and inserts one. -/
def Settles (workerToken : String) (db db' : Registry) : Prop :=
  (db'.runs = db.runs ∧ db'.projects = db.projects) ∨
  (∀ r ∈ db.runs, r.workerToken ≠ some workerToken) ∧
    ∃ r : Run, r.workerToken = some workerToken ∧ db'.runs.rows = db.runs.rows ++ [r]

namespace Registry

variable {db : Registry}

theorem transaction_settles {α : Type} {workerToken : String} {body : Step α (α × Registry)}
    (h : ∀ a db', body = .ok (a, db') → Settles workerToken db db') :
    Settles workerToken db (db.transaction body).db :=
  transaction_db (.inl ⟨rfl, rfl⟩) h

/-- A token that already has a run records nothing. -/
theorem recordWorkerRun_settles {outcome : AgentRunOutcome} {workerToken context : String}
    {r : Registry × Int} (h : db.recordWorkerRun outcome workerToken context = .ok r) :
    Settles workerToken db r.1 := by
  unfold recordWorkerRun at h
  split at h
  · cases h
  · rename_i runs inserted hins
    have hres := insertOrIgnoreInto_eq_some hins
    rcases Table.insertOrIgnore_cases db.runs (outcome.toRun db.nextRunId (some workerToken)) with
      ⟨-, hi⟩ | ⟨hn, hi⟩
    · rw [hi] at hres
      cases hres
      split at h
      · rename_i hone
        cases hone
      · split at h <;> cases h
        exact .inl ⟨rfl, rfl⟩
    · rw [hi] at hres
      cases hres
      cases h
      refine .inr ⟨fun a ha htoken => ?_, _, rfl, rfl⟩
      have hfree := Table.any_eq_false_iff.mp hn a ha
      simp [Keyed.conflict, AgentRunOutcome.toRun, htoken, sqlEq] at hfree

theorem abandonWorker_settles (q : AgentWorkerAbandonment) :
    Settles q.workerToken db (db.abandonWorker q).db := by
  refine transaction_settles fun a db' h => ?_
  simp only [require_bind_eq_ok, fetch_bind_eq_ok, attempt_bind_eq_ok] at h
  obtain ⟨_, -, -, _, hrecord, -, -, ⟨⟩⟩ := h
  exact recordWorkerRun_settles hrecord

theorem finalizeWorker_settles (q : AgentWorkerFinalization) :
    Settles q.workerToken db (db.finalizeWorker q).db := by
  refine transaction_settles fun a db' h => ?_
  obtain ⟨worker, -, h⟩ := fetch_bind_eq_ok.mp h
  split at h
  · obtain ⟨_, -, ⟨⟩⟩ := fetch_bind_eq_ok.mp h
    exact .inl ⟨rfl, rfl⟩
  · simp only [require_bind_eq_ok, fetch_bind_eq_ok, attempt_bind_eq_ok] at h
    obtain ⟨-, -, -, _, -, _, hrecord, -, ⟨⟩⟩ := h
    exact recordWorkerRun_settles hrecord

/-- A run that is stored after a call's insert was stored before, or is new. -/
theorem mem_runs_of_settles {workerToken : String} {db' : Registry}
    (h : Settles workerToken db db') {r : Run} (hr : r ∈ db.runs) : r ∈ db'.runs := by
  rcases h with ⟨hruns, -⟩ | ⟨-, _, -, hrows⟩
  · rw [hruns]
    exact hr
  · rw [Table.mem_def, hrows]
    exact List.mem_append_left _ hr

theorem mem_runs_insertInto {projectId : Int} {runs : Table Run} {r a : Run}
    (h : db.insertInto projectId db.runs r = some runs) (ha : a ∈ db.runs) : a ∈ runs := by
  rw [Table.mem_def, (Table.insert?_eq_some (insertInto_eq_some h)).2]
  exact List.mem_append_left _ ha

theorem acknowledgingRun_runs {outcome : AgentRunOutcome} {codexSessionId completedAt : String}
    {res : Registry × Int}
    (h : db.acknowledgingRun outcome codexSessionId completedAt = .ok res) {r : Run}
    (hr : r ∈ db.runs) : r ∈ res.1.runs := by
  unfold acknowledgingRun at h
  dsimp only at h
  split at h
  · cases h
    exact hr
  · obtain ⟨runs, hins, ⟨⟩⟩ := fetch_bind_eq_ok.mp h
    exact mem_runs_insertInto hins hr

theorem acknowledgeCompletedGitFinalizationSession_runs (projectId : Int)
    (codexSessionId acknowledgedAt : String) {r : Run} (hr : r ∈ db.runs) :
    r ∈ (db.acknowledgeCompletedGitFinalizationSession projectId codexSessionId
      acknowledgedAt).db.runs := by
  refine transaction_db (P := fun db' => r ∈ db'.runs) hr fun a db' h => ?_
  obtain ⟨_, -, h⟩ := fetch_bind_eq_ok.mp h
  obtain ⟨_, -, h⟩ := fetch_bind_eq_ok.mp h
  split at h
  · cases h
    exact hr
  · obtain ⟨res, hres, h⟩ := step_bind_eq_ok.mp h
    obtain ⟨-, ⟨⟩⟩ := require_bind_eq_ok.mp h
    have hrecorded := acknowledgingRun_runs hres hr
    show r ∈ (if _ then _ else _ : Registry).runs
    split <;> exact hrecorded

theorem recordRunOutcome_runs (outcome : AgentRunOutcome) {r : Run} (hr : r ∈ db.runs) :
    r ∈ (db.recordRunOutcome outcome).db.runs := by
  refine transaction_db (P := fun db' => r ∈ db'.runs) hr fun a db' h => ?_
  obtain ⟨_, hins, ⟨⟩⟩ := fetch_bind_eq_ok.mp h
  exact mem_runs_insertInto hins hr

end Registry

/-- No call removes or changes a run. -/
theorem RegistryOp.mem_runs (op : RegistryOp) {db : Registry} {r : Run} (hr : r ∈ db.runs) :
    r ∈ (op.apply db).runs := by
  have hframe : op.writes.runs = false → r ∈ (op.apply db).runs := by
    intro h
    rw [(op.apply_frame db).runs h]
    exact hr
  cases op with
  | acknowledgeCompletedGitFinalizationSession =>
    exact acknowledgeCompletedGitFinalizationSession_runs _ _ _ hr
  | recordRunOutcome => exact recordRunOutcome_runs _ hr
  | abandonWorker q => exact mem_runs_of_settles (abandonWorker_settles q) hr
  | finalizeWorker q => exact mem_runs_of_settles (finalizeWorker_settles q) hr
  | _ => exact hframe rfl

/-- The worker token under which a call records a run. -/
def RegistryOp.recordingToken : RegistryOp → Option String
  | .abandonWorker q => some q.workerToken
  | .finalizeWorker q => some q.workerToken
  | _ => none

theorem RegistryOp.settles {op : RegistryOp} {workerToken : String}
    (h : op.recordingToken = some workerToken) (db : Registry) :
    Settles workerToken db (op.apply db) := by
  cases op with
  | abandonWorker q =>
    obtain rfl := Option.some.inj h
    exact abandonWorker_settles q
  | finalizeWorker q =>
    obtain rfl := Option.some.inj h
    exact finalizeWorker_settles q
  | _ => cases h

/-- A call changes the runs or the project statistics on behalf of a worker token. -/
def recordsRun (workerToken : String) (op : RegistryOp) (db : Registry) : Bool :=
  op.recordingToken = some workerToken &&
    ((op.apply db).runs != db.runs || (op.apply db).projects != db.projects)

/-- The worker token has its run. -/
def HasRun (workerToken : String) (db : Registry) : Prop :=
  ∃ r ∈ db.runs, r.workerToken = some workerToken

theorem hasRun_of_recordsRun {workerToken : String} {op : RegistryOp} {db : Registry}
    (h : recordsRun workerToken op db = true) :
    ¬ HasRun workerToken db ∧ HasRun workerToken (op.apply db) := by
  simp only [recordsRun, Bool.and_eq_true, decide_eq_true_eq, Bool.or_eq_true, bne_iff_ne] at h
  obtain ⟨htoken, hchange⟩ := h
  rcases RegistryOp.settles htoken db with ⟨hruns, hprojects⟩ | ⟨hfree, r, hr, hrows⟩
  · exact (hchange.elim (fun h => h hruns) fun h => h hprojects).elim
  · refine ⟨fun ⟨a, ha, hat⟩ => hfree a ha hat, r, ?_, hr⟩
    rw [Table.mem_def, hrows]
    exact List.mem_append_right _ (List.mem_singleton.mpr rfl)

/-! ## Leases and bounds -/

namespace Registry

variable {db : Registry}

/-- A project's lease is held by the worker's own holder exactly when that is the
holder of its one lease row. -/
theorem holdsLease_iff {w : AgentWorker} :
    db.holdsLease w = true ↔
      (db.lease? w.projectId).map Lease.holder = some w.leaseHolder := by
  unfold holdsLease lease?
  rw [Table.any_iff]
  constructor
  · rintro ⟨l, hl, hkey⟩
    simp only [Bool.and_eq_true, beq_iff_eq] at hkey
    rw [Table.find?_eq_some (fun a b ha hb => by
      simp only [Lease.of, beq_iff_eq] at ha hb
      simp [Keyed.conflict, ha, hb]) hl (by simp [Lease.of, hkey.1]), Option.map_some, hkey.2]
  · intro h
    obtain ⟨l, hl, hholder⟩ := Option.map_eq_some_iff.mp h
    have hof := Table.of_find? hl
    refine ⟨l, Table.mem_of_find? hl, ?_⟩
    simp only [Lease.of, beq_iff_eq] at hof
    simp [hof, hholder]

/-- A worker of the token whose own holder holds its project's lease. -/
def OwnsLease (db : Registry) (workerToken : String) : Prop :=
  ∃ w ∈ db.agentWorkers, w.workerToken = workerToken ∧
    (db.lease? w.projectId).map Lease.holder = some w.leaseHolder

theorem ownsLease_of_claimWorker {workerToken : String} {workerPid : Nat} {startedAt : String}
    (h : (db.claimWorker workerToken workerPid startedAt).result = .ok true) :
    db.OwnsLease workerToken := by
  unfold claimWorker at h
  split at h
  · rename_i hcount
    obtain ⟨w, hw, hp⟩ := Table.exists_of_count_eq_one hcount
    simp only [claimable, Bool.and_eq_true, beq_iff_eq] at hp
    exact ⟨w, hw, hp.1.1, holdsLease_iff.mp hp.2⟩
  · have hcount := of_decide_eq_true (Except.ok.inj h)
    obtain ⟨w, hw, hp⟩ := Table.exists_of_count_eq_one hcount
    simp only [runningAs, Bool.and_eq_true, beq_iff_eq] at hp
    exact ⟨w, hw, hp.1.1.1, holdsLease_iff.mp hp.2⟩

theorem ownsLease_of_renewWorker {workerToken : String} {workerPid : Nat}
    {heartbeatAt leaseExpiresAt : String}
    (h : (db.renewWorker workerToken workerPid heartbeatAt leaseExpiresAt).result = .ok true) :
    db.OwnsLease workerToken := by
  cases hf : db.agentWorkers.find? fun w =>
      runningAs workerToken workerPid w && db.holdsLease w with
  | none =>
    rw [renewWorker, hf] at h
    cases h
  | some w =>
    have hp := Table.of_find? hf
    simp only [runningAs, Bool.and_eq_true, beq_iff_eq] at hp
    exact ⟨w, Table.mem_of_find? hf, hp.1.1.1, holdsLease_iff.mp hp.2⟩

/-- An inline worker is claimed under the lease that its reservation took over. -/
theorem ownsLease_of_reserveWorker {r : AgentWorkerReservation} {workerPid : Nat}
    {startedAt : String}
    (h : (db.reserveWorker r (some (workerPid, startedAt))).result = .ok true) :
    (db.reserveWorker r (some (workerPid, startedAt))).db.OwnsLease r.workerToken := by
  refine transaction_of_result (P := fun db' => db'.OwnsLease r.workerToken) h ?_
    fun db' hbody => ?_
  · refine leaves_bind (leaves_require nofun) fun _ => ?_
    refine leaves_bind (leaves_require nofun) fun _ => ?_
    refine leaves_bind (leaves_fetch nofun) fun _ => ?_
    refine leaves_bind (leaves_require nofun) fun _ => ?_
    refine leaves_bind (leaves_require nofun) fun _ => ?_
    exact leaves_bind (leaves_require nofun) fun _ => leaves_ok _
  · simp only [require_bind_eq_ok, fetch_bind_eq_ok, decide_eq_true_eq] at hbody
    obtain ⟨-, -, _, -, -, -, hcount, ⟨⟩⟩ := hbody
    obtain ⟨w, hw, hp⟩ := Table.exists_of_count_eq_one hcount
    refine ⟨w.claim workerPid startedAt, Table.mem_rewritten rfl hw hp, ?_, ?_⟩
    · simp only [claimable, Bool.and_eq_true, beq_iff_eq] at hp
      exact hp.1.1
    · simp only [claimable, Bool.and_eq_true] at hp
      exact holdsLease_iff.mp hp.2

/-- Superseding and claiming keep the number of active workers. -/
theorem count_active_reserved (r : AgentWorkerReservation) (workers : Table AgentWorker) :
    (db.reserved r workers).agentWorkers.count (fun w => w.state.isActive) =
      workers.count fun w => w.state.isActive := by
  refine Table.count_update (AgentWorker.supersede_compatible _) fun w _ hw => ?_
  simp only [Bool.and_eq_true, decide_eq_true_eq] at hw
  rw [hw.1.2]
  rfl

theorem count_active_claimed (workerToken : String) (workerPid : Nat) (startedAt : String) :
    (db.claimed workerToken workerPid startedAt).agentWorkers.count (fun w => w.state.isActive) =
      db.agentWorkers.count fun w => w.state.isActive := by
  refine Table.count_update (db.claim_compatible workerToken workerPid startedAt) fun w _ hw => ?_
  simp only [claimable, Bool.and_eq_true, decide_eq_true_eq] at hw
  rw [hw.1.2]
  rfl

/-- A reservation changes no worker, or leaves no more active workers than its bound. -/
theorem reserveWorker_bound (r : AgentWorkerReservation) (initialClaim : Option (Nat × String)) :
    (db.reserveWorker r initialClaim).db.agentWorkers = db.agentWorkers ∨
    (db.reserveWorker r initialClaim).db.agentWorkers.count (fun w => w.state.isActive) ≤
      r.maxActiveWorkers := by
  rcases db.reserveWorker_cases r initialClaim with he | ⟨hroom, hn, he⟩
  · exact .inl (congrArg Registry.agentWorkers he)
  · refine .inr ?_
    have happend : (db.agentWorkers.append r.toRow hn).count (fun w => w.state.isActive) ≤
        r.maxActiveWorkers := by
      show (db.agentWorkers.rows ++ [r.toRow]).countP _ ≤ _
      rw [List.countP_append]
      exact hroom
    rcases he with he | ⟨workerPid, startedAt, he⟩
    · rw [he, count_active_reserved]
      exact happend
    · rw [he, count_active_claimed, count_active_reserved]
      exact happend

/-! ## Repeated finalization -/

/-- The row that a lookup by token finds is the only one with that token. -/
theorem worker?_eq_some {w : AgentWorker} (hw : w ∈ db.agentWorkers) :
    db.worker? w.workerToken = some w :=
  Table.find?_eq_some (fun a b ha hb => by
    simp only [beq_iff_eq] at ha hb
    simp [Keyed.conflict, ha, hb]) hw (beq_self_eq_true _)

/-- A worker that is not active any more cannot be finalized again. -/
theorem finalizeWorker_of_inactive {w : AgentWorker} {q : AgentWorkerFinalization}
    (hw : w ∈ db.agentWorkers) (htoken : w.workerToken = q.workerToken)
    (hidle : w.state.isActive = false) : (db.finalizeWorker q).db = db := by
  have hfound : db.worker? q.workerToken = some w := htoken ▸ worker?_eq_some hw
  refine transaction_db (P := fun db' => db' = db) rfl fun a db' h => ?_
  obtain ⟨worker, hworker, h⟩ := fetch_bind_eq_ok.mp h
  obtain rfl : w = worker := Option.some.inj (hfound.symm.trans hworker)
  split at h
  · obtain ⟨_, -, ⟨⟩⟩ := fetch_bind_eq_ok.mp h
    rfl
  · obtain ⟨hactive, -⟩ := require_bind_eq_ok.mp h
    rw [hidle] at hactive
    cases hactive

/-- A finalization that returns a run leaves its worker inactive. -/
theorem inactive_of_finalizeWorker {q : AgentWorkerFinalization} {runId : Int}
    (h : (db.finalizeWorker q).result = .ok (some runId)) :
    ∃ w ∈ (db.finalizeWorker q).db.agentWorkers,
      w.workerToken = q.workerToken ∧ w.state.isActive = false := by
  refine transaction_of_result (P := fun db' => ∃ w ∈ db'.agentWorkers,
    w.workerToken = q.workerToken ∧ w.state.isActive = false) h ?_ fun db' hbody => ?_
  · -- No early exit returns a run.
    refine leaves_bind (leaves_fetch nofun) fun worker => ?_
    split
    · exact leaves_bind (leaves_fetch nofun) fun _ => leaves_ok _
    · refine leaves_bind (leaves_require nofun) fun _ => ?_
      refine leaves_bind (leaves_require nofun) fun _ => ?_
      refine leaves_bind (leaves_require nofun) fun _ => ?_
      refine leaves_bind (leaves_fetch nofun) fun _ => ?_
      refine leaves_bind (leaves_attempt nofun) fun _ => ?_
      exact leaves_bind (leaves_require nofun) fun _ => leaves_ok _
  obtain ⟨worker, hworker, hbody⟩ := fetch_bind_eq_ok.mp hbody
  have htoken : worker.workerToken = q.workerToken := by
    simpa using Table.of_find? hworker
  split at hbody
  · rename_i hdone
    obtain ⟨_, -, ⟨⟩⟩ := fetch_bind_eq_ok.mp hbody
    refine ⟨worker, Table.mem_of_find? hworker, htoken, ?_⟩
    rw [hdone]
    rfl
  · simp only [require_bind_eq_ok, fetch_bind_eq_ok, attempt_bind_eq_ok,
      decide_eq_true_eq] at hbody
    obtain ⟨-, -, -, finalizing, -, recorded, -, hcount, ⟨⟩⟩ := hbody
    obtain ⟨w, hw, hp⟩ := Table.exists_of_count_eq_one hcount
    refine ⟨AgentWorker.complete q.finishedAt recorded.2 q.error w,
      Table.mem_rewritten rfl hw hp, ?_, rfl⟩
    simp only [Bool.and_eq_true, beq_iff_eq] at hp
    exact hp.1

end Registry

/-! ## Runs -/

section Runs

variable {db : Registry} {ops : List RegistryOp}

theorem workersContinue_runOps (ops : List RegistryOp) (db : Registry) :
    WorkersContinue db.agentWorkers (runOps ops db).agentWorkers :=
  Transition.exec_related
    (R := fun a b => WorkersContinue a.agentWorkers b.agentWorkers)
    (fun s => .refl s.agentWorkers) (fun _ _ _ => .trans) RegistryOp.workersContinue ops db

/-- A worker that is not active stays so. -/
theorem inactive_runOps {w w' : AgentWorker} (hw : w ∈ db.agentWorkers)
    (hidle : w.state.isActive = false) (hw' : w' ∈ (runOps ops db).agentWorkers)
    (htoken : w'.workerToken = w.workerToken) : w'.state.isActive = false := by
  obtain ⟨v, hv, hcontinues⟩ := workersContinue_runOps ops db w hw
  have hsame : w' = v := Table.eq_of_conflict hw' hv (by
    simp [Keyed.conflict, htoken, hcontinues.workerToken])
  rw [hsame]
  exact hcontinues.inactive hidle

/-- A worker token changes the runs and the statistics of its project at most once. -/
theorem occurrences_recordsRun_le_one (workerToken : String) :
    Transition.occurrences RegistryOp.apply (recordsRun workerToken) ops db ≤ 1 := by
  refine Transition.occurrences_le_one (D := HasRun workerToken)
    (fun op s ⟨r, hr, htoken⟩ => ⟨r, op.mem_runs hr, htoken⟩) (fun op s hs => ?_)
    (fun op s hs => (hasRun_of_recordsRun hs).2) ops db
  rw [← Bool.not_eq_true]
  exact fun hrecords => (hasRun_of_recordsRun hrecords).1 hs

/-- A project has at most one active worker. -/
theorem count_activeIn_le_one (db : Registry) (projectId : Int) :
    db.agentWorkers.count (AgentWorker.activeIn projectId) ≤ 1 :=
  Table.count_le_one fun a b ha hb => by
    simp only [AgentWorker.activeIn, Bool.and_eq_true, beq_iff_eq] at ha hb
    simp [Keyed.conflict, ha, hb]

/-- A worker token has at most one run. -/
theorem count_run_le_one (db : Registry) (workerToken : String) :
    db.runs.count (fun r => r.workerToken == some workerToken) ≤ 1 :=
  Table.count_le_one fun a b ha hb => by
    simp only [beq_iff_eq] at ha hb
    simp [Keyed.conflict, ha, hb, sqlEq]

/-- Once a finalization has returned a run, every later one of the same token
changes nothing. -/
theorem finalizeWorker_repeated {q q' : AgentWorkerFinalization} {runId : Int}
    {post : List RegistryOp} (h : (db.finalizeWorker q).result = .ok (some runId))
    (htoken : q'.workerToken = q.workerToken) :
    let later := runOps (.finalizeWorker q :: post) db
    (later.finalizeWorker q').db = later := by
  obtain ⟨w, hw, hwt, hidle⟩ := inactive_of_finalizeWorker h
  obtain ⟨v, hv, hcontinues⟩ := workersContinue_runOps post (db.finalizeWorker q).db w hw
  exact finalizeWorker_of_inactive hv
    (hcontinues.workerToken.trans (hwt.trans htoken.symm)) (hcontinues.inactive hidle)

/-- The fence around worker generations, over any interleaving of calls: one active
worker in a project, reservations within their bound, no worker that becomes active
again, claims and heartbeats under the worker's own lease, one run and one change of
the statistics for each worker token, and finalizations that repeat without effect. -/
theorem worker_fence (db : Registry) (ops : List RegistryOp) :
    (∀ projectId, (runOps ops db).agentWorkers.count (AgentWorker.activeIn projectId) ≤ 1) ∧
    (∀ r initialClaim,
      ((runOps ops db).reserveWorker r initialClaim).db.agentWorkers =
        (runOps ops db).agentWorkers ∨
      ((runOps ops db).reserveWorker r initialClaim).db.agentWorkers.count
        (fun w => w.state.isActive) ≤ r.maxActiveWorkers) ∧
    (∀ pre post, ops = pre ++ post → ∀ w ∈ (runOps pre db).agentWorkers,
      w.state.isActive = false → ∀ w' ∈ (runOps ops db).agentWorkers,
        w'.workerToken = w.workerToken → w'.state.isActive = false) ∧
    (∀ workerToken workerPid startedAt,
      ((runOps ops db).claimWorker workerToken workerPid startedAt).result = .ok true →
        (runOps ops db).OwnsLease workerToken) ∧
    (∀ workerToken workerPid heartbeatAt leaseExpiresAt,
      ((runOps ops db).renewWorker workerToken workerPid heartbeatAt leaseExpiresAt).result =
        .ok true → (runOps ops db).OwnsLease workerToken) ∧
    (∀ r workerPid startedAt,
      ((runOps ops db).reserveWorker r (some (workerPid, startedAt))).result = .ok true →
        ((runOps ops db).reserveWorker r (some (workerPid, startedAt))).db.OwnsLease
          r.workerToken) ∧
    (∀ workerToken,
      (runOps ops db).runs.count (fun r => r.workerToken == some workerToken) ≤ 1 ∧
      Transition.occurrences RegistryOp.apply (recordsRun workerToken) ops db ≤ 1) ∧
    (∀ pre post q q' runId, ops = pre ++ .finalizeWorker q :: post →
      ((runOps pre db).finalizeWorker q).result = .ok (some runId) →
      q'.workerToken = q.workerToken →
      ((runOps ops db).finalizeWorker q').db = runOps ops db) := by
  refine ⟨count_activeIn_le_one _, reserveWorker_bound, ?_, fun _ _ _ => ownsLease_of_claimWorker,
    fun _ _ _ _ => ownsLease_of_renewWorker, fun _ _ _ => ownsLease_of_reserveWorker,
    fun workerToken => ⟨count_run_le_one _ workerToken, occurrences_recordsRun_le_one workerToken⟩,
    ?_⟩
  · rintro pre post rfl w hw hidle w' hw' htoken
    rw [runOps, Transition.exec_append] at hw'
    exact inactive_runOps hw hidle hw' htoken
  · rintro pre post q q' runId rfl hresult htoken
    rw [runOps, Transition.exec_append]
    exact finalizeWorker_repeated hresult htoken

end Runs

/-- A worker that is dispatched, claimed and finalized, and finalized once more. -/
def finalizedRun : List RegistryOp :=
  [.tryAcquireLease 1 "scheduler" "10" "20",
    .reserveWorker
      { projectId := 1, workerToken := "w", expectedLeaseHolder := "scheduler",
        maxActiveWorkers := 1, protocolVersion := 1, serviceLabel := "label",
        binaryPath := "/clt", commandArguments := "", pathEnv := "", codexPath := none,
        taskSelection := "next", resumeSessionId := none, createdAt := "11" } none,
    .claimWorker "w" 7 "12", finalize "failure", finalize "success"]
where
  finalize (status : String) : RegistryOp :=
    .finalizeWorker
      { workerToken := "w", expectedWorkerPid := some 7,
        expectedLeaseHolder := workerLeaseHolder "w", status := status, finishedAt := "13",
        exitCode := none, logDir := none, stdoutPath := none, stderrPath := none,
        summary := none, codexSessionId := none, error := none }

theorem worker_fence_finalizedRun :
    (runOps finalizedRun managedRegistry).runs.rows.map Run.status = ["failure"] ∧
    (runOps finalizedRun managedRegistry).runs.count (fun r => r.workerToken == some "w") ≤ 1 ∧
    Transition.occurrences RegistryOp.apply (recordsRun "w") finalizedRun managedRegistry ≤ 1 :=
  ⟨by decide, (worker_fence managedRegistry finalizedRun).2.2.2.2.2.2.1 "w"⟩

end Clt
