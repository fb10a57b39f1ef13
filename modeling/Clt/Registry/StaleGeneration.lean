import Clt.Registry.JournalLifecycle

/-!
# A generation that has lost its lease

A worker generation goes on issuing calls under its own run token after another holder has
taken its project's lease. Four of the five calls that it has left join `agent_workers` with
`leases` and are refused. The compare-and-set of a journal that it owns looks at the
session's control alone: `stale_generation` says in which registries that lets a stale
generation write.
-/

namespace Clt

open Relational Registry

/-- A session operation that a worker generation issues, for its own project and under its
own run token and lease holder. -/
inductive SessionOperation where
  | markSessionRunning (codexSessionId : String) (childPid : Nat)
      (stdoutPath stderrPath : String) (gitMode : Option AgentGitMode) (now createdAt : String)
  | completeSessionStop (codexSessionId now : String)
  | clearRunningSessionControl (codexSessionId : String)
  | completeSessionInterruptHandoff (codexSessionId acquiredAt expiresAt now : String)
  | compareAndSetOwned (codexSessionId : String) (expectedGeneration : Int)
      (nextState : GitFinalizationState)
      (taskIdentity worktreeBaseline commitOid lastError : Option String) (updatedAt : String)

/-- The registry that an operation of the generation `w` leaves. The last one is what the
four `compare_and_set_…` calls share that require a running owner. -/
def SessionOperation.issue (w : AgentWorker) : SessionOperation → Registry → Registry
  | markSessionRunning codexSessionId childPid stdoutPath stderrPath gitMode now createdAt, db =>
    (db.markSessionRunning w.projectId codexSessionId childPid w.workerToken stdoutPath
      stderrPath gitMode now createdAt).db
  | completeSessionStop codexSessionId now, db =>
    (db.completeSessionStop w.projectId codexSessionId w.workerToken now).db
  | clearRunningSessionControl codexSessionId, db =>
    (db.clearRunningSessionControl w.projectId codexSessionId (some w.workerToken)).db
  | completeSessionInterruptHandoff codexSessionId acquiredAt expiresAt now, db =>
    (db.completeSessionInterruptHandoff w.projectId codexSessionId w.workerToken w.leaseHolder
      acquiredAt expiresAt now).db
  | compareAndSetOwned codexSessionId expectedGeneration nextState taskIdentity
      worktreeBaseline commitOid lastError updatedAt, db =>
    (db.compareAndSetGitFinalization w.projectId codexSessionId expectedGeneration nextState
      taskIdentity worktreeBaseline true (some w.workerToken) commitOid lastError updatedAt).db

/-- The generation is known, and its project's lease is held by another holder. -/
def Superseded (db : Registry) (w : AgentWorker) : Prop :=
  w ∈ db.agentWorkers ∧ ∃ l ∈ db.leases, l.projectId = w.projectId ∧ l.holder ≠ w.leaseHolder

/-- A journal that has a next state: it is unfinished, its generation can still grow, and it
does not wait for a push that its session never makes. -/
def GitFinalization.Advances (g : GitFinalization) : Prop :=
  g.state.isUnfinished = true ∧ ¬ (g.state = .pushPending ∧ g.gitMode = .commit) ∧
    g.generation < maxInteger

/-- A session of the generation's project still runs under its token, with a journal that
can be advanced. -/
def HoldsOpenJournal (db : Registry) (w : AgentWorker) : Prop :=
  ∃ codexSessionId, db.hasRunningOwner w.projectId codexSessionId w.workerToken = true ∧
    ∃ g, db.journal? w.projectId codexSessionId = some g ∧ g.Advances

namespace Registry

theorem updateControls_eq_self {db : Registry} {where_ : SessionControl → Bool}
    {set : SessionControl → SessionControl} {hset : Compatible where_ set}
    (h : db.sessionControls.count where_ = 0) : (db.updateControls where_ set hset).db = db := by
  show { db with sessionControls := db.sessionControls.update where_ set hset } = db
  rw [Table.update_eq_self h]

end Registry

namespace Superseded

variable {db : Registry} {w : AgentWorker}

theorem holdsLease_eq_false (h : Superseded db w) : db.holdsLease w = false := by
  obtain ⟨-, l, hl, hproject, hholder⟩ := h
  refine Table.any_eq_false_iff.mpr fun l' hl' => ?_
  by_contra hheld
  simp only [Bool.not_eq_false, Bool.and_eq_true, beq_iff_eq] at hheld
  have hsame : l' = l := Table.eq_of_conflict hl' hl (by simp [Keyed.conflict, hheld.1, hproject])
  exact hholder (hsame ▸ hheld.2)

theorem knownWorker (h : Superseded db w) : db.knownWorker w.workerToken = true :=
  Table.any_iff.mpr ⟨w, h.1, beq_self_eq_true _⟩

/-- The join of workers and leases finds no row for a superseded token. -/
theorem fencedWorker (h : Superseded db w) (projectId : Int) :
    db.fencedWorker w.workerToken projectId = false := by
  refine Table.any_eq_false_iff.mpr fun v hv => ?_
  by_cases htoken : v.workerToken = w.workerToken
  · have hsame : v = w := Table.eq_of_conflict hv h.1 (by simp [Keyed.conflict, htoken])
    rw [hsame, h.holdsLease_eq_false, Bool.and_false]
  · simp [htoken]

/-! ## The calls that test the lease -/

theorem markSessionRunning (h : Superseded db w) (codexSessionId : String) (childPid : Nat)
    (stdoutPath stderrPath : String) (gitMode : Option AgentGitMode) (now createdAt : String) :
    (db.markSessionRunning w.projectId codexSessionId childPid w.workerToken stdoutPath
      stderrPath gitMode now createdAt).db = db := by
  refine transaction_db (P := fun db' => db' = db) rfl fun a db' hbody => ?_
  obtain ⟨hfence, -⟩ := require_bind_eq_ok.mp hbody
  rw [h.knownWorker, h.fencedWorker] at hfence
  cases hfence

theorem completeSessionStop (h : Superseded db w) (codexSessionId now : String) :
    (db.completeSessionStop w.projectId codexSessionId w.workerToken now).db = db := by
  have hnone : db.sessionControls.count (fun sc => sc.is w.projectId codexSessionId &&
      sc.state = .stopRequested && sqlEq sc.runToken (some w.workerToken) &&
      (!(db.knownWorker w.workerToken) || db.fencedWorker w.workerToken w.projectId)) = 0 := by
    refine Table.count_eq_zero_iff.mpr fun sc _ => ?_
    rw [h.knownWorker, h.fencedWorker, Bool.not_true, Bool.or_false, Bool.and_false]
  exact updateControls_eq_self hnone

theorem clearRunningSessionControl (h : Superseded db w) (codexSessionId : String) :
    (db.clearRunningSessionControl w.projectId codexSessionId (some w.workerToken)).db = db := by
  unfold Registry.clearRunningSessionControl
  rw [if_neg (by simp), if_pos (by simp [h.knownWorker, h.fencedWorker])]

/-- The lease that the hand-off would transfer is not the generation's any more. -/
theorem completeSessionInterruptHandoff (h : Superseded db w)
    (codexSessionId acquiredAt expiresAt now : String) :
    (db.completeSessionInterruptHandoff w.projectId codexSessionId w.workerToken w.leaseHolder
      acquiredAt expiresAt now).db = db := by
  refine transaction_db (P := fun db' => db' = db) rfl fun a db' hbody => ?_
  simp only [fetch_bind_eq_ok, require_bind_eq_ok, decide_eq_true_eq] at hbody
  obtain ⟨_, -, _, -, howned, -⟩ := hbody
  refine absurd (Table.count_eq_zero_iff.mpr fun l hl => ?_) howned
  exact Table.any_eq_false_iff.mp h.holdsLease_eq_false l hl

end Superseded

/-! ## The compare-and-set -/

namespace GitFinalization

/-- A permitted transition leaves an unfinished state, and does not end a commit-only
journal out of a pending push. -/
theorem Admits.advances {g : GitFinalization} {next : GitFinalizationState}
    {taskIdentity commitOid : Option String} (h : g.Admits next taskIdentity commitOid)
    (hcheck : checkTransition g next taskIdentity commitOid = .ok ())
    (hgeneration : g.generation < maxInteger) : g.Advances := by
  refine ⟨?_, ?_, hgeneration⟩
  · have hstep := h.transition
    cases hstate : g.state <;> rw [hstate] at hstep <;> first | rfl | cases hstep
  · rintro ⟨hpush, hmode⟩
    have hstep := h.transition
    rw [hpush] at hstep
    have hnext : next = .pushPending ∨ next = .completed := by
      cases next <;> first | exact .inl rfl | exact .inr rfl | cases hstep
    rcases hnext with rfl | rfl
    · rw [h.push rfl] at hmode
      cases hmode
    · -- A commit-only journal completes out of `commit_pending` only.
      simp only [checkTransition, require_bind_eq_ok, require_eq_ok] at hcheck
      have hlast := hcheck.2.2.2.2.2.2
      rw [hpush, hmode] at hlast
      cases hlast

/-- The state that an unfinished journal can be set to again. -/
def nextState (g : GitFinalization) : GitFinalizationState :=
  if g.state = .pushPending ∧ g.gitMode = .off then .completed else g.state

theorem Advances.checkTransition {g : GitFinalization} (h : g.Advances) :
    checkTransition g g.nextState (some (g.taskIdentity.getD "")) (some (g.commitOid.getD "")) =
      .ok () := by
  have hidentity : sqlNe g.taskIdentity (some (g.taskIdentity.getD "")) = false := by
    cases g.taskIdentity <;> simp [sqlNe]
  have hcommit : sqlNe g.commitOid (some (g.commitOid.getD "")) = false := by
    cases g.commitOid <;> simp [sqlNe]
  obtain ⟨hopen, hpush, -⟩ := h
  unfold Registry.checkTransition nextState
  rw [hidentity, hcommit]
  cases hstate : g.state <;> cases hmode : g.gitMode <;>
    simp_all [GitFinalizationState.isUnfinished] <;> rfl

end GitFinalization

namespace Registry

variable {db : Registry} {w : AgentWorker}

theorem journal?_is {projectId : Int} {codexSessionId : String} {g : GitFinalization}
    (h : db.journal? projectId codexSessionId = some g) :
    g ∈ db.gitFinalizations ∧ g.is projectId codexSessionId = true :=
  ⟨Table.mem_of_find? h, Table.of_find? h⟩

/-- Setting a journal to a state that is no more finalizing than its own breaks no index. -/
theorem exists_advanced {projectId : Int} {codexSessionId : String} {g : GitFinalization}
    (hg : db.journal? projectId codexSessionId = some g) {next : GitFinalizationState}
    (hnext : next.isFinalizing = true → g.state.isFinalizing = true)
    (taskIdentity worktreeBaseline ownerRunToken commitOid lastError : Option String)
    (updatedAt : String) :
    ∃ journals, db.gitFinalizations.update?
      (fun a => a.is projectId codexSessionId && a.generation == g.generation)
      (GitFinalization.advance next taskIdentity worktreeBaseline ownerRunToken commitOid
        lastError updatedAt) = some journals := by
  refine Table.exists_update? (fun a b ha hb => ?_) fun a ha b _ hkey h => ?_
  · simp only [GitFinalization.is, Bool.and_eq_true, beq_iff_eq] at ha hb
    simp [Keyed.conflict, ha, hb]
  · have hsame : a = g := eq_of_journal? hg ha (Bool.and_eq_true_iff.mp hkey).1
    subst hsame
    simp only [Keyed.conflict, GitFinalization.advance, Bool.or_eq_true, Bool.and_eq_true] at h ⊢
    rcases h with h | ⟨⟨hproject, hfinalizing⟩, hb⟩
    · exact .inl h
    · exact .inr ⟨⟨hproject, hnext hfinalizing⟩, hb⟩

/-- An owned compare-and-set writes nothing when its generation holds no open journal. -/
theorem compareAndSetOwned_eq_self (h : ¬ HoldsOpenJournal db w) (codexSessionId : String)
    (expectedGeneration : Int) (nextState : GitFinalizationState)
    (taskIdentity worktreeBaseline commitOid lastError : Option String) (updatedAt : String) :
    (db.compareAndSetGitFinalization w.projectId codexSessionId expectedGeneration nextState
      taskIdentity worktreeBaseline true (some w.workerToken) commitOid lastError
      updatedAt).db = db := by
  refine transaction_db (P := fun db' => db' = db) rfl fun a db' hbody => ?_
  simp only [fetch_bind_eq_ok, attempt_bind_eq_ok, require_bind_eq_ok] at hbody
  obtain ⟨g, hg, current, hread, hgeneration, hbody⟩ := hbody
  obtain ⟨-, rfl⟩ := GitFinalization.recordFromRow_eq_ok.mp hread
  obtain ⟨_, howner, hbody⟩ := step_bind_eq_ok.mp hbody
  obtain ⟨_, hcheck, hbody⟩ := step_bind_eq_ok.mp hbody
  simp only [fetch_bind_eq_ok, require_bind_eq_ok, decide_eq_true_eq] at hbody
  obtain ⟨-, -, hlt, -⟩ := hbody
  rw [← eq_of_beq hgeneration] at hlt
  rw [checkRunningOwner, if_pos rfl, fetch_bind_eq_ok] at howner
  obtain ⟨_, ⟨⟩, howner⟩ := howner
  have hadvances : g.Advances := (GitFinalization.admits_of_checkTransition hcheck).advances hcheck hlt
  exact absurd ⟨codexSessionId, require_eq_ok.mp howner, g, hg, hadvances⟩ h

/-- With an open journal, the generation's own compare-and-set advances it. -/
theorem compareAndSetOwned_ne_self {codexSessionId : String} {g : GitFinalization}
    (howner : db.hasRunningOwner w.projectId codexSessionId w.workerToken = true)
    (hg : db.journal? w.projectId codexSessionId = some g) (hadvances : g.Advances)
    (updatedAt : String) :
    (db.compareAndSetGitFinalization w.projectId codexSessionId g.generation g.nextState
      (some (g.taskIdentity.getD "")) none true (some w.workerToken)
      (some (g.commitOid.getD "")) none updatedAt).db ≠ db := by
  have hread : g.recordFromRow = .ok g :=
    GitFinalization.recordFromRow_eq_ok.mpr ⟨le_of_lt hadvances.2.2, rfl⟩
  have hrunning : db.checkRunningOwner w.projectId codexSessionId true (some w.workerToken) =
      .ok () := by
    simp [checkRunningOwner, howner, fetch, require, bind, Except.bind]
  have hnext : g.nextState.isFinalizing = true → g.state.isFinalizing = true := by
    unfold GitFinalization.nextState
    split
    · rintro ⟨⟩
    · exact id
  obtain ⟨journals, hupdate⟩ := exists_advanced hg hnext (some (g.taskIdentity.getD "")) none
    (some w.workerToken) (some (g.commitOid.getD "")) none updatedAt
  -- The journal that is stored afterwards has the next generation.
  have hjournals : (db.compareAndSetGitFinalization w.projectId codexSessionId g.generation
      g.nextState (some (g.taskIdentity.getD "")) none true (some w.workerToken)
      (some (g.commitOid.getD "")) none updatedAt).db.gitFinalizations = journals := by
    unfold compareAndSetGitFinalization
    rw [hg, hupdate]
    simp [fetch, attempt, require, hread, hrunning, hadvances.checkTransition, hadvances.2.2,
      bind, Except.bind, pure, Except.pure, transaction]
  intro hsame
  rw [hsame] at hjournals
  obtain ⟨hmem, hkey⟩ := journal?_is hg
  have hadvanced := (Table.mem_update? hupdate).mpr ⟨g, hmem, rfl⟩
  rw [Table.rewrite, if_pos (by simp [hkey]), ← hjournals] at hadvanced
  have hstale := eq_of_journal? hg hadvanced hkey
  have hgeneration : g.generation + 1 = g.generation := congrArg GitFinalization.generation hstale
  omega

end Registry

/-- What a superseded generation can still do: in every registry that a run reaches, its
session operations all leave the registry as it is exactly when none of its project's
sessions still runs under its token with a journal that can be advanced. -/
theorem stale_generation (db : Registry) (ops : List RegistryOp) (w : AgentWorker)
    (h : Superseded (runOps ops db) w) :
    (∀ op : SessionOperation, op.issue w (runOps ops db) = runOps ops db) ↔
      ¬ HoldsOpenJournal (runOps ops db) w := by
  constructor
  · rintro hall ⟨codexSessionId, howner, g, hg, hadvances⟩
    exact compareAndSetOwned_ne_self howner hg hadvances "" (hall (.compareAndSetOwned
      codexSessionId g.generation g.nextState (some (g.taskIdentity.getD "")) none
      (some (g.commitOid.getD "")) none ""))
  · intro hclosed op
    cases op with
    | markSessionRunning => exact h.markSessionRunning _ _ _ _ _ _ _
    | completeSessionStop => exact h.completeSessionStop _ _
    | clearRunningSessionControl => exact h.clearRunningSessionControl _
    | completeSessionInterruptHandoff => exact h.completeSessionInterruptHandoff _ _ _ _
    | compareAndSetOwned => exact compareAndSetOwned_eq_self hclosed _ _ _ _ _ _ _ _

/-- A worker that registers a session with a journal and is then declared abandoned, and the
scheduler that takes the project's lease next. -/
def abandonedRun : List RegistryOp :=
  [.tryAcquireLease 1 "scheduler" "10" "20",
    .reserveWorker
      { projectId := 1, workerToken := "w", expectedLeaseHolder := "scheduler",
        maxActiveWorkers := 1, protocolVersion := 1, serviceLabel := "label",
        binaryPath := "/clt", commandArguments := "", pathEnv := "", codexPath := none,
        taskSelection := "next", resumeSessionId := none, createdAt := "11" } none,
    .claimWorker "w" 7 "12",
    .recordGitLaunchState 1 "w" .commit
      { startingHead := "head", branchRef := none, upstreamRef := none,
        worktreeBaseline := "base" } "12",
    .markSessionRunning 1 "u" 8 "w" "out" "err" (some .commit) "13" "13",
    .abandonWorker
      { workerToken := "w", expectedState := .running, expectedWorkerPid := some 7,
        expectedHeartbeatAt := some "12", finishedAt := "14", error := "gone",
        permittedSuccessorHolder := none },
    .tryAcquireLease 1 "next-scheduler" "15" "25"]

/-- The abandoned worker's row. -/
def abandonedWorker : AgentWorker where
  workerToken := "w"
  projectId := 1
  state := .abandoned
  protocolVersion := 1
  leaseHolder := workerLeaseHolder "w"
  serviceLabel := "label"
  binaryPath := "/clt"
  commandArguments := ""
  pathEnv := ""
  codexPath := none
  taskSelection := "next"
  resumeSessionId := none
  workerPid := some 7
  createdAt := "11"
  startedAt := some "12"
  heartbeatAt := some "12"
  finishedAt := some "14"
  runId := some 1
  error := some "gone"
  serviceCleanedAt := none

theorem abandonedWorker_superseded : Superseded (runOps abandonedRun managedRegistry) abandonedWorker :=
  ⟨by decide, ⟨1, "next-scheduler", "15", "25"⟩, by decide, rfl, by decide⟩

/-- The abandoned worker still cancels the journal of its session. -/
theorem journal_cancelled_by_abandonedWorker :
    Superseded (runOps abandonedRun managedRegistry) abandonedWorker ∧
    ((SessionOperation.compareAndSetOwned "u" 0 .cancelled none none none none "16").issue
      abandonedWorker (runOps abandonedRun managedRegistry)).gitFinalizations.rows.map
        GitFinalization.state = [.cancelled] ∧
    (runOps abandonedRun managedRegistry).gitFinalizations.rows.map GitFinalization.state =
      [.working] :=
  ⟨abandonedWorker_superseded, by decide, by decide⟩

/-- The same worker, when it has not registered its session. -/
theorem stale_generation_unregistered :
    let s := runOps (abandonedRun.eraseIdx 4) managedRegistry
    ∀ op : SessionOperation, op.issue abandonedWorker s = s :=
  (stale_generation managedRegistry (abandonedRun.eraseIdx 4) abandonedWorker
    ⟨by decide, ⟨1, "next-scheduler", "15", "25"⟩, by decide, rfl, by decide⟩).mpr (by
      rintro ⟨codexSessionId, -, g, hg, -⟩
      exact absurd (Table.mem_of_find? hg) (by
        have hnone : (runOps (abandonedRun.eraseIdx 4) managedRegistry).gitFinalizations.rows = [] := by
          decide
        rw [Table.mem_def, hnone]
        exact List.not_mem_nil))

end Clt
