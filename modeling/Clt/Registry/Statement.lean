import Clt.Registry.Schema

/-!
# Transactions over the registry

A repository call runs its statements inside one exclusive transaction, so it is
modelled as a function of the registry it starts from. It may leave early, with
an error (`bail!`, `ensure!`, a failed statement) or with a result
(`return Ok(false)`), and then the transaction is dropped: `transaction` puts the
registry it started from back. `require` and `fetch` are the two ways out, and
`require_bind_eq_ok`, `fetch_bind_eq_ok` read a committed call back as the list of
conditions it passed.
-/

namespace Clt

open Relational

/-- What one call leaves behind: its `Result`, and the registry. -/
structure Outcome (α : Type) where
  result : Except String α
  db : Registry

/-- The statements of a transaction: an early exit with the call's result, or a
value to go on with. -/
abbrev Step (α β : Type) : Type := Except (Except String α) β

section Exits

variable {α β γ : Type}

/-- Go on when `c` holds; otherwise leave with `result`. -/
def require (c : Bool) (result : Except String α) : Step α Unit :=
  if c then .ok () else .error result

/-- Go on with the value read; leave with `result` when there is none. -/
def fetch (o : Option β) (result : Except String α) : Step α β :=
  match o with
  | some b => .ok b
  | none => .error result

/-- Go on with the value computed; leave with its error. -/
def attempt (e : Except String β) : Step α β :=
  match e with
  | .ok b => .ok b
  | .error message => .error (.error message)

theorem step_bind_eq_ok {x : Step α β} {f : β → Step α γ} {r : γ} :
    (x >>= f) = .ok r ↔ ∃ b, x = .ok b ∧ f b = .ok r := by
  cases x <;> simp [bind, Except.bind]

@[simp] theorem require_bind_eq_ok {c : Bool} {e : Except String α} {f : Unit → Step α γ} {r : γ} :
    (require c e >>= f) = .ok r ↔ c = true ∧ f () = .ok r := by
  cases c <;> simp [require, bind, Except.bind]

@[simp] theorem fetch_bind_eq_ok {o : Option β} {e : Except String α} {f : β → Step α γ} {r : γ} :
    (fetch o e >>= f) = .ok r ↔ ∃ b, o = some b ∧ f b = .ok r := by
  cases o <;> simp [fetch, bind, Except.bind]

@[simp] theorem attempt_bind_eq_ok {e : Except String β} {f : β → Step α γ} {r : γ} :
    (attempt e >>= f) = .ok r ↔ ∃ b, e = .ok b ∧ f b = .ok r := by
  cases e <;> simp [attempt, bind, Except.bind]

@[simp] theorem require_eq_ok {c : Bool} {e : Except String α} {u : Unit} :
    require c e = .ok u ↔ c = true := by
  cases c <;> simp [require]

@[simp] theorem fetch_eq_ok {o : Option β} {e : Except String α} {b : β} :
    fetch o e = .ok b ↔ o = some b := by
  cases o <;> simp [fetch]

/-- Every early exit of the steps has a result that meets `P`. -/
def Leaves (P : Except String α → Prop) (x : Step α β) : Prop := ∀ r, x = .error r → P r

variable {P : Except String α → Prop}

theorem leaves_ok (b : β) : Leaves P (.ok b : Step α β) := fun _ h => nomatch h

theorem leaves_require {c : Bool} {e : Except String α} (h : P e) : Leaves P (require c e) := by
  intro r hr
  cases c <;> cases hr
  exact h

theorem leaves_fetch {o : Option β} {e : Except String α} (h : P e) : Leaves P (fetch o e) := by
  intro r hr
  cases o <;> cases hr
  exact h

theorem leaves_attempt {e : Except String β} (h : ∀ message, P (.error message)) :
    Leaves P (attempt e) := by
  intro r hr
  cases e <;> cases hr
  exact h _

theorem leaves_bind {x : Step α β} {f : β → Step α γ} (hx : Leaves P x)
    (hf : ∀ b, Leaves P (f b)) : Leaves P (x >>= f) := by
  intro r hr
  cases x with
  | error e =>
    cases hr
    exact hx _ rfl
  | ok b => exact hf b r hr

end Exits

/-! ## Run outcomes -/

/-- `AgentRunOutcome`. -/
structure AgentRunOutcome where
  projectId : Int
  status : String
  startedAt : String
  finishedAt : Option String
  exitCode : Option Int
  logDir : Option String
  stdoutPath : Option String
  stderrPath : Option String
  summary : Option String
  codexSessionId : Option String

/-- The `runs` row that records an outcome. -/
def AgentRunOutcome.toRun (outcome : AgentRunOutcome) (id : Int) (workerToken : Option String) :
    Run where
  id := id
  projectId := outcome.projectId
  status := outcome.status
  startedAt := outcome.startedAt
  finishedAt := outcome.finishedAt
  exitCode := outcome.exitCode
  logDir := outcome.logDir
  stdoutPath := outcome.stdoutPath
  stderrPath := outcome.stderrPath
  summary := outcome.summary
  codexSessionId := outcome.codexSessionId
  workerToken := workerToken

/-- The project columns that `update_project_after_run` writes for an outcome. -/
def Project.afterRun (outcome : AgentRunOutcome) (p : Project) : Project :=
  let finishedAt := outcome.finishedAt.getD outcome.startedAt
  if outcome.status = "success" ∨ outcome.status = "idle" then
    { p with
      lastRunAt := some finishedAt, lastSuccessAt := some finishedAt, lastFailureAt := none,
      lastBlockedRecoveryAt := none, failureCount := 0, updatedAt := finishedAt }
  else if outcome.status = "blocked" then
    { p with
      lastRunAt := some finishedAt, lastBlockedRecoveryAt := some finishedAt,
      updatedAt := finishedAt }
  else if outcome.status = "failure" ∨ outcome.status = "timeout" then
    { p with
      lastRunAt := some finishedAt, lastFailureAt := some finishedAt,
      failureCount := p.failureCount + 1, updatedAt := finishedAt }
  else
    { p with lastRunAt := some finishedAt, updatedAt := finishedAt }

theorem Project.afterRun_compatible (outcome : AgentRunOutcome) (q : Project → Bool) :
    Compatible q (Project.afterRun outcome) := by
  intro a b _ h
  have hid : (Project.afterRun outcome a).id = a.id ∧ (Project.afterRun outcome a).path = a.path := by
    unfold Project.afterRun
    simp only
    split_ifs <;> exact ⟨rfl, rfl⟩
  simpa only [Keyed.conflict, hid.1, hid.2] using h

namespace Registry

variable {α : Type}

/-- Run a transaction: commit what it leaves, or drop it. -/
def transaction (db : Registry) (body : Step α (α × Registry)) : Outcome α :=
  match body with
  | .ok (a, db') => ⟨.ok a, db'⟩
  | .error result => ⟨result, db⟩

/-- A transaction either leaves the registry as it was, or its body ran to the end. -/
theorem transaction_cases (db : Registry) (body : Step α (α × Registry)) :
    (db.transaction body).db = db ∨
    ∃ a db', body = .ok (a, db') ∧ db.transaction body = ⟨.ok a, db'⟩ := by
  cases body with
  | error result => exact .inl rfl
  | ok p => exact .inr ⟨p.1, p.2, rfl, rfl⟩

/-- What holds of the registry a transaction starts from and of every registry its
body can leave holds of the registry after it. -/
theorem transaction_db {P : Registry → Prop} {db : Registry} {body : Step α (α × Registry)}
    (h0 : P db) (h : ∀ a db', body = .ok (a, db') → P db') : P (db.transaction body).db := by
  rcases db.transaction_cases body with he | ⟨a, db', hb, he⟩
  · rw [he]
    exact h0
  · rw [he]
    exact h a db' hb

/-- A call succeeds past a condition that it would otherwise be refused for. -/
theorem succeeds_require {db : Registry} {c : Bool} {f : Unit → Step Bool (Bool × Registry)} :
    (db.transaction (require c (.ok false) >>= f)).result = .ok true ↔
      c = true ∧ (db.transaction (f ())).result = .ok true := by
  cases c with
  | false => exact ⟨nofun, nofun⟩
  | true => exact ⟨fun h => ⟨rfl, h⟩, And.right⟩

/-- A call succeeds past a read that it would otherwise fail for. -/
theorem succeeds_fetch {β : Type} {db : Registry} {o : Option β} {message : String}
    {f : β → Step α (α × Registry)} {a : α} :
    (db.transaction (fetch o (.error message) >>= f)).result = .ok a ↔
      ∃ b, o = some b ∧ (db.transaction (f b)).result = .ok a := by
  cases o with
  | none => exact ⟨nofun, nofun⟩
  | some b =>
    constructor
    · intro h
      exact ⟨b, rfl, h⟩
    · rintro ⟨_, ⟨⟩, h⟩
      exact h

/-- What every registry that the body can leave with the result `a` has, the registry
after a transaction with that result has, when no early exit returns it. -/
theorem transaction_of_result {P : Registry → Prop} {db : Registry}
    {body : Step α (α × Registry)} {a : α} (hresult : (db.transaction body).result = .ok a)
    (hleaves : Leaves (· ≠ .ok a) body) (h : ∀ db', body = .ok (a, db') → P db') :
    P (db.transaction body).db := by
  cases body with
  | error r => exact absurd hresult (hleaves r rfl)
  | ok p =>
    cases hresult
    exact h p.2 rfl

/-! ## Reads that several calls share -/

/-- The registered project. -/
def hasProject (db : Registry) (projectId : Int) : Bool :=
  db.projects.any fun p => p.id == projectId

/-- `EXISTS (SELECT 1 FROM agent_workers WHERE project_id = ? AND state IN (...active...))`. -/
def hasActiveWorker (db : Registry) (projectId : Int) : Bool :=
  db.agentWorkers.any (AgentWorker.activeIn projectId)

/-- `EXISTS (SELECT 1 FROM agent_git_launch_states WHERE project_id = ?)`. -/
def hasGitLaunchState (db : Registry) (projectId : Int) : Bool :=
  db.gitLaunchStates.any fun l => l.projectId == projectId

/-- A lease of the project that is unexpired as a number. -/
def hasUnexpiredLease (db : Registry) (projectId : Int) (now : String) : Bool :=
  db.leases.any fun l => l.projectId == projectId && castInteger now < castInteger l.expiresAt

/-- The project's lease. -/
def lease? (db : Registry) (projectId : Int) : Option Lease :=
  db.leases.find? (Lease.of projectId)

/-- The session's control. -/
def control? (db : Registry) (projectId : Int) (codexSessionId : String) :
    Option SessionControl :=
  db.sessionControls.find? (SessionControl.is projectId codexSessionId)

/-- The session's journal. -/
def journal? (db : Registry) (projectId : Int) (codexSessionId : String) :
    Option GitFinalization :=
  db.gitFinalizations.find? (GitFinalization.is projectId codexSessionId)

/-- The worker of one generation. -/
def worker? (db : Registry) (workerToken : String) : Option AgentWorker :=
  db.agentWorkers.find? fun w => w.workerToken == workerToken

/-- The project's lease is held by the worker's own holder. -/
def holdsLease (db : Registry) (w : AgentWorker) : Bool :=
  db.leases.any fun l => l.projectId == w.projectId && l.holder == w.leaseHolder

/-- `known_worker`: the token names a worker row. -/
def knownWorker (db : Registry) (workerToken : String) : Bool :=
  db.agentWorkers.any fun w => w.workerToken == workerToken

/-- `fenced_worker`: the token names an active worker that holds its project's lease. -/
def fencedWorker (db : Registry) (workerToken : String) (projectId : Int) : Bool :=
  db.agentWorkers.any fun w =>
    w.workerToken == workerToken && w.activeIn projectId && db.holdsLease w

/-! ## Statements that several calls share -/

/-- `INSERT OR IGNORE` into a table whose `project_id` references `projects`: a
conflicting row is skipped, a fresh one needs its project. -/
def insertOrIgnoreInto {ρ : Type} [Keyed ρ] (db : Registry) (projectId : Int) (t : Table ρ)
    (r : ρ) : Option (Table ρ × Nat) :=
  if t.any (fun a => Keyed.conflict a r) then some (t, 0)
  else if db.hasProject projectId then some (t.insertOrIgnore r) else none

/-- `INSERT` into such a table. -/
def insertInto {ρ : Type} [Keyed ρ] (db : Registry) (projectId : Int) (t : Table ρ) (r : ρ) :
    Option (Table ρ) :=
  if db.hasProject projectId then t.insert? r else none

theorem insertOrIgnoreInto_eq_some {ρ : Type} [Keyed ρ] {db : Registry} {projectId : Int}
    {t : Table ρ} {r : ρ} {res : Table ρ × Nat}
    (h : db.insertOrIgnoreInto projectId t r = some res) : res = t.insertOrIgnore r := by
  unfold insertOrIgnoreInto at h
  split at h
  · rename_i hc
    cases h
    obtain ⟨-, he⟩ | ⟨hn, -⟩ := Table.insertOrIgnore_cases t r
    · exact he.symm
    · rw [hc] at hn
      cases hn
  · split at h
    · exact (Option.some.inj h).symm
    · cases h

theorem insertInto_eq_some {ρ : Type} [Keyed ρ] {db : Registry} {projectId : Int}
    {t t' : Table ρ} {r : ρ} (h : db.insertInto projectId t r = some t') :
    t.insert? r = some t' := by
  unfold insertInto at h
  split at h
  · exact h
  · cases h

/-- One `UPDATE session_controls`, reporting whether it changed a row. -/
def updateControls (db : Registry) (where_ : SessionControl → Bool)
    (set : SessionControl → SessionControl)
    (h : Compatible where_ set := by exact fun _ _ _ h => h) : Outcome Bool :=
  ⟨.ok (0 < db.sessionControls.count where_),
    { db with sessionControls := db.sessionControls.update where_ set h }⟩

/-- One `DELETE FROM session_controls`, reporting whether it removed a row. -/
def deleteControls (db : Registry) (where_ : SessionControl → Bool) : Outcome Bool :=
  ⟨.ok (0 < db.sessionControls.count where_),
    { db with sessionControls := db.sessionControls.delete where_ }⟩

/-- One `INSERT INTO session_controls ... ON CONFLICT DO NOTHING` guarded by a
condition, reporting whether it inserted a row. -/
def insertControl (db : Registry) (where_ : Bool) (sc : SessionControl) (context : String) :
    Outcome Bool :=
  db.transaction do
    require where_ (.ok false)
    let (controls, inserted) ←
      fetch (db.insertOrIgnoreInto sc.projectId db.sessionControls sc) (.error context)
    return (decide (0 < inserted), { db with sessionControls := controls })

/-! ## Runs and project statistics -/

/-- The row id that an insert into `runs` takes. -/
def nextRunId (db : Registry) : Int :=
  match (db.runs.rows.map Run.id).max? with
  | some id => id + 1
  | none => 1

/-- `update_project_after_run`. -/
def updateProjectAfterRun (db : Registry) (outcome : AgentRunOutcome) : Registry :=
  { db with
    projects := db.projects.update (fun p => p.id == outcome.projectId)
      (Project.afterRun outcome) (Project.afterRun_compatible outcome _) }

/-- `INSERT OR IGNORE INTO runs`: the registry after it and the number of rows
inserted. -/
def insertOrIgnoreRun (db : Registry) (outcome : AgentRunOutcome) (workerToken : Option String) :
    Option (Registry × Nat) :=
  match db.insertOrIgnoreInto outcome.projectId db.runs
      (outcome.toRun db.nextRunId workerToken) with
  | some (runs, inserted) => some ({ db with runs := runs }, inserted)
  | none => none

end Registry

end Clt
