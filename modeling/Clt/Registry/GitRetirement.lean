import Clt.Registry.GitJournals

/-!
# Retiring and acknowledging Git journals

The operations of `agent/repositories/git_journals.rs` that end a journal without
the compare-and-set: explicit recovery, the retirement of orphaned, abandoned and
superseded attempts, the cancellation behind a user's deletion or external
completion, and the acknowledgement of a completed journal. Each restates in its
own `WHERE` clause when the work it ends can have no live owner.
-/

namespace Clt

open Relational

namespace Registry

/-! ## Shared reads -/

/-- The session's journal as a record. -/
def readJournal (db : Registry) (projectId : Int) (codexSessionId : String) :
    Except String (Option GitFinalization) :=
  match db.journal? projectId codexSessionId with
  | some row => row.recordFromRow.map some
  | none => .ok none

/-- The row that a lookup by key finds is the only one with that key. -/
theorem eq_of_journal? {db : Registry} {projectId : Int} {codexSessionId : String} {e g : GitFinalization}
    (h : db.journal? projectId codexSessionId = some e) (hg : g ∈ db.gitFinalizations)
    (hkey : g.is projectId codexSessionId = true) : g = e := by
  have hfound : db.journal? projectId codexSessionId = some g :=
    Table.find?_eq_some (fun a b ha hb => by
      simp only [GitFinalization.is, Bool.and_eq_true, beq_iff_eq] at ha hb
      simp [Keyed.conflict, ha, hb]) hg hkey
  rw [h] at hfound
  exact (Option.some.inj hfound).symm

theorem of_readJournal {db : Registry} {projectId : Int} {codexSessionId : String} {e : GitFinalization}
    (h : db.readJournal projectId codexSessionId = .ok (some e)) :
    db.journal? projectId codexSessionId = some e := by
  unfold readJournal at h
  split at h
  · rename_i row hrow
    unfold GitFinalization.recordFromRow at h
    split at h
    · cases h
      exact hrow
    · cases h
  · cases h

/-- `SELECT MAX(id) FROM runs WHERE ...`. -/
def maxRunId (db : Registry) (where_ : Run → Bool) : Option Int :=
  ((db.runs.rows.filter where_).map Run.id).max?

/-- `SELECT MAX(id) FROM runs WHERE project_id = ? AND codex_session_id = ?`. -/
def maxSessionRunId (db : Registry) (projectId : Int) (codexSessionId : String) : Option Int :=
  db.maxRunId fun r => r.projectId == projectId && sqlEq r.codexSessionId (some codexSessionId)

/-- `SELECT id FROM runs WHERE project_id = ? AND worker_token = ?`. -/
def runIdOfToken (db : Registry) (projectId : Int) (workerToken : Option String) : Option Int :=
  (db.runs.find? fun r => r.projectId == projectId && sqlEq r.workerToken workerToken).map Run.id

/-- A control of the project that is not parked, or that records an owner. -/
def hasBusyControl (db : Registry) (projectId : Int) : Bool :=
  db.sessionControls.any fun sc => sc.projectId == projectId && (!sc.isParked || !sc.isIdle)

/-- The projects whose cooldown belongs to the cancelled attempt: the
`clear_cancelled_attempt_failure` condition. -/
def cooledDownBy (db : Registry) (projectId : Int) (session : String) (p : Project) : Bool :=
  p.id == projectId &&
  db.runs.any fun r =>
    sqlEq (some r.id) (db.maxRunId fun r => r.projectId == projectId) &&
    r.status == "failure" && sqlEq r.finishedAt p.lastFailureAt &&
    (sqlEq r.codexSessionId (some session) ||
      db.agentWorkers.any fun w =>
        sqlEq w.runId (some r.id) &&
        db.gitFinalizations.any fun g =>
          g.projectId == w.projectId && sqlEq g.ownerRunToken (some w.workerToken) &&
            g.is projectId session)

/-- `clear_cancelled_attempt_failure`. -/
def clearCancelledAttemptFailure (projectId : Int) (session updatedAt : String)
    (db : Registry) : Registry :=
  { db with
    projects := db.projects.update (db.cooledDownBy projectId session) fun p =>
      { p with
        failureCount := 0, lastFailureAt := none, lastBlockedRecoveryAt := none,
        updatedAt := updatedAt } }

/-! ## Explicit recovery -/

/-- The arguments of `begin_missing_git_recovery_blocking`. -/
structure MissingGitRecovery where
  projectId : Int
  projectPath : String
  sessionId : String
  expectedRunId : Int
  expectedJournal : Option GitFinalization
  requireResumeRequested : Bool
  restart : Bool
  staleStart : Bool
  writerConflict : Option (Int × String)
  holder : String
  acquiredAt : String
  expiresAt : String

namespace MissingGitRecovery

/-- The owner token of the journal that the caller reviewed. -/
def ownerRunToken (q : MissingGitRecovery) : Option String :=
  q.expectedJournal.bind GitFinalization.ownerRunToken

/-- The run that must still be the latest one. -/
def latestRunId (q : MissingGitRecovery) (db : Registry) : Option Int :=
  let ofSession := db.maxSessionRunId q.projectId q.sessionId
  let ofToken := db.runIdOfToken q.projectId q.ownerRunToken
  if q.restart && (q.requireResumeRequested || q.staleStart) then
    some (max (ofToken.getD 0) (ofSession.getD 0))
  else if q.restart then ofSession.or ofToken
  else db.maxRunId fun r => r.projectId == q.projectId

/-- The reviewed run is still the latest. -/
def latestRunUnchanged (q : MissingGitRecovery) (db : Registry) : Bool :=
  db.runs.count (fun r =>
    r.id == q.expectedRunId && r.projectId == q.projectId &&
    (q.restart || r.status == "failure" || r.status == "timeout") &&
    (db.projects.any fun p => p.id == q.projectId && p.path == q.projectPath) &&
    sqlEq (some r.id) (q.latestRunId db)) = 1

/-- The states in which the reviewed journal may be retired. -/
def journalRetirable (q : MissingGitRecovery) (expected : GitFinalization) : Bool :=
  expected.commitOid.isNone &&
  if q.restart then expected.state = .working || expected.state = .cancelled
  else expected.state = .working || expected.state = .tracking ||
    expected.state = .commitPending ||
    (expected.state = .cancelled && expected.lastError == some agentBranchGitRecoveryReason)

/-- The reviewed journal is still the stored one, and may be retired. -/
def checkJournal (q : MissingGitRecovery) (db : Registry) : Step Unit Unit :=
  match q.expectedJournal with
  | none => .ok ()
  | some expected => do
    let current ← attempt (db.readJournal q.projectId q.sessionId)
    require (current == some expected && q.journalRetirable expected)
      (.error ("The Git recovery record changed or has a verified commit; " ++
        "review recovery again"))

/-- A working journal of another control's session, which a restart tolerates. -/
def toleratesControl (q : MissingGitRecovery) (db : Registry) (sc : SessionControl) : Bool :=
  sc.state = .resumeRequested &&
    (sc.codexSessionId == q.sessionId ||
      (q.restart && db.gitFinalizations.any fun g =>
        g.is q.projectId sc.codexSessionId && g.state = .working))

/-- Something in the project is unfinished or alive. -/
def projectBusy (q : MissingGitRecovery) (db : Registry) : Bool :=
  (db.gitFinalizations.any fun g =>
    g.projectId == q.projectId &&
    (g.codexSessionId == q.sessionId || !(g.state = .completed || g.state = .cancelled)) &&
    !(q.expectedJournal.isSome && g.codexSessionId == q.sessionId) &&
    !(q.restart && g.codexSessionId != q.sessionId && g.state = .working)) ||
  db.hasGitLaunchState q.projectId ||
  db.hasActiveWorker q.projectId ||
  (db.leases.any (Lease.of q.projectId)) ||
  (db.sessionControls.any fun sc =>
    sc.projectId == q.projectId &&
    (!sc.isIdle || (sc.state != .stopped && !(q.toleratesControl db sc))))

/-- Both runs of a persistent writer conflict are still there, with its idle owner. -/
def writerConflictUnchanged (q : MissingGitRecovery) (previousRunId : Int) (token : String)
    (db : Registry) : Bool :=
  db.runs.count (fun r =>
    r.projectId == q.projectId && sqlEq r.codexSessionId (some q.sessionId) &&
    (r.id == q.expectedRunId || r.id == previousRunId) && r.status == "failure" &&
    r.finishedAt.isSome && sqlNe r.exitCode (some 0) &&
    (r.workerToken.isNone || db.agentWorkers.any fun w =>
      sqlEq (some w.workerToken) r.workerToken && w.projectId == q.projectId &&
        w.state = .completed && sqlEq w.runId (some r.id)) &&
    sqlEq (some previousRunId) (db.maxRunId fun r =>
      r.projectId == q.projectId && sqlEq r.codexSessionId (some q.sessionId) &&
        r.id < q.expectedRunId) &&
    (db.projects.any fun p => p.id == q.projectId && p.enabled) &&
    (db.sessionControls.any fun sc =>
      sc.is q.projectId q.sessionId && sc.state = .resumeRequested &&
        sqlEq sc.runToken (some token)) &&
    (r.id != q.expectedRunId || r.workerToken.isNone || sqlEq r.workerToken (some token) ||
      q.expectedJournal.any fun journal => token == recoveryToken journal.generation) &&
    (q.expectedJournal.isSome || db.sessionGitModes.any fun m =>
      m.is q.projectId q.sessionId && m.gitMode = .off)) = 2

/-- The writer-conflict branch. -/
def checkWriterConflict (q : MissingGitRecovery) (db : Registry) : Step Unit Unit :=
  match q.writerConflict with
  | none => .ok ()
  | some (previousRunId, token) => do
    require (q.restart && !q.requireResumeRequested && !q.staleStart &&
        q.expectedJournal.all fun journal => journal.state = .working)
      (.error "Writer conflict recovery requires unsealed work")
    require (q.writerConflictUnchanged previousRunId token db)
      (.error "The writer conflict evidence or idle owner changed; preserving its attempt")

/-- The run of a stale activation is still the one reviewed, and its session idle. -/
def staleOwnerUnchanged (q : MissingGitRecovery) (owner : Option String) (db : Registry) : Bool :=
  db.runs.count (fun r =>
    r.id == q.expectedRunId && r.projectId == q.projectId &&
    (sqlEq r.codexSessionId (some q.sessionId) ||
      (r.codexSessionId.isNone && sqlEq r.workerToken owner)) &&
    (r.status == "failure" || r.status == "blocked" || r.status == "timeout") &&
    r.finishedAt.isSome &&
    (sqlEq r.workerToken owner ||
      (r.workerToken.isNone && sqlEq r.codexSessionId (some q.sessionId))) &&
    !(db.agentWorkers.any fun w =>
      sqlEq (some w.workerToken) r.workerToken &&
        (w.state != .completed || w.runId.isNone || sqlNe w.runId (some r.id))) &&
    !(db.sessionControls.any fun sc =>
      sc.is q.projectId q.sessionId &&
        (sc.state != .resumeRequested || sc.runToken.isNone || owner.isNone ||
          sqlNe sc.runToken owner)) &&
    (db.projects.any fun p => p.id == q.projectId && p.enabled)) = 1

/-- The stale-start branch. -/
def checkStaleStart (q : MissingGitRecovery) (db : Registry) : Step Unit Unit :=
  if q.staleStart then do
    let expected ← fetch q.expectedJournal
      (.error "Stale activation recovery needs its old journal")
    require (q.restart && !q.requireResumeRequested && expected.state = .working &&
        expected.taskIdentity.isNone && expected.startingHead.isSome)
      (.error "Stale activation recovery requires an unbound attempt")
    require (q.staleOwnerUnchanged expected.ownerRunToken db)
      (.error "The stale activation owner changed or stopped; preserving its attempt")
  else .ok ()

/-- The failed activation's control, run and worker are still the ones reviewed. -/
def activationOwnerUnchanged (q : MissingGitRecovery) (owner : Option String) (db : Registry) :
    Bool :=
  (db.sessionControls.rows.filter fun sc =>
      sc.is q.projectId q.sessionId && sqlEq sc.runToken owner).length *
    db.runs.count (fun r =>
      r.projectId == q.projectId && r.id == q.expectedRunId && r.status == "failure" &&
      r.finishedAt.isSome &&
      (r.codexSessionId.isNone || sqlEq r.codexSessionId (some q.sessionId)) &&
      ((sqlEq r.workerToken owner && db.agentWorkers.any fun w =>
          sqlEq (some w.workerToken) owner && w.projectId == q.projectId &&
            w.state = .completed && sqlEq w.runId (some r.id)) ||
        (r.workerToken.isNone && sqlEq r.codexSessionId (some q.sessionId))) &&
      (db.projects.any fun p => p.id == q.projectId && p.enabled)) = 1

/-- The automatic-activation branch. -/
def checkActivation (q : MissingGitRecovery) (db : Registry) : Step Unit Unit :=
  if q.restart && q.requireResumeRequested then do
    let expected ← fetch q.expectedJournal
      (.error "Automatic activation recovery needs its old journal")
    require (expected.state = .working && expected.taskIdentity.isNone &&
        expected.ownerRunToken.isSome)
      (.error "Automatic activation recovery requires an unbound attempt")
    require (q.activationOwnerUnchanged expected.ownerRunToken db)
      (.error "The failed activation owner changed; preserving its attempt")
  else .ok ()

/-- The reason the retired journal keeps. -/
def reason (q : MissingGitRecovery) : String :=
  if q.writerConflict.isSome then
    "Automatically restarted persistent Codex writer conflict; old Git boundary preserved"
  else if q.staleStart || (q.restart && q.requireResumeRequested) then
    "Automatically restarted failed task activation; old Git boundary preserved"
  else if q.restart then
    "Owner explicitly restarted the unfinished task; old Git boundary preserved"
  else agentBranchGitRecoveryReason

/-- The reviewed journal is cancelled, unless a restart finds it cancelled already. -/
def retiresJournal (q : MissingGitRecovery) : Bool :=
  q.expectedJournal.any fun journal => !q.restart || journal.state != .cancelled

end MissingGitRecovery

/-- `begin_missing_git_recovery_blocking`. -/
def beginMissingGitRecovery (q : MissingGitRecovery) (db : Registry) : Outcome Unit :=
  db.transaction do
    require (q.latestRunUnchanged db) (.error "The latest run changed; review recovery again")
    q.checkJournal db
    require (!(q.projectBusy db))
      (.error ("Recovery requires an idle project with no surviving Git journal or launch " ++
        "record. Stop active work and retry; existing recovery records are preserved"))
    q.checkWriterConflict db
    q.checkStaleStart db
    q.checkActivation db
    require (!q.requireResumeRequested || decide (db.sessionControls.count (fun sc =>
        sc.is q.projectId q.sessionId && sc.state = .resumeRequested) = 1))
      (.error ("The session was stopped before automatic branch recovery; " ++
        "preserving its attempt"))
    let journals :=
      if q.retiresJournal then
        db.gitFinalizations.update (GitFinalization.is q.projectId q.sessionId)
          (GitFinalization.cancel q.reason q.acquiredAt)
          (GitFinalization.cancel_compatible _ _ _)
      else db.gitFinalizations
    let leases ← fetch
      (db.insertInto q.projectId db.leases
        { projectId := q.projectId, holder := q.holder, acquiredAt := q.acquiredAt,
          expiresAt := q.expiresAt })
      (.error "constraint failed")
    let token := some (agentMissingGitRecoveryTokenPrefix ++ castText q.expectedRunId)
    let controls := (db.sessionControls.upsert
      { projectId := q.projectId, codexSessionId := q.sessionId, state := .stopped,
        childPid := none, runToken := token, interactiveHolder := none,
        interactiveLaunchToken := none, stdoutPath := none, stderrPath := none,
        updatedAt := q.acquiredAt }
      (fun _ => true)
      (fun sc =>
        { sc with state := .stopped, runToken := token, updatedAt := q.acquiredAt })).1
    return ((), { db with
      gitFinalizations := journals, leases := leases, sessionControls := controls })

/-- `finish_missing_git_recovery_blocking`. -/
def finishMissingGitRecovery (projectId : Int) (holder now : String) (db : Registry) :
    Outcome Unit :=
  db.transaction do
    let where_ := fun p : Project => p.id == projectId && db.leases.any fun l =>
      l.projectId == projectId && l.holder == holder && castInteger now < castInteger l.expiresAt
    require (db.projects.count where_ = 1)
      (.error ("Recovery lost its project reservation; check the queued task before " ++
        "retrying"))
    return ((), { db with
      projects := db.projects.update where_ fun p =>
        { p with
          failureCount := 0, lastFailureAt := none, lastBlockedRecoveryAt := none,
          updatedAt := now } })

/-! ## Orphaned, abandoned and superseded attempts -/

/-- A parked control that the finalizer's lease may ignore: stopped, or waiting
under its own journal's current generation. -/
def parkedBehindJournal (db : Registry) (sc : SessionControl) : Bool :=
  sc.isIdle &&
    (sc.state = .stopped ||
      (sc.state = .resumeRequested && db.gitFinalizations.any fun g =>
        g.is sc.projectId sc.codexSessionId && g.state.isUnfinished &&
          sqlEq sc.runToken (some (recoveryToken g.generation))))

/-- The orphan's own control is absent, or parked under its own generation. -/
def orphanControl (generation : Int) (sc : SessionControl) : Bool :=
  (sc.state = .resumeRequested && sqlEq sc.runToken (some (recoveryToken generation))) ||
    (sc.state = .stopped &&
      (sc.runToken.isNone || sqlEq sc.runToken (some (recoveryToken generation))))

/-- `owns_idle_project`. -/
def ownsIdleProject (db : Registry) (expected : GitFinalization) (finalizerHolder now : String) :
    Bool :=
  db.leases.count (fun l =>
    l.projectId == expected.projectId && l.holder == finalizerHolder &&
    castInteger now < castInteger l.expiresAt &&
    !(db.hasActiveWorker expected.projectId) &&
    !(db.sessionControls.any fun sc =>
      sc.projectId == expected.projectId && !(db.parkedBehindJournal sc)) &&
    !(db.sessionControls.any fun sc =>
      sc.is expected.projectId expected.codexSessionId &&
        !(orphanControl expected.generation sc))) = 1

/-- `cancel_orphaned_working_git_finalization_blocking`. -/
def cancelOrphanedWorkingGitFinalization (expected : GitFinalization)
    (finalizerHolder reason updatedAt now : String) (db : Registry) : Outcome Bool :=
  db.transaction do
    let row ← fetch (db.journal? expected.projectId expected.codexSessionId) (.ok false)
    let current ← attempt row.recordFromRow
    require (current == expected && current.state = .working && current.taskIdentity.isNone &&
        current.commitOid.isNone && current.ownerRunToken.isNone && current.completedAt.isNone &&
        current.acknowledgedAt.isNone && current.acknowledgedRunId.isNone)
      (.ok false)
    require (db.ownsIdleProject expected finalizerHolder now) (.ok false)
    require (decide (expected.generation < maxInteger))
      (.error "Abandoned Git journal generation overflowed")
    let where_ := fun g : GitFinalization =>
      g.is expected.projectId expected.codexSessionId && g.state = .working &&
        g.generation == expected.generation && g.taskIdentity.isNone && g.commitOid.isNone &&
        g.ownerRunToken.isNone
    require (db.gitFinalizations.count where_ = 1) (.ok false)
    return (true, { db with
      gitFinalizations := db.gitFinalizations.update where_
        (GitFinalization.cancel reason updatedAt) (GitFinalization.cancel_compatible _ _ _)
      sessionControls := db.sessionControls.delete fun sc =>
        sc.is expected.projectId expected.codexSessionId && sc.isIdle &&
          orphanControl expected.generation sc })

/-- `idle_project`: the named journal is unbound and nothing in its project is alive. -/
def abandonedJournal (db : Registry) (projectId : Int) (codexSessionId : String)
    (expectedGeneration : Int) (completedTask : Bool) (updatedAt : String)
    (g : GitFinalization) : Bool :=
  g.is projectId codexSessionId && g.state = .working && g.generation == expectedGeneration &&
  g.taskIdentity.isNone && g.commitOid.isNone && g.completedAt.isNone &&
  g.acknowledgedAt.isNone && (g.ownerRunToken.isSome || completedTask) &&
  !(db.hasActiveWorker projectId) &&
  !(db.agentWorkers.any fun owner =>
    owner.activeIn projectId && sqlEq (some owner.workerToken) g.ownerRunToken) &&
  !(db.hasGitLaunchState projectId) &&
  !(db.hasUnexpiredLease projectId updatedAt) &&
  !(db.sessionControls.any fun sc =>
    sc.projectId == projectId &&
    (!sc.isIdle || !sc.isParked || db.agentWorkers.any fun live =>
      sqlEq (some live.workerToken) sc.runToken && live.state.isActive))

/-- The control that a retired journal's session leaves behind. -/
def idleControl (projectId : Int) (codexSessionId : String) (sc : SessionControl) : Bool :=
  sc.is projectId codexSessionId && sc.isParked && sc.isIdle

/-- `retire_abandoned_unbound_git_finalization_blocking`. -/
def retireAbandonedUnboundGitFinalization (projectId : Int) (codexSessionId : String)
    (expectedGeneration : Int) (completedTask : Bool) (reason updatedAt : String)
    (db : Registry) : Outcome Bool :=
  db.transaction do
    require (db.gitFinalizations.count (db.abandonedJournal projectId codexSessionId
      expectedGeneration completedTask updatedAt) = 1) (.ok false)
    let cleared := db.clearCancelledAttemptFailure projectId codexSessionId updatedAt
    return (true, { cleared with
      gitFinalizations := db.gitFinalizations.update
        (fun g => g.is projectId codexSessionId && g.state = .working &&
          g.generation == expectedGeneration)
        (GitFinalization.cancel reason updatedAt) (GitFinalization.cancel_compatible _ _ _)
      sessionControls := db.sessionControls.delete (idleControl projectId codexSessionId) })

/-- The caller's own checks in `retire_superseded_working_git_finalization_blocking`. -/
def supersedes (expected completed : GitFinalization) : Bool :=
  expected.state = .working && expected.commitOid.isNone && expected.completedAt.isNone &&
  expected.acknowledgedAt.isNone && expected.taskIdentity.isSome &&
  completed.state = .completed && completed.commitOid.isSome &&
  expected.projectId == completed.projectId &&
  expected.codexSessionId != completed.codexSessionId &&
  expected.taskIdentity == completed.taskIdentity

/-- A worker, a launch boundary, an unexpired lease or a session of the project is alive. -/
def projectBusy (db : Registry) (projectId : Int) (now : String) : Bool :=
  db.hasActiveWorker projectId || db.hasGitLaunchState projectId ||
    db.hasUnexpiredLease projectId now || db.hasBusyControl projectId

/-- `retire_superseded_working_git_finalization_blocking`. -/
def retireSupersededWorkingGitFinalization (expected completed : GitFinalization)
    (updatedAt : String) (db : Registry) : Outcome Bool :=
  db.transaction do
    require (supersedes expected completed) (.ok false)
    let current ← attempt (db.readJournal expected.projectId expected.codexSessionId)
    require (current == some expected) (.ok false)
    let current ← attempt (db.readJournal completed.projectId completed.codexSessionId)
    require (current == some completed) (.ok false)
    require (!(db.projectBusy expected.projectId updatedAt)) (.ok false)
    let cleared :=
      db.clearCancelledAttemptFailure expected.projectId expected.codexSessionId updatedAt
    let reason := "Superseded unsealed attempt: the same task was completed in Codex session " ++
      completed.codexSessionId ++ " with verified commit " ++ completed.commitOid.getD ""
    return (true, { cleared with
      gitFinalizations := db.gitFinalizations.update
        (GitFinalization.is expected.projectId expected.codexSessionId)
        (GitFinalization.cancel reason updatedAt) (GitFinalization.cancel_compatible _ _ _)
      sessionControls := db.sessionControls.delete
        (SessionControl.is expected.projectId expected.codexSessionId) })

/-! ## User cancellation -/

/-- A live worker that may be running the session: it owns the journal, resumes the
session, is the session's run, or cannot be told apart from it. -/
def mayRunSession (db : Registry) (projectId : Int) (sessionId : String)
    (ownerRunToken : Option String) (w : AgentWorker) : Bool :=
  some w.workerToken == ownerRunToken ||
  w.resumeSessionId == some sessionId ||
  (db.sessionControls.any fun sc =>
    sc.is projectId sessionId && sqlEq sc.runToken (some w.workerToken)) ||
  (w.resumeSessionId.isNone && w.taskSelection != "supervisor_review" &&
    !(db.sessionControls.any fun other =>
      other.projectId == projectId && other.codexSessionId != sessionId &&
        sqlEq other.runToken (some w.workerToken)))

/-- `can_delete_idle_task`. -/
def canDeleteIdleTask (db : Registry) (projectId : Int) (sessionId : String) (generation : Int)
    (taskIdentity : Option String) (now : String) : Bool :=
  db.gitFinalizations.count (fun g =>
    g.is projectId sessionId && g.state = .working && g.generation == generation &&
    g.taskIdentity == taskIdentity && g.commitOid.isNone &&
    !(db.sessionControls.any fun sc =>
      sc.is projectId sessionId && (!sc.isParked || !sc.isIdle)) &&
    !(db.agentWorkers.any fun w =>
      w.activeIn projectId && db.mayRunSession projectId sessionId g.ownerRunToken w) &&
    !(db.hasGitLaunchState projectId) &&
    !(db.leases.any fun l =>
      l.projectId == projectId && castInteger now < castInteger l.expiresAt &&
      !(db.agentWorkers.any fun w => w.activeIn projectId && w.leaseHolder == l.holder) &&
      !(db.sessionControls.any fun other =>
        other.projectId == projectId && other.codexSessionId != sessionId &&
          sqlEq other.interactiveHolder (some l.holder)))) = 1

/-- The journal that a cancellation names. -/
def cancellable (projectId : Int) (codexSessionId : String) (expectedGeneration : Int)
    (taskIdentity : Option String) (g : GitFinalization) : Bool :=
  g.is projectId codexSessionId && g.state = .working && g.generation == expectedGeneration &&
    g.taskIdentity == taskIdentity

/-- The leases of a project that have expired as a number. -/
def expiredLease (projectId : Int) (now : String) (l : Lease) : Bool :=
  l.projectId == projectId && castInteger l.expiresAt ≤ castInteger now

/-- The last part of `cancel_idle_working_git_finalization`: the journal is
cancelled under the leases that the call may change, and its session parked. -/
def cancelJournal (projectId : Int) (codexSessionId : String) (expectedGeneration : Int)
    (taskIdentity : Option String) (acquiredAt : String) (cancellation : GitTaskCancellation)
    (leases : Table Lease) (db : Registry) : Step Bool (Bool × Registry) := do
  let cleared := db.clearCancelledAttemptFailure projectId codexSessionId acquiredAt
  let where_ := cancellable projectId codexSessionId expectedGeneration taskIdentity
  require (db.gitFinalizations.count where_ = 1) (.ok false)
  let journals := db.gitFinalizations.update where_
    (GitFinalization.cancel cancellation.reason acquiredAt)
    (GitFinalization.cancel_compatible _ _ _)
  match cancellation with
  | .deletion =>
    -- The stop is stored before the board entry goes, so the work never resumes.
    let controls := (db.sessionControls.upsert
      { projectId := projectId, codexSessionId := codexSessionId, state := .stopped,
        childPid := none, runToken := none, interactiveHolder := none,
        interactiveLaunchToken := none, stdoutPath := none, stderrPath := none,
        updatedAt := acquiredAt }
      (fun _ => true)
      (fun sc => { sc with state := .stopped, runToken := none, updatedAt := acquiredAt })).1
    return (true, { cleared with
      gitFinalizations := journals, leases := leases, sessionControls := controls })
  | .externalCompletion =>
    return (true, { cleared with
      gitFinalizations := journals
      leases := leases
      sessionControls := db.sessionControls.delete (idleControl projectId codexSessionId) })

/-- The lease under which a journal is cancelled when nothing else owns the
project, taken only while the named journal is there. -/
def fenceCancellation (projectId : Int) (codexSessionId : String) (expectedGeneration : Int)
    (taskIdentity : Option String) (leaseHolder acquiredAt expiresAt action : String)
    (leases : Table Lease) (db : Registry) : Step Bool (Table Lease × Nat) :=
  if db.gitFinalizations.any fun g =>
      cancellable projectId codexSessionId expectedGeneration taskIdentity g &&
        g.commitOid.isNone then
    fetch (db.insertOrIgnoreInto projectId leases
        { projectId := projectId, holder := leaseHolder, acquiredAt := acquiredAt,
          expiresAt := expiresAt })
      (.error ("Failed to fence the project while " ++ action ++ " for " ++ codexSessionId))
  else .ok (leases, 0)

/-- `cancel_idle_working_git_finalization`. -/
def cancelIdleWorkingGitFinalization (projectId : Int) (codexSessionId : String)
    (expectedGeneration : Int) (taskIdentity : Option String)
    (leaseHolder acquiredAt expiresAt : String) (cancellation : GitTaskCancellation)
    (db : Registry) : Outcome Bool :=
  let action := cancellation.action
  db.transaction <|
    if cancellation = .deletion &&
        db.canDeleteIdleTask projectId codexSessionId expectedGeneration taskIdentity
          acquiredAt then
      db.cancelJournal projectId codexSessionId expectedGeneration taskIdentity acquiredAt
        cancellation db.leases
    else do
      require (!(db.hasActiveWorker projectId))
        (.error ("An active agent worker still owns this task or has not registered its " ++
          "task ownership, preventing " ++ action ++ ". Moving a task to Todo does not stop " ++
          "its process. Check the activity shown in Agent Projects or `clt agent status`; " ++
          "stop the owning task with s, or retry after its worker finishes"))
      require (!(db.hasBusyControl projectId))
        (.error ("A Codex session in this project is still active; stop it before " ++ action))
      require (!(db.hasGitLaunchState projectId))
        (.error ("The project has an unconsumed Git launch boundary; recover it before " ++
          action))
      let leases := db.leases.delete (expiredLease projectId acquiredAt)
      require (!(leases.any (Lease.of projectId)))
        (.error ("This project still has an active project lease; wait for its owner to " ++
          "settle before " ++ action))
      let (fenced, inserted) ← db.fenceCancellation projectId codexSessionId expectedGeneration
        taskIdentity leaseHolder acquiredAt expiresAt action leases
      if inserted = 1 then
        db.cancelJournal projectId codexSessionId expectedGeneration taskIdentity acquiredAt
          cancellation fenced
      else
        -- The expired lease stays removed when there is no such journal.
        return (false, { db with leases := fenced })

/-! ## Acknowledgement -/

/-- `value.parse::<u64>().ok()`. -/
def parseU64 (s : String) : Option Nat :=
  let digits := match s.toList with
    | '+' :: rest => rest
    | cs => cs
  if digits.isEmpty || !(digits.all Char.isDigit) then none
  else if digitsValue digits < 2 ^ 64 then some (digitsValue digits) else none

/-- The order of optional integers, in which `None` comes first. -/
def optionLe : Option Nat → Option Nat → Bool
  | none, _ => true
  | some _, none => false
  | some a, some b => a ≤ b

/-- A run that already acknowledges a completion. -/
def acknowledges (completedAt : String) (r : Run) : Bool :=
  (r.status == "success" || r.status == "idle") &&
    optionLe (parseU64 completedAt) (r.finishedAt.bind parseU64)

/-- A control that waits under some generation of the session's journal. -/
def lateResumeRequest (projectId : Int) (codexSessionId : String) (sc : SessionControl) : Bool :=
  sc.is projectId codexSessionId && sc.state = .resumeRequested && sc.childPid.isNone &&
    sc.interactiveHolder.isNone &&
    sc.runToken.any (likePrefix agentGitFinalizationResumeTokenPrefix)

/-- The success that an acknowledgement records for the interrupted run. -/
def acknowledgementOutcome (projectId : Int) (codexSessionId completedAt : String)
    (commitOid : Option String) : AgentRunOutcome :=
  let shortCommit := (commitOid.map fun oid => String.ofList (oid.toList.take 12)).getD "unknown"
  { projectId := projectId, status := "success", startedAt := completedAt,
    finishedAt := some completedAt, exitCode := none, logDir := none, stdoutPath := none,
    stderrPath := none
    summary := some ("CLT recovered the proven Git finalization at commit " ++ shortCommit ++
      " after an interrupted run acknowledgement.")
    codexSessionId := some codexSessionId }

/-- The session's latest run if it already acknowledges the completion, else a
fresh one. -/
def acknowledgingRun (outcome : AgentRunOutcome) (codexSessionId completedAt : String)
    (db : Registry) : Step Bool (Registry × Int) :=
  let latest := db.runs.find? fun r =>
    sqlEq (some r.id) (db.maxSessionRunId outcome.projectId codexSessionId)
  match latest.filter (acknowledges completedAt) with
  | some run => .ok (db, run.id)
  | none => do
    let runs ← fetch (db.insertInto outcome.projectId db.runs (outcome.toRun db.nextRunId none))
      (.error ("Failed to record recovered success for Git finalization " ++ codexSessionId))
    .ok ({ db with runs := runs }, db.nextRunId)

/-- `acknowledge_completed_git_finalization_session_blocking`; `acknowledgedAt` is
its reading of the clock. -/
def acknowledgeCompletedGitFinalizationSession (projectId : Int) (codexSessionId : String)
    (acknowledgedAt : String) (db : Registry) : Outcome Bool :=
  db.transaction do
    let journal ← fetch
      (db.gitFinalizations.find? fun g => g.is projectId codexSessionId && g.state = .completed)
      (.ok false)
    let completedAt ← fetch journal.completedAt
      (.error "Agent database column completed_at was not text")
    let controls := db.sessionControls.delete (lateResumeRequest projectId codexSessionId)
    if journal.acknowledgedAt.isSome then
      return (true, { db with sessionControls := controls })
    else do
      let outcome := acknowledgementOutcome projectId codexSessionId completedAt journal.commitOid
      let (recorded, runId) ← db.acknowledgingRun outcome codexSessionId completedAt
      let settled :=
        if (recorded.maxRunId fun r => r.projectId == projectId).getD 0 == runId then
          recorded.updateProjectAfterRun outcome
        else recorded
      let where_ := fun g : GitFinalization =>
        g.is projectId codexSessionId && g.state = .completed && g.acknowledgedAt.isNone
      require (db.gitFinalizations.count where_ = 1)
        (.error ("Git finalization acknowledgement for " ++ codexSessionId ++
          " changed inside its exclusive transaction"))
      return (true, { settled with
        gitFinalizations := db.gitFinalizations.update where_ fun g =>
          { g with acknowledgedAt := some acknowledgedAt, acknowledgedRunId := some runId }
        sessionControls := controls })

/-! ## Launch boundaries -/

/-- `AgentGitStartState`. -/
structure AgentGitStartState where
  startingHead : String
  branchRef : Option String
  upstreamRef : Option String
  worktreeBaseline : String

/-- The launch row of one run, with exactly this boundary. -/
def isLaunch (projectId : Int) (runToken : String) (gitMode : AgentGitMode)
    (start : AgentGitStartState) (l : GitLaunchState) : Bool :=
  l.is projectId runToken && l.gitMode = gitMode && l.startingHead == start.startingHead &&
    l.branchRef == start.branchRef && l.upstreamRef == start.upstreamRef &&
    l.worktreeBaseline == start.worktreeBaseline

/-- `record_git_launch_state_blocking`. -/
def recordGitLaunchState (projectId : Int) (runToken : String) (gitMode : AgentGitMode)
    (start : AgentGitStartState) (createdAt : String) (db : Registry) : Outcome Bool :=
  db.transaction do
    require (gitMode != .off) (.error "A Git launch state cannot use Git mode off")
    require (!(db.gitLaunchStates.any fun l =>
        l.projectId == projectId && l.runToken != runToken))
      (.error ("A prior automated run has an unconsumed Git launch boundary for project " ++
        castText projectId ++ "; refusing to replace it"))
    let (launches, inserted) ← fetch
      (db.insertOrIgnoreInto projectId db.gitLaunchStates
        { projectId := projectId, runToken := runToken, gitMode := gitMode,
          startingHead := start.startingHead, branchRef := start.branchRef,
          upstreamRef := start.upstreamRef, worktreeBaseline := start.worktreeBaseline,
          createdAt := createdAt })
      (.error "Failed to persist the prelaunch Git state")
    require (decide (inserted ≠ 0) ||
        decide (launches.count (isLaunch projectId runToken gitMode start) = 1))
      (.error ("Automated run " ++ runToken ++
        " already has a different immutable Git launch boundary"))
    return (decide (inserted = 1), { db with gitLaunchStates := launches })

/-- `reclaim_unchanged_git_launch_state_blocking`. -/
def reclaimUnchangedGitLaunchState (projectId : Int) (runToken : String)
    (gitMode : AgentGitMode) (start : AgentGitStartState) (db : Registry) : Outcome Bool :=
  db.transaction do
    require (db.agentWorkers.count (fun w =>
        w.workerToken == runToken && w.projectId == projectId &&
          (w.state = .completed || w.state = .abandoned || w.state = .superseded)) = 1)
      (.ok false)
    require (!(db.sessionControls.any fun sc =>
        sc.projectId == projectId && sqlEq sc.runToken (some runToken)))
      (.ok false)
    let where_ := isLaunch projectId runToken gitMode start
    return (decide (db.gitLaunchStates.count where_ = 1),
      { db with gitLaunchStates := db.gitLaunchStates.delete where_ })

/-- `delete_git_launch_state_blocking`. -/
def deleteGitLaunchState (projectId : Int) (runToken : String) (db : Registry) : Outcome Bool :=
  ⟨.ok (decide (db.gitLaunchStates.count (GitLaunchState.is projectId runToken) = 1)),
    { db with
      gitLaunchStates := db.gitLaunchStates.delete (GitLaunchState.is projectId runToken) }⟩

/-- `recover_unmanaged_session_git_mode_blocking`. -/
def recoverUnmanagedSessionGitMode (projectId : Int) (sessionId stderrPath : String)
    (db : Registry) : Outcome Unit :=
  db.transaction do
    require ((db.sessionControls.any fun sc =>
          sc.is projectId sessionId && sqlEq sc.stderrPath (some stderrPath)) &&
        !(db.gitFinalizations.any (GitFinalization.is projectId sessionId)) &&
        !(db.hasGitLaunchState projectId))
      (.ok ())
    let (modes, _) ← fetch
      (db.insertOrIgnoreInto projectId db.sessionGitModes
        { projectId := projectId, codexSessionId := sessionId, gitMode := .off })
      (.error "constraint failed")
    return ((), { db with sessionGitModes := modes })

end Registry

end Clt
