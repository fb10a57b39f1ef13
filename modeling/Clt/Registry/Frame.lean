import Clt.Registry.Operation

/-!
# What each call writes

`RegistryOp.writes` names the tables that a call may change, and `apply_frame` is
its meaning: every other table is the one the call started from. A property of one
table is then a matter of the few calls that write it.
-/

namespace Clt

open Relational

/-- A set of registry tables. -/
structure TableSet where
  projects : Bool := false
  runs : Bool := false
  leases : Bool := false
  sessionControls : Bool := false
  agentWorkers : Bool := false
  gitFinalizations : Bool := false
  gitLaunchStates : Bool := false
  sessionGitModes : Bool := false

/-- The tables of `w` from `db'`, all others from `db`. -/
def TableSet.merge (w : TableSet) (db db' : Registry) : Registry where
  projects := bif w.projects then db'.projects else db.projects
  runs := bif w.runs then db'.runs else db.runs
  leases := bif w.leases then db'.leases else db.leases
  sessionControls := bif w.sessionControls then db'.sessionControls else db.sessionControls
  agentWorkers := bif w.agentWorkers then db'.agentWorkers else db.agentWorkers
  gitFinalizations := bif w.gitFinalizations then db'.gitFinalizations else db.gitFinalizations
  gitLaunchStates := bif w.gitLaunchStates then db'.gitLaunchStates else db.gitLaunchStates
  sessionGitModes := bif w.sessionGitModes then db'.sessionGitModes else db.sessionGitModes

/-- `db'` differs from `db` in the tables of `w` only. -/
def Frame (w : TableSet) (db db' : Registry) : Prop := w.merge db db' = db'

namespace Frame

variable {w : TableSet} {db db' : Registry}

theorem refl (w : TableSet) (db : Registry) : Frame w db db := by
  simp only [Frame, TableSet.merge, Bool.cond_self]

theorem projects (h : Frame w db db') (hw : w.projects = false) :
    db'.projects = db.projects := by
  rw [← h]
  exact congrArg (cond · _ _) hw

theorem runs (h : Frame w db db') (hw : w.runs = false) : db'.runs = db.runs := by
  rw [← h]
  exact congrArg (cond · _ _) hw

theorem leases (h : Frame w db db') (hw : w.leases = false) : db'.leases = db.leases := by
  rw [← h]
  exact congrArg (cond · _ _) hw

theorem sessionControls (h : Frame w db db') (hw : w.sessionControls = false) :
    db'.sessionControls = db.sessionControls := by
  rw [← h]
  exact congrArg (cond · _ _) hw

theorem agentWorkers (h : Frame w db db') (hw : w.agentWorkers = false) :
    db'.agentWorkers = db.agentWorkers := by
  rw [← h]
  exact congrArg (cond · _ _) hw

theorem gitFinalizations (h : Frame w db db') (hw : w.gitFinalizations = false) :
    db'.gitFinalizations = db.gitFinalizations := by
  rw [← h]
  exact congrArg (cond · _ _) hw

end Frame

namespace Registry

variable {db : Registry}

/-- A transaction whose body keeps to the tables of `w` does too. -/
theorem transaction_frame {α : Type} {w : TableSet} {body : Step α (α × Registry)}
    (h : ∀ a db', body = .ok (a, db') → Frame w db db') :
    Frame w db (db.transaction body).db :=
  transaction_db (.refl w db) h

/-! ## Git journals -/

theorem createGitFinalization_frame (n : NewGitFinalization) :
    Frame { gitFinalizations := true } db (db.createGitFinalization n).db := by
  refine transaction_frame fun a db' h => ?_
  simp only [require_bind_eq_ok, fetch_bind_eq_ok] at h
  obtain ⟨-, -, -, _, -, ⟨⟩⟩ := h
  rfl

theorem enableSessionGit_frame (journal : NewGitFinalization) (leaseHolder now : String) :
    Frame { gitFinalizations := true, sessionGitModes := true } db
      (db.enableSessionGit journal leaseHolder now).db := by
  refine transaction_frame fun a db' h => ?_
  simp only [require_bind_eq_ok, fetch_bind_eq_ok] at h
  obtain ⟨-, -, _, -, ⟨⟩⟩ := h
  rfl

theorem compareAndSetGitFinalization_frame (projectId : Int) (codexSessionId : String)
    (expectedGeneration : Int) (nextState : GitFinalizationState)
    (taskIdentity worktreeBaseline : Option String) (requireRunningOwner : Bool)
    (ownerRunToken commitOid lastError : Option String) (updatedAt : String) :
    Frame { gitFinalizations := true, sessionControls := true } db
      (db.compareAndSetGitFinalization projectId codexSessionId expectedGeneration nextState
        taskIdentity worktreeBaseline requireRunningOwner ownerRunToken commitOid lastError
        updatedAt).db := by
  refine transaction_frame fun a db' h => ?_
  simp only [require_bind_eq_ok, fetch_bind_eq_ok, attempt_bind_eq_ok] at h
  obtain ⟨_, -, _, -, -, h⟩ := h
  obtain ⟨-, -, h⟩ := step_bind_eq_ok.mp h
  obtain ⟨-, -, h⟩ := step_bind_eq_ok.mp h
  simp only [require_bind_eq_ok, fetch_bind_eq_ok] at h
  obtain ⟨_, -, -, ⟨⟩⟩ := h
  rfl

theorem beginMissingGitRecovery_frame (q : MissingGitRecovery) :
    Frame { gitFinalizations := true, leases := true, sessionControls := true } db
      (db.beginMissingGitRecovery q).db := by
  refine transaction_frame fun a db' h => ?_
  obtain ⟨-, h⟩ := require_bind_eq_ok.mp h
  obtain ⟨-, -, h⟩ := step_bind_eq_ok.mp h
  obtain ⟨-, h⟩ := require_bind_eq_ok.mp h
  obtain ⟨-, -, h⟩ := step_bind_eq_ok.mp h
  obtain ⟨-, -, h⟩ := step_bind_eq_ok.mp h
  obtain ⟨-, -, h⟩ := step_bind_eq_ok.mp h
  simp only [require_bind_eq_ok, fetch_bind_eq_ok] at h
  obtain ⟨-, _, -, ⟨⟩⟩ := h
  rfl

theorem finishMissingGitRecovery_frame (projectId : Int) (holder now : String) :
    Frame { projects := true } db (db.finishMissingGitRecovery projectId holder now).db := by
  refine transaction_frame fun a db' h => ?_
  obtain ⟨-, ⟨⟩⟩ := require_bind_eq_ok.mp h
  rfl

theorem cancelOrphanedWorkingGitFinalization_frame (expected : GitFinalization)
    (finalizerHolder reason updatedAt now : String) :
    Frame { gitFinalizations := true, sessionControls := true } db
      (db.cancelOrphanedWorkingGitFinalization expected finalizerHolder reason updatedAt
        now).db := by
  refine transaction_frame fun a db' h => ?_
  simp only [require_bind_eq_ok, fetch_bind_eq_ok, attempt_bind_eq_ok] at h
  obtain ⟨_, -, _, -, -, -, -, -, ⟨⟩⟩ := h
  rfl

theorem retireAbandonedUnboundGitFinalization_frame (projectId : Int) (codexSessionId : String)
    (expectedGeneration : Int) (completedTask : Bool) (reason updatedAt : String) :
    Frame { projects := true, gitFinalizations := true, sessionControls := true } db
      (db.retireAbandonedUnboundGitFinalization projectId codexSessionId expectedGeneration
        completedTask reason updatedAt).db := by
  refine transaction_frame fun a db' h => ?_
  obtain ⟨-, ⟨⟩⟩ := require_bind_eq_ok.mp h
  rfl

theorem retireSupersededWorkingGitFinalization_frame (expected completed : GitFinalization)
    (updatedAt : String) :
    Frame { projects := true, gitFinalizations := true, sessionControls := true } db
      (db.retireSupersededWorkingGitFinalization expected completed updatedAt).db := by
  refine transaction_frame fun a db' h => ?_
  simp only [require_bind_eq_ok, attempt_bind_eq_ok] at h
  obtain ⟨-, _, -, -, _, -, -, -, ⟨⟩⟩ := h
  rfl

theorem cancelJournal_frame {projectId : Int} {codexSessionId : String}
    {expectedGeneration : Int} {taskIdentity : Option String} {acquiredAt : String}
    {cancellation : GitTaskCancellation} {leases : Table Lease} {r : Bool × Registry}
    (h : db.cancelJournal projectId codexSessionId expectedGeneration taskIdentity acquiredAt
      cancellation leases = .ok r) :
    Frame { projects := true, leases := true, gitFinalizations := true, sessionControls := true }
      db r.2 := by
  obtain ⟨-, h⟩ := require_bind_eq_ok.mp h
  cases cancellation <;> cases h <;> rfl

theorem cancelIdleWorkingGitFinalization_frame (projectId : Int) (codexSessionId : String)
    (expectedGeneration : Int) (taskIdentity : Option String)
    (leaseHolder acquiredAt expiresAt : String) (cancellation : GitTaskCancellation) :
    Frame { projects := true, leases := true, gitFinalizations := true, sessionControls := true }
      db (db.cancelIdleWorkingGitFinalization projectId codexSessionId expectedGeneration
        taskIdentity leaseHolder acquiredAt expiresAt cancellation).db := by
  refine transaction_frame fun a db' h => ?_
  split at h
  · exact cancelJournal_frame h
  · simp only [require_bind_eq_ok] at h
    obtain ⟨-, -, -, -, h⟩ := h
    obtain ⟨⟨leases, inserted⟩, -, h⟩ := step_bind_eq_ok.mp h
    simp only at h
    split at h
    · exact cancelJournal_frame h
    · cases h
      rfl

theorem acknowledgingRun_db {outcome : AgentRunOutcome} {codexSessionId completedAt : String}
    {r : Registry × Int} (h : db.acknowledgingRun outcome codexSessionId completedAt = .ok r) :
    ∃ runs, r.1 = { db with runs := runs } := by
  unfold acknowledgingRun at h
  dsimp only at h
  split at h
  · cases h
    exact ⟨_, rfl⟩
  · obtain ⟨_, -, ⟨⟩⟩ := fetch_bind_eq_ok.mp h
    exact ⟨_, rfl⟩

theorem acknowledgeCompletedGitFinalizationSession_frame (projectId : Int)
    (codexSessionId acknowledgedAt : String) :
    Frame { projects := true, runs := true, gitFinalizations := true, sessionControls := true }
      db (db.acknowledgeCompletedGitFinalizationSession projectId codexSessionId
        acknowledgedAt).db := by
  refine transaction_frame fun a db' h => ?_
  simp only [fetch_bind_eq_ok] at h
  obtain ⟨journal, -, completedAt, -, h⟩ := h
  split at h
  · cases h
    rfl
  · obtain ⟨⟨recorded, runId⟩, hrec, h⟩ := step_bind_eq_ok.mp h
    obtain ⟨-, ⟨⟩⟩ := require_bind_eq_ok.mp h
    obtain ⟨runs, hrec⟩ := acknowledgingRun_db hrec
    subst hrec
    dsimp only
    split <;> rfl

theorem recordGitLaunchState_frame (projectId : Int) (runToken : String)
    (gitMode : AgentGitMode) (start : AgentGitStartState) (createdAt : String) :
    Frame { gitLaunchStates := true } db
      (db.recordGitLaunchState projectId runToken gitMode start createdAt).db := by
  refine transaction_frame fun a db' h => ?_
  simp only [require_bind_eq_ok, fetch_bind_eq_ok] at h
  obtain ⟨-, -, _, -, -, ⟨⟩⟩ := h
  rfl

theorem reclaimUnchangedGitLaunchState_frame (projectId : Int) (runToken : String)
    (gitMode : AgentGitMode) (start : AgentGitStartState) :
    Frame { gitLaunchStates := true } db
      (db.reclaimUnchangedGitLaunchState projectId runToken gitMode start).db := by
  refine transaction_frame fun a db' h => ?_
  simp only [require_bind_eq_ok] at h
  obtain ⟨-, -, ⟨⟩⟩ := h
  rfl

theorem recoverUnmanagedSessionGitMode_frame (projectId : Int) (sessionId stderrPath : String) :
    Frame { sessionGitModes := true } db
      (db.recoverUnmanagedSessionGitMode projectId sessionId stderrPath).db := by
  refine transaction_frame fun a db' h => ?_
  simp only [require_bind_eq_ok, fetch_bind_eq_ok] at h
  obtain ⟨-, _, -, ⟨⟩⟩ := h
  rfl

/-! ## Session controls -/

theorem updateControls_frame (where_ : SessionControl → Bool)
    (set : SessionControl → SessionControl) (hc : Compatible where_ set) :
    Frame { sessionControls := true } db (db.updateControls where_ set hc).db := rfl

theorem deleteControls_frame (where_ : SessionControl → Bool) :
    Frame { sessionControls := true } db (db.deleteControls where_).db := rfl

theorem insertControl_frame (where_ : Bool) (sc : SessionControl) (context : String) :
    Frame { sessionControls := true } db (db.insertControl where_ sc context).db := by
  refine transaction_frame fun a db' h => ?_
  simp only [require_bind_eq_ok, fetch_bind_eq_ok] at h
  obtain ⟨-, _, -, ⟨⟩⟩ := h
  rfl

theorem reserveIdleSessionInteractiveForState_frame (projectId : Int)
    (codexSessionId interactiveHolder : String) (expectedStoppedRunToken : Option String)
    (expectedState : Option AgentSessionControlState) (now : String) :
    Frame { sessionControls := true } db
      (db.reserveIdleSessionInteractiveForState projectId codexSessionId interactiveHolder
        expectedStoppedRunToken expectedState now).db := by
  unfold reserveIdleSessionInteractiveForState
  split
  · exact updateControls_frame ..
  · exact insertControl_frame ..

theorem reserveSharedSessionInteractive_frame (projectId : Int)
    (codexSessionId interactiveHolder : String) (expectedStoppedRunToken : Option String)
    (hasManualOwner : Bool) (now : String) :
    Frame { sessionControls := true } db
      (db.reserveSharedSessionInteractive projectId codexSessionId interactiveHolder
        expectedStoppedRunToken hasManualOwner now).db := by
  unfold reserveSharedSessionInteractive
  split
  · exact updateControls_frame ..
  · exact insertControl_frame ..

theorem cancelIdleSessionInteractive_frame (projectId : Int)
    (codexSessionId interactiveHolder now : String) :
    Frame { sessionControls := true } db
      (db.cancelIdleSessionInteractive projectId codexSessionId interactiveHolder now).db := by
  unfold cancelIdleSessionInteractive
  dsimp only
  split
  · exact updateControls_frame ..
  · exact deleteControls_frame ..

theorem ensurePendingGitFinalizationResumeRequested_frame (projectId : Int)
    (codexSessionId now : String) :
    Frame { sessionControls := true } db
      (db.ensurePendingGitFinalizationResumeRequested projectId codexSessionId now).db := by
  refine transaction_frame fun a db' h => ?_
  simp only [fetch_bind_eq_ok, attempt_bind_eq_ok] at h
  obtain ⟨_, -, _, -, _, -, ⟨⟩⟩ := h
  rfl

theorem retireCompletedResumeRequest_frame (expected : SessionControl) (now : Nat) :
    Frame { sessionControls := true } db (db.retireCompletedResumeRequest expected now).db := by
  refine transaction_frame fun a db' h => ?_
  obtain ⟨-, ⟨⟩⟩ := require_bind_eq_ok.mp h
  rfl

theorem clearOrphanedResumeRequestedSession_frame (projectId : Int) (codexSessionId : String)
    (now : Nat) :
    Frame { sessionControls := true } db
      (db.clearOrphanedResumeRequestedSession projectId codexSessionId now).db := by
  unfold clearOrphanedResumeRequestedSession
  split
  · exact .refl _ _
  · exact deleteControls_frame ..

theorem clearRunningSessionControl_frame (projectId : Int) (codexSessionId : String)
    (runToken : Option String) :
    Frame { sessionControls := true } db
      (db.clearRunningSessionControl projectId codexSessionId runToken).db := by
  unfold clearRunningSessionControl
  split
  · exact .refl _ _
  · split
    · exact .refl _ _
    · exact deleteControls_frame ..

/-! ## Registration and hand-off -/

theorem registerGitMode_frame {projectId : Int} {codexSessionId runToken : String}
    {gitMode : Option AgentGitMode} {createdAt : String} {r : Registry}
    (h : db.registerGitMode projectId codexSessionId runToken gitMode createdAt = .ok r) :
    Frame { gitFinalizations := true, gitLaunchStates := true, sessionGitModes := true } db r := by
  unfold registerGitMode at h
  split at h
  · cases h
    exact .refl _ _
  · simp only [fetch_bind_eq_ok, require_bind_eq_ok] at h
    obtain ⟨_, -, -, h⟩ := h
    split at h
    · obtain ⟨-, ⟨⟩⟩ := require_bind_eq_ok.mp h
      rfl
    · obtain ⟨_, -, h⟩ := step_bind_eq_ok.mp h
      obtain ⟨-, h⟩ := require_bind_eq_ok.mp h
      split at h
      · obtain ⟨-, ⟨⟩⟩ := require_bind_eq_ok.mp h
        rfl
      · cases h
        rfl

theorem markSessionRunning_frame (projectId : Int) (codexSessionId : String) (childPid : Nat)
    (runToken stdoutPath stderrPath : String) (gitMode : Option AgentGitMode)
    (now createdAt : String) :
    Frame { sessionControls := true, gitFinalizations := true, gitLaunchStates := true,
            sessionGitModes := true } db
      (db.markSessionRunning projectId codexSessionId childPid runToken stdoutPath stderrPath
        gitMode now createdAt).db := by
  refine transaction_frame fun a db' h => ?_
  simp only [require_bind_eq_ok] at h
  obtain ⟨-, -, -, h⟩ := h
  obtain ⟨r, hr, ⟨⟩⟩ := step_bind_eq_ok.mp h
  rw [← registerGitMode_frame hr]
  rfl

theorem registerKnownSessionWithChild_frame (q : AgentKnownSessionRegistration)
    (now freshExpiry : String) :
    Frame { leases := true, sessionControls := true } db
      (db.registerKnownSessionWithChild q now freshExpiry).db := by
  refine transaction_frame fun a db' h => ?_
  simp only [require_bind_eq_ok] at h
  obtain ⟨-, -, h⟩ := h
  split at h <;> obtain ⟨-, ⟨⟩⟩ := require_bind_eq_ok.mp h <;> rfl

theorem claimOrphanedSessionSupervision_frame (expected : SessionControl)
    (holder acquiredAt expiresAt : String) :
    Frame { leases := true } db
      (db.claimOrphanedSessionSupervision expected holder acquiredAt expiresAt).db := by
  refine transaction_frame fun a db' h => ?_
  simp only [require_bind_eq_ok, fetch_bind_eq_ok] at h
  obtain ⟨_, -, _, -, -, -, _, -, -, ⟨⟩⟩ := h
  rfl

theorem finalizeAutomatedSessionAfterExit_frame (q : AutomatedSessionFinalization)
    (acquiredAt expiresAt now : String) :
    Frame { leases := true, sessionControls := true } db
      (db.finalizeAutomatedSessionAfterExit q acquiredAt expiresAt now).db := by
  refine transaction_frame fun a db' h => ?_
  simp only [require_bind_eq_ok, fetch_bind_eq_ok] at h
  obtain ⟨-, _, -, _, -, h⟩ := h
  split at h
  · obtain ⟨_, -, h⟩ := fetch_bind_eq_ok.mp h
    obtain ⟨_, -, h⟩ := step_bind_eq_ok.mp h
    obtain ⟨-, ⟨⟩⟩ := require_bind_eq_ok.mp h
    rfl
  · obtain ⟨-, ⟨⟩⟩ := require_bind_eq_ok.mp h
    rfl

theorem finalizeReattachedAutomatedSession_frame (expected : SessionControl)
    (holder acquiredAt expiresAt now : String) :
    Frame { leases := true, sessionControls := true } db
      (db.finalizeReattachedAutomatedSession expected holder acquiredAt expiresAt now).db := by
  unfold finalizeReattachedAutomatedSession
  split
  · exact finalizeAutomatedSessionAfterExit_frame ..
  · exact .refl _ _

theorem completeSessionInterruptHandoff_frame (projectId : Int)
    (codexSessionId runToken fromHolder acquiredAt expiresAt now : String) :
    Frame { leases := true, sessionControls := true } db
      (db.completeSessionInterruptHandoff projectId codexSessionId runToken fromHolder acquiredAt
        expiresAt now).db := by
  refine transaction_frame fun a db' h => ?_
  simp only [require_bind_eq_ok, fetch_bind_eq_ok] at h
  obtain ⟨_, -, _, -, -, -, ⟨⟩⟩ := h
  rfl

theorem adoptInteractiveGuardian_frame (projectId : Int) (codexSessionId : Option String)
    (fromHolder guardianHolder acquiredAt expiresAt now : String) :
    Frame { leases := true, sessionControls := true } db
      (db.adoptInteractiveGuardian projectId codexSessionId fromHolder guardianHolder acquiredAt
        expiresAt now).db := by
  refine transaction_frame fun a db' h => ?_
  simp only [require_bind_eq_ok, fetch_bind_eq_ok] at h
  obtain ⟨_, -, -, h⟩ := h
  split at h
  · cases h
    rfl
  · obtain ⟨-, ⟨⟩⟩ := require_bind_eq_ok.mp h
    rfl

theorem registerInteractiveGuardianChild_frame (projectId : Int)
    (codexSessionId guardianHolder : String) (childPid : Nat) (now freshExpiry : String) :
    Frame { leases := true, sessionControls := true } db
      (db.registerInteractiveGuardianChild projectId codexSessionId guardianHolder childPid now
        freshExpiry).db := by
  refine transaction_frame fun a db' h => ?_
  simp only [require_bind_eq_ok, fetch_bind_eq_ok] at h
  obtain ⟨_, -, -, -, ⟨⟩⟩ := h
  rfl

theorem finishInteractiveGuardian_frame (projectId : Int) (codexSessionId guardianHolder : String)
    (disposition : InteractiveGuardianDisposition) (now : String) :
    Frame { leases := true, sessionControls := true } db
      (db.finishInteractiveGuardian projectId codexSessionId guardianHolder disposition now).db := by
  refine transaction_frame fun a db' h => ?_
  obtain ⟨-, ⟨⟩⟩ := require_bind_eq_ok.mp h
  rfl

theorem recoverStaleInteractiveGuardian_frame (projectId : Int)
    (codexSessionId guardianHolder : String) (expectedChildPid : Option Nat)
    (disposition : InteractiveGuardianDisposition) (now : String) :
    Frame { leases := true, sessionControls := true } db
      (db.recoverStaleInteractiveGuardian projectId codexSessionId guardianHolder
        expectedChildPid disposition now).db := by
  refine transaction_frame fun a db' h => ?_
  obtain ⟨-, ⟨⟩⟩ := require_bind_eq_ok.mp h
  rfl

theorem recordRunOutcome_frame (outcome : AgentRunOutcome) :
    Frame { projects := true, runs := true } db (db.recordRunOutcome outcome).db := by
  refine transaction_frame fun a db' h => ?_
  obtain ⟨_, -, ⟨⟩⟩ := fetch_bind_eq_ok.mp h
  rfl

/-! ## Leases and workers -/

theorem tryAcquireLease_frame (projectId : Int) (holder acquiredAt expiresAt : String) :
    Frame { leases := true } db (db.tryAcquireLease projectId holder acquiredAt expiresAt).db := by
  unfold tryAcquireLease
  dsimp only
  split <;> rfl

theorem tryAcquireGitFinalizationLease_frame (projectId : Int)
    (holder acquiredAt expiresAt : String) (reclaimHolder : Option String) :
    Frame { leases := true, sessionControls := true } db
      (db.tryAcquireGitFinalizationLease projectId holder acquiredAt expiresAt
        reclaimHolder).db := by
  refine transaction_frame fun a db' h => ?_
  obtain ⟨_, -, ⟨⟩⟩ := step_bind_eq_ok.mp h
  rfl

theorem reserveWorker_frame (r : AgentWorkerReservation) (initialClaim : Option (Nat × String)) :
    Frame { leases := true, agentWorkers := true } db (db.reserveWorker r initialClaim).db := by
  refine transaction_frame fun a db' h => ?_
  simp only [require_bind_eq_ok, fetch_bind_eq_ok] at h
  obtain ⟨-, -, _, -, -, -, h⟩ := h
  split at h
  · cases h
    rfl
  · obtain ⟨-, ⟨⟩⟩ := require_bind_eq_ok.mp h
    rfl

theorem claimWorker_frame (workerToken : String) (workerPid : Nat) (startedAt : String) :
    Frame { agentWorkers := true } db (db.claimWorker workerToken workerPid startedAt).db := by
  unfold claimWorker
  split
  · rfl
  · exact .refl _ _

theorem renewWorker_frame (workerToken : String) (workerPid : Nat)
    (heartbeatAt leaseExpiresAt : String) :
    Frame { leases := true, agentWorkers := true } db
      (db.renewWorker workerToken workerPid heartbeatAt leaseExpiresAt).db := by
  refine transaction_frame fun a db' h => ?_
  simp only [require_bind_eq_ok, fetch_bind_eq_ok] at h
  obtain ⟨_, -, -, -, ⟨⟩⟩ := h
  rfl

theorem recordWorkerRun_frame {outcome : AgentRunOutcome} {workerToken context : String}
    {r : Registry × Int} (h : db.recordWorkerRun outcome workerToken context = .ok r) :
    Frame { projects := true, runs := true } db r.1 := by
  unfold recordWorkerRun at h
  split at h
  · cases h
  · split at h
    · cases h
      rfl
    · split at h <;> cases h
      exact .refl _ _

theorem abandonWorker_frame (q : AgentWorkerAbandonment) :
    Frame { projects := true, runs := true, leases := true, agentWorkers := true } db
      (db.abandonWorker q).db := by
  refine transaction_frame fun a db' h => ?_
  simp only [require_bind_eq_ok, fetch_bind_eq_ok, attempt_bind_eq_ok] at h
  obtain ⟨_, -, -, _, hr, -, -, ⟨⟩⟩ := h
  rw [← recordWorkerRun_frame hr]
  rfl

theorem finalizeWorker_frame (q : AgentWorkerFinalization) :
    Frame { projects := true, runs := true, leases := true, agentWorkers := true } db
      (db.finalizeWorker q).db := by
  refine transaction_frame fun a db' h => ?_
  obtain ⟨_, -, h⟩ := fetch_bind_eq_ok.mp h
  split at h
  · obtain ⟨_, -, ⟨⟩⟩ := fetch_bind_eq_ok.mp h
    exact .refl _ _
  · simp only [require_bind_eq_ok, fetch_bind_eq_ok, attempt_bind_eq_ok] at h
    obtain ⟨-, -, -, _, -, _, hr, -, ⟨⟩⟩ := h
    rw [← recordWorkerRun_frame hr]
    rfl

end Registry

/-- The tables that a call may change. -/
def RegistryOp.writes : RegistryOp → TableSet
  | .createGitFinalization .. => { gitFinalizations := true }
  | .enableSessionGit .. => { gitFinalizations := true, sessionGitModes := true }
  | .compareAndSetGitFinalizationBlocking .. | .compareAndSetOwnedGitFinalization ..
  | .compareAndSetGitFinalizationWithIdentity .. | .trackGitFinalizationWithManifest ..
  | .resealGitFinalizationManifest .. | .recoverGitFinalizationIntent ..
  | .cancelOrphanedWorkingGitFinalization .. =>
    { gitFinalizations := true, sessionControls := true }
  | .beginMissingGitRecovery .. =>
    { gitFinalizations := true, leases := true, sessionControls := true }
  | .finishMissingGitRecovery .. => { projects := true }
  | .retireAbandonedUnboundGitFinalization .. | .retireSupersededWorkingGitFinalization .. =>
    { projects := true, gitFinalizations := true, sessionControls := true }
  | .cancelIdleWorkingGitFinalization .. =>
    { projects := true, leases := true, gitFinalizations := true, sessionControls := true }
  | .acknowledgeCompletedGitFinalizationSession .. =>
    { projects := true, runs := true, gitFinalizations := true, sessionControls := true }
  | .recordGitLaunchState .. | .reclaimUnchangedGitLaunchState .. | .deleteGitLaunchState .. =>
    { gitLaunchStates := true }
  | .recoverUnmanagedSessionGitMode .. => { sessionGitModes := true }
  | .requestSessionInterrupt .. | .cancelSessionInterruptHandoff .. | .requestSessionStop ..
  | .requestInteractiveSessionStop .. | .requestStoppedSessionResume ..
  | .completeSessionStop .. | .transitionSessionControlState ..
  | .recoverStaleAutomatedSessionControl .. | .recoverStaleInteractiveSessionControl ..
  | .registerPlanningSession .. | .registerSharedPlanningSession ..
  | .reserveIdleSessionInteractiveForState .. | .reserveSharedSessionInteractive ..
  | .cancelIdleSessionInteractive .. | .beginStoppedSessionInteractive ..
  | .ensurePendingGitFinalizationResumeRequested .. | .retireCompletedResumeRequest ..
  | .clearOrphanedResumeRequestedSession .. | .clearAutonomousPushResumeRequest ..
  | .clearRunningSessionControl .. => { sessionControls := true }
  | .markSessionRunning .. =>
    { sessionControls := true, gitFinalizations := true, gitLaunchStates := true, sessionGitModes := true }
  | .registerKnownSessionWithChild .. | .finalizeReattachedAutomatedSession ..
  | .finalizeReapedAutomatedSession .. | .completeSessionInterruptHandoff ..
  | .adoptInteractiveGuardian .. | .registerInteractiveGuardianChild ..
  | .finishInteractiveGuardian .. | .recoverStaleInteractiveGuardian ..
  | .tryAcquireGitFinalizationLease .. => { leases := true, sessionControls := true }
  | .claimOrphanedSessionSupervision .. | .tryAcquireLease .. | .renewLease ..
  | .releaseLease .. | .renewGitFinalizationLease .. => { leases := true }
  | .recordRunOutcome .. => { projects := true, runs := true }
  | .reserveWorker .. | .renewWorker .. => { leases := true, agentWorkers := true }
  | .claimWorker .. | .supersedeAbandonedWorkersForLease .. | .markWorkerServiceCleaned .. =>
    { agentWorkers := true }
  | .abandonWorker .. | .finalizeWorker .. =>
    { projects := true, runs := true, leases := true, agentWorkers := true }

/-- A call changes no table outside its write set. -/
theorem RegistryOp.apply_frame (op : RegistryOp) (db : Registry) :
    Frame op.writes db (op.apply db) := by
  cases op with
  | createGitFinalization => exact Registry.createGitFinalization_frame ..
  | enableSessionGit => exact Registry.enableSessionGit_frame ..
  | compareAndSetGitFinalizationBlocking => exact Registry.compareAndSetGitFinalization_frame ..
  | compareAndSetOwnedGitFinalization => exact Registry.compareAndSetGitFinalization_frame ..
  | compareAndSetGitFinalizationWithIdentity =>
    exact Registry.compareAndSetGitFinalization_frame ..
  | trackGitFinalizationWithManifest => exact Registry.compareAndSetGitFinalization_frame ..
  | resealGitFinalizationManifest => exact Registry.compareAndSetGitFinalization_frame ..
  | recoverGitFinalizationIntent => exact Registry.compareAndSetGitFinalization_frame ..
  | beginMissingGitRecovery => exact Registry.beginMissingGitRecovery_frame ..
  | finishMissingGitRecovery => exact Registry.finishMissingGitRecovery_frame ..
  | cancelOrphanedWorkingGitFinalization =>
    exact Registry.cancelOrphanedWorkingGitFinalization_frame ..
  | retireAbandonedUnboundGitFinalization =>
    exact Registry.retireAbandonedUnboundGitFinalization_frame ..
  | retireSupersededWorkingGitFinalization =>
    exact Registry.retireSupersededWorkingGitFinalization_frame ..
  | cancelIdleWorkingGitFinalization => exact Registry.cancelIdleWorkingGitFinalization_frame ..
  | acknowledgeCompletedGitFinalizationSession =>
    exact Registry.acknowledgeCompletedGitFinalizationSession_frame ..
  | recordGitLaunchState => exact Registry.recordGitLaunchState_frame ..
  | reclaimUnchangedGitLaunchState => exact Registry.reclaimUnchangedGitLaunchState_frame ..
  | deleteGitLaunchState => rfl
  | recoverUnmanagedSessionGitMode => exact Registry.recoverUnmanagedSessionGitMode_frame ..
  | requestSessionInterrupt => rfl
  | cancelSessionInterruptHandoff => rfl
  | requestSessionStop => rfl
  | requestInteractiveSessionStop => rfl
  | requestStoppedSessionResume => rfl
  | completeSessionStop => rfl
  | transitionSessionControlState => rfl
  | recoverStaleAutomatedSessionControl => rfl
  | recoverStaleInteractiveSessionControl => rfl
  | registerPlanningSession => exact Registry.insertControl_frame ..
  | registerSharedPlanningSession => exact Registry.insertControl_frame ..
  | reserveIdleSessionInteractiveForState =>
    exact Registry.reserveIdleSessionInteractiveForState_frame ..
  | reserveSharedSessionInteractive => exact Registry.reserveSharedSessionInteractive_frame ..
  | cancelIdleSessionInteractive => exact Registry.cancelIdleSessionInteractive_frame ..
  | beginStoppedSessionInteractive => rfl
  | ensurePendingGitFinalizationResumeRequested =>
    exact Registry.ensurePendingGitFinalizationResumeRequested_frame ..
  | retireCompletedResumeRequest => exact Registry.retireCompletedResumeRequest_frame ..
  | clearOrphanedResumeRequestedSession =>
    exact Registry.clearOrphanedResumeRequestedSession_frame ..
  | clearAutonomousPushResumeRequest => rfl
  | clearRunningSessionControl => exact Registry.clearRunningSessionControl_frame ..
  | markSessionRunning => exact Registry.markSessionRunning_frame ..
  | registerKnownSessionWithChild => exact Registry.registerKnownSessionWithChild_frame ..
  | claimOrphanedSessionSupervision => exact Registry.claimOrphanedSessionSupervision_frame ..
  | finalizeReattachedAutomatedSession =>
    exact Registry.finalizeReattachedAutomatedSession_frame ..
  | finalizeReapedAutomatedSession => exact Registry.finalizeAutomatedSessionAfterExit_frame ..
  | completeSessionInterruptHandoff => exact Registry.completeSessionInterruptHandoff_frame ..
  | adoptInteractiveGuardian => exact Registry.adoptInteractiveGuardian_frame ..
  | registerInteractiveGuardianChild => exact Registry.registerInteractiveGuardianChild_frame ..
  | finishInteractiveGuardian => exact Registry.finishInteractiveGuardian_frame ..
  | recoverStaleInteractiveGuardian => exact Registry.recoverStaleInteractiveGuardian_frame ..
  | recordRunOutcome => exact Registry.recordRunOutcome_frame ..
  | tryAcquireLease => exact Registry.tryAcquireLease_frame ..
  | renewLease => rfl
  | releaseLease => rfl
  | tryAcquireGitFinalizationLease => exact Registry.tryAcquireGitFinalizationLease_frame ..
  | renewGitFinalizationLease => rfl
  | reserveWorker => exact Registry.reserveWorker_frame ..
  | claimWorker => exact Registry.claimWorker_frame ..
  | renewWorker => exact Registry.renewWorker_frame ..
  | supersedeAbandonedWorkersForLease => rfl
  | markWorkerServiceCleaned => rfl
  | abandonWorker => exact Registry.abandonWorker_frame ..
  | finalizeWorker => exact Registry.finalizeWorker_frame ..

end Clt
