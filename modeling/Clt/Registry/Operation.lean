import Clt.Registry.WorkersLeases
import Clt.Transition.Exec

/-!
# The registry as a transition system

Every process of the program (schedulers, workers, guardians, the user interface)
changes the registry only through the repository calls, each of which is atomic:
it holds the registry's writer lock. `RegistryOp` lists these calls with their
arguments, `RegistryOp.apply` is the registry one of them leaves, and a run of
the system is a list of them, in the order in which the lock was taken. A call
that fails, or that finds its guard false, is a step like any other.

The readings of the clock that a call makes are among its arguments, so a run
puts no condition on what the clocks of the processes show.
-/

namespace Clt

open Registry

/-- One call of the agent store. -/
inductive RegistryOp where
  -- Git journals
  | createGitFinalization (n : NewGitFinalization)
  | enableSessionGit (journal : NewGitFinalization) (leaseHolder now : String)
  | compareAndSetGitFinalizationBlocking (projectId : Int) (codexSessionId : String)
      (expectedGeneration : Int) (nextState : GitFinalizationState)
      (ownerRunToken commitOid lastError : Option String) (updatedAt : String)
  | compareAndSetOwnedGitFinalization (projectId : Int) (codexSessionId : String)
      (expectedGeneration : Int) (nextState : GitFinalizationState) (ownerRunToken : String)
      (commitOid lastError : Option String) (updatedAt : String)
  | compareAndSetGitFinalizationWithIdentity (projectId : Int) (codexSessionId : String)
      (expectedGeneration : Int) (nextState : GitFinalizationState) (taskIdentity : String)
      (ownerRunToken : Option String) (updatedAt : String)
  | trackGitFinalizationWithManifest (projectId : Int) (codexSessionId : String)
      (expectedGeneration : Int)
      (taskIdentity worktreeBaseline ownerRunToken updatedAt : String)
  | resealGitFinalizationManifest (projectId : Int) (codexSessionId : String)
      (expectedGeneration : Int)
      (taskIdentity worktreeBaseline ownerRunToken updatedAt : String)
  | recoverGitFinalizationIntent (projectId : Int) (codexSessionId : String)
      (expectedGeneration : Int) (taskIdentity : String) (ownerRunToken : Option String)
      (updatedAt : String)
  | beginMissingGitRecovery (q : MissingGitRecovery)
  | finishMissingGitRecovery (projectId : Int) (holder now : String)
  | cancelOrphanedWorkingGitFinalization (expected : GitFinalization)
      (finalizerHolder reason updatedAt now : String)
  | retireAbandonedUnboundGitFinalization (projectId : Int) (codexSessionId : String)
      (expectedGeneration : Int) (completedTask : Bool) (reason updatedAt : String)
  | retireSupersededWorkingGitFinalization (expected completed : GitFinalization)
      (updatedAt : String)
  | cancelIdleWorkingGitFinalization (projectId : Int) (codexSessionId : String)
      (expectedGeneration : Int) (taskIdentity : Option String)
      (leaseHolder acquiredAt expiresAt : String) (cancellation : GitTaskCancellation)
  | acknowledgeCompletedGitFinalizationSession (projectId : Int)
      (codexSessionId acknowledgedAt : String)
  | recordGitLaunchState (projectId : Int) (runToken : String) (gitMode : AgentGitMode)
      (start : AgentGitStartState) (createdAt : String)
  | reclaimUnchangedGitLaunchState (projectId : Int) (runToken : String)
      (gitMode : AgentGitMode) (start : AgentGitStartState)
  | deleteGitLaunchState (projectId : Int) (runToken : String)
  | recoverUnmanagedSessionGitMode (projectId : Int) (sessionId stderrPath : String)
  -- Session controls
  | requestSessionInterrupt (projectId : Int) (codexSessionId : String) (expectedChildPid : Nat)
      (expectedRunToken interactiveHolder now : String)
  | cancelSessionInterruptHandoff (projectId : Int)
      (codexSessionId interactiveHolder now : String)
  | requestSessionStop (projectId : Int) (codexSessionId : String) (expectedChildPid : Nat)
      (expectedRunToken now : String)
  | requestInteractiveSessionStop (projectId : Int) (codexSessionId : String)
      (expectedChildPid : Nat) (expectedInteractiveHolder now : String)
  | requestStoppedSessionResume (projectId : Int) (codexSessionId : String)
      (expectedRunToken : Option String) (now : String)
  | completeSessionStop (projectId : Int) (codexSessionId runToken now : String)
  | transitionSessionControlState (projectId : Int) (codexSessionId : String)
      (source target : AgentSessionControlState) (now : String)
  | recoverStaleAutomatedSessionControl (projectId : Int) (codexSessionId : String)
      (source target : AgentSessionControlState) (expectedChildPid : Nat)
      (expectedRunToken : Option String) (now : String)
  | recoverStaleInteractiveSessionControl (projectId : Int) (codexSessionId : String)
      (source target : AgentSessionControlState) (expectedInteractiveHolder : Option String)
      (now : String)
  | registerPlanningSession (projectId : Int) (sessionId leaseHolder now : String)
  | registerSharedPlanningSession (projectId : Int) (sessionId now : String)
  | reserveIdleSessionInteractiveForState (projectId : Int)
      (codexSessionId interactiveHolder : String) (expectedStoppedRunToken : Option String)
      (expectedState : Option AgentSessionControlState) (now : String)
  | reserveSharedSessionInteractive (projectId : Int)
      (codexSessionId interactiveHolder : String) (expectedStoppedRunToken : Option String)
      (hasManualOwner : Bool) (now : String)
  | cancelIdleSessionInteractive (projectId : Int) (codexSessionId interactiveHolder now : String)
  | beginStoppedSessionInteractive (projectId : Int) (codexSessionId interactiveHolder : String)
      (expectedRunToken : Option String) (now : String)
  | ensurePendingGitFinalizationResumeRequested (projectId : Int) (codexSessionId now : String)
  | retireCompletedResumeRequest (expected : SessionControl) (now : Nat)
  | clearOrphanedResumeRequestedSession (projectId : Int) (codexSessionId : String) (now : Nat)
  | clearAutonomousPushResumeRequest (projectId : Int) (codexSessionId : String)
  | clearRunningSessionControl (projectId : Int) (codexSessionId : String)
      (runToken : Option String)
  -- Registration and hand-off
  | markSessionRunning (projectId : Int) (codexSessionId : String) (childPid : Nat)
      (runToken stdoutPath stderrPath : String) (gitMode : Option AgentGitMode)
      (now createdAt : String)
  | registerKnownSessionWithChild (q : AgentKnownSessionRegistration) (now freshExpiry : String)
  | claimOrphanedSessionSupervision (expected : SessionControl)
      (holder acquiredAt expiresAt : String)
  | finalizeReattachedAutomatedSession (expected : SessionControl)
      (holder acquiredAt expiresAt now : String)
  | finalizeReapedAutomatedSession (projectId : Int) (expectedChildPid : Nat)
      (expectedRunToken leaseHolder acquiredAt expiresAt now : String)
  | completeSessionInterruptHandoff (projectId : Int)
      (codexSessionId runToken fromHolder acquiredAt expiresAt now : String)
  | adoptInteractiveGuardian (projectId : Int) (codexSessionId : Option String)
      (fromHolder guardianHolder acquiredAt expiresAt now : String)
  | registerInteractiveGuardianChild (projectId : Int) (codexSessionId guardianHolder : String)
      (childPid : Nat) (now freshExpiry : String)
  | finishInteractiveGuardian (projectId : Int) (codexSessionId guardianHolder : String)
      (disposition : InteractiveGuardianDisposition) (now : String)
  | recoverStaleInteractiveGuardian (projectId : Int) (codexSessionId guardianHolder : String)
      (expectedChildPid : Option Nat) (disposition : InteractiveGuardianDisposition)
      (now : String)
  | recordRunOutcome (outcome : AgentRunOutcome)
  -- Leases and workers
  | tryAcquireLease (projectId : Int) (holder acquiredAt expiresAt : String)
  | renewLease (projectId : Int) (holder expiresAt : String)
  | releaseLease (projectId : Int) (holder : String)
  | tryAcquireGitFinalizationLease (projectId : Int) (holder acquiredAt expiresAt : String)
      (reclaimHolder : Option String)
  | renewGitFinalizationLease (projectId : Int) (holder expiresAt : String)
  | reserveWorker (r : AgentWorkerReservation) (initialClaim : Option (Nat × String))
  | claimWorker (workerToken : String) (workerPid : Nat) (startedAt : String)
  | renewWorker (workerToken : String) (workerPid : Nat) (heartbeatAt leaseExpiresAt : String)
  | supersedeAbandonedWorkersForLease (projectId : Int) (expectedLeaseHolder : String)
  | markWorkerServiceCleaned (workerToken cleanedAt : String)
  | abandonWorker (q : AgentWorkerAbandonment)
  | finalizeWorker (q : AgentWorkerFinalization)

namespace RegistryOp

/-- The registry that a call leaves. -/
def apply : RegistryOp → Registry → Registry
  | createGitFinalization n, db => (db.createGitFinalization n).db
  | enableSessionGit journal leaseHolder now, db =>
    (db.enableSessionGit journal leaseHolder now).db
  | compareAndSetGitFinalizationBlocking projectId codexSessionId expectedGeneration nextState
      ownerRunToken commitOid lastError updatedAt, db =>
    (db.compareAndSetGitFinalizationBlocking projectId codexSessionId expectedGeneration
      nextState ownerRunToken commitOid lastError updatedAt).db
  | compareAndSetOwnedGitFinalization projectId codexSessionId expectedGeneration nextState
      ownerRunToken commitOid lastError updatedAt, db =>
    (db.compareAndSetOwnedGitFinalization projectId codexSessionId expectedGeneration
      nextState ownerRunToken commitOid lastError updatedAt).db
  | compareAndSetGitFinalizationWithIdentity projectId codexSessionId expectedGeneration
      nextState taskIdentity ownerRunToken updatedAt, db =>
    (db.compareAndSetGitFinalizationWithIdentity projectId codexSessionId expectedGeneration
      nextState taskIdentity ownerRunToken updatedAt).db
  | trackGitFinalizationWithManifest projectId codexSessionId expectedGeneration taskIdentity
      worktreeBaseline ownerRunToken updatedAt, db =>
    (db.trackGitFinalizationWithManifest projectId codexSessionId expectedGeneration
      taskIdentity worktreeBaseline ownerRunToken updatedAt).db
  | resealGitFinalizationManifest projectId codexSessionId expectedGeneration taskIdentity
      worktreeBaseline ownerRunToken updatedAt, db =>
    (db.resealGitFinalizationManifest projectId codexSessionId expectedGeneration taskIdentity
      worktreeBaseline ownerRunToken updatedAt).db
  | recoverGitFinalizationIntent projectId codexSessionId expectedGeneration taskIdentity
      ownerRunToken updatedAt, db =>
    (db.recoverGitFinalizationIntent projectId codexSessionId expectedGeneration taskIdentity
      ownerRunToken updatedAt).db
  | beginMissingGitRecovery q, db => (db.beginMissingGitRecovery q).db
  | finishMissingGitRecovery projectId holder now, db =>
    (db.finishMissingGitRecovery projectId holder now).db
  | cancelOrphanedWorkingGitFinalization expected finalizerHolder reason updatedAt now, db =>
    (db.cancelOrphanedWorkingGitFinalization expected finalizerHolder reason updatedAt now).db
  | retireAbandonedUnboundGitFinalization projectId codexSessionId expectedGeneration
      completedTask reason updatedAt, db =>
    (db.retireAbandonedUnboundGitFinalization projectId codexSessionId expectedGeneration
      completedTask reason updatedAt).db
  | retireSupersededWorkingGitFinalization expected completed updatedAt, db =>
    (db.retireSupersededWorkingGitFinalization expected completed updatedAt).db
  | cancelIdleWorkingGitFinalization projectId codexSessionId expectedGeneration taskIdentity
      leaseHolder acquiredAt expiresAt cancellation, db =>
    (db.cancelIdleWorkingGitFinalization projectId codexSessionId expectedGeneration
      taskIdentity leaseHolder acquiredAt expiresAt cancellation).db
  | acknowledgeCompletedGitFinalizationSession projectId codexSessionId acknowledgedAt, db =>
    (db.acknowledgeCompletedGitFinalizationSession projectId codexSessionId acknowledgedAt).db
  | recordGitLaunchState projectId runToken gitMode start createdAt, db =>
    (db.recordGitLaunchState projectId runToken gitMode start createdAt).db
  | reclaimUnchangedGitLaunchState projectId runToken gitMode start, db =>
    (db.reclaimUnchangedGitLaunchState projectId runToken gitMode start).db
  | deleteGitLaunchState projectId runToken, db =>
    (db.deleteGitLaunchState projectId runToken).db
  | recoverUnmanagedSessionGitMode projectId sessionId stderrPath, db =>
    (db.recoverUnmanagedSessionGitMode projectId sessionId stderrPath).db
  | requestSessionInterrupt projectId codexSessionId expectedChildPid expectedRunToken
      interactiveHolder now, db =>
    (db.requestSessionInterrupt projectId codexSessionId expectedChildPid expectedRunToken
      interactiveHolder now).db
  | cancelSessionInterruptHandoff projectId codexSessionId interactiveHolder now, db =>
    (db.cancelSessionInterruptHandoff projectId codexSessionId interactiveHolder now).db
  | requestSessionStop projectId codexSessionId expectedChildPid expectedRunToken now, db =>
    (db.requestSessionStop projectId codexSessionId expectedChildPid expectedRunToken now).db
  | requestInteractiveSessionStop projectId codexSessionId expectedChildPid
      expectedInteractiveHolder now, db =>
    (db.requestInteractiveSessionStop projectId codexSessionId expectedChildPid
      expectedInteractiveHolder now).db
  | requestStoppedSessionResume projectId codexSessionId expectedRunToken now, db =>
    (db.requestStoppedSessionResume projectId codexSessionId expectedRunToken now).db
  | completeSessionStop projectId codexSessionId runToken now, db =>
    (db.completeSessionStop projectId codexSessionId runToken now).db
  | transitionSessionControlState projectId codexSessionId source target now, db =>
    (db.transitionSessionControlState projectId codexSessionId source target now).db
  | recoverStaleAutomatedSessionControl projectId codexSessionId source target
      expectedChildPid expectedRunToken now, db =>
    (db.recoverStaleAutomatedSessionControl projectId codexSessionId source target
      expectedChildPid expectedRunToken now).db
  | recoverStaleInteractiveSessionControl projectId codexSessionId source target
      expectedInteractiveHolder now, db =>
    (db.recoverStaleInteractiveSessionControl projectId codexSessionId source target
      expectedInteractiveHolder now).db
  | registerPlanningSession projectId sessionId leaseHolder now, db =>
    (db.registerPlanningSession projectId sessionId leaseHolder now).db
  | registerSharedPlanningSession projectId sessionId now, db =>
    (db.registerSharedPlanningSession projectId sessionId now).db
  | reserveIdleSessionInteractiveForState projectId codexSessionId interactiveHolder
      expectedStoppedRunToken expectedState now, db =>
    (db.reserveIdleSessionInteractiveForState projectId codexSessionId interactiveHolder
      expectedStoppedRunToken expectedState now).db
  | reserveSharedSessionInteractive projectId codexSessionId interactiveHolder
      expectedStoppedRunToken hasManualOwner now, db =>
    (db.reserveSharedSessionInteractive projectId codexSessionId interactiveHolder
      expectedStoppedRunToken hasManualOwner now).db
  | cancelIdleSessionInteractive projectId codexSessionId interactiveHolder now, db =>
    (db.cancelIdleSessionInteractive projectId codexSessionId interactiveHolder now).db
  | beginStoppedSessionInteractive projectId codexSessionId interactiveHolder expectedRunToken
      now, db =>
    (db.beginStoppedSessionInteractive projectId codexSessionId interactiveHolder
      expectedRunToken now).db
  | ensurePendingGitFinalizationResumeRequested projectId codexSessionId now, db =>
    (db.ensurePendingGitFinalizationResumeRequested projectId codexSessionId now).db
  | retireCompletedResumeRequest expected now, db =>
    (db.retireCompletedResumeRequest expected now).db
  | clearOrphanedResumeRequestedSession projectId codexSessionId now, db =>
    (db.clearOrphanedResumeRequestedSession projectId codexSessionId now).db
  | clearAutonomousPushResumeRequest projectId codexSessionId, db =>
    (db.clearAutonomousPushResumeRequest projectId codexSessionId).db
  | clearRunningSessionControl projectId codexSessionId runToken, db =>
    (db.clearRunningSessionControl projectId codexSessionId runToken).db
  | markSessionRunning projectId codexSessionId childPid runToken stdoutPath stderrPath
      gitMode now createdAt, db =>
    (db.markSessionRunning projectId codexSessionId childPid runToken stdoutPath stderrPath
      gitMode now createdAt).db
  | registerKnownSessionWithChild q now freshExpiry, db =>
    (db.registerKnownSessionWithChild q now freshExpiry).db
  | claimOrphanedSessionSupervision expected holder acquiredAt expiresAt, db =>
    (db.claimOrphanedSessionSupervision expected holder acquiredAt expiresAt).db
  | finalizeReattachedAutomatedSession expected holder acquiredAt expiresAt now, db =>
    (db.finalizeReattachedAutomatedSession expected holder acquiredAt expiresAt now).db
  | finalizeReapedAutomatedSession projectId expectedChildPid expectedRunToken leaseHolder
      acquiredAt expiresAt now, db =>
    (db.finalizeReapedAutomatedSession projectId expectedChildPid expectedRunToken leaseHolder
      acquiredAt expiresAt now).db
  | completeSessionInterruptHandoff projectId codexSessionId runToken fromHolder acquiredAt
      expiresAt now, db =>
    (db.completeSessionInterruptHandoff projectId codexSessionId runToken fromHolder
      acquiredAt expiresAt now).db
  | adoptInteractiveGuardian projectId codexSessionId fromHolder guardianHolder acquiredAt
      expiresAt now, db =>
    (db.adoptInteractiveGuardian projectId codexSessionId fromHolder guardianHolder acquiredAt
      expiresAt now).db
  | registerInteractiveGuardianChild projectId codexSessionId guardianHolder childPid now
      freshExpiry, db =>
    (db.registerInteractiveGuardianChild projectId codexSessionId guardianHolder childPid now
      freshExpiry).db
  | finishInteractiveGuardian projectId codexSessionId guardianHolder disposition now, db =>
    (db.finishInteractiveGuardian projectId codexSessionId guardianHolder disposition now).db
  | recoverStaleInteractiveGuardian projectId codexSessionId guardianHolder expectedChildPid
      disposition now, db =>
    (db.recoverStaleInteractiveGuardian projectId codexSessionId guardianHolder
      expectedChildPid disposition now).db
  | recordRunOutcome outcome, db => (db.recordRunOutcome outcome).db
  | tryAcquireLease projectId holder acquiredAt expiresAt, db =>
    (db.tryAcquireLease projectId holder acquiredAt expiresAt).db
  | renewLease projectId holder expiresAt, db => (db.renewLease projectId holder expiresAt).db
  | releaseLease projectId holder, db => (db.releaseLease projectId holder).db
  | tryAcquireGitFinalizationLease projectId holder acquiredAt expiresAt reclaimHolder, db =>
    (db.tryAcquireGitFinalizationLease projectId holder acquiredAt expiresAt reclaimHolder).db
  | renewGitFinalizationLease projectId holder expiresAt, db =>
    (db.renewGitFinalizationLease projectId holder expiresAt).db
  | reserveWorker r initialClaim, db => (db.reserveWorker r initialClaim).db
  | claimWorker workerToken workerPid startedAt, db =>
    (db.claimWorker workerToken workerPid startedAt).db
  | renewWorker workerToken workerPid heartbeatAt leaseExpiresAt, db =>
    (db.renewWorker workerToken workerPid heartbeatAt leaseExpiresAt).db
  | supersedeAbandonedWorkersForLease projectId expectedLeaseHolder, db =>
    (db.supersedeAbandonedWorkersForLease projectId expectedLeaseHolder).db
  | markWorkerServiceCleaned workerToken cleanedAt, db =>
    (db.markWorkerServiceCleaned workerToken cleanedAt).db
  | abandonWorker q, db => (db.abandonWorker q).db
  | finalizeWorker q, db => (db.finalizeWorker q).db

end RegistryOp

/-- The registry after a run. -/
abbrev runOps (ops : List RegistryOp) (db : Registry) : Registry :=
  Transition.exec RegistryOp.apply ops db

/-- A registry with one project and a session running in it under token `t`. -/
def managedRegistry : Registry :=
  { Registry.empty with
    projects := ⟨[
      { id := 1, path := "/p", enabled := true, gitMode := .commitAndPush, lastRunAt := none,
        lastSuccessAt := none, lastFailureAt := none, lastBlockedRecoveryAt := none,
        failureCount := 0, updatedAt := "1" }], by decide⟩
    sessionControls := ⟨[runningControl 1 "s" 7 "t" "out" "err" "1"], by decide⟩ }

end Clt
