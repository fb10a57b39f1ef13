import Clt.Registry.RecoveryFence

/-!
# Fences over runs

The calls that move a session control without its journal, one lemma each, and what
follows for runs: the recovery token of a waiting control is current up to the first
call that returns a control under a stale token (`fencesCurrent_runOps`). Such a token
is what a control keeps that was parked under its journal, taken out of
`resume_requested` and brought back after the journal has moved on.
-/

namespace Clt

open Relational Registry

namespace Registry

variable {db : Registry} {op : RegistryOp}

/-! ## One lemma per call that moves a control -/

theorem updateControls_fenceLaw {where_ : SessionControl → Bool}
    {set : SessionControl → SessionControl} {hset : Compatible where_ set}
    (h : ∀ sc ∈ db.sessionControls, where_ sc = true →
      FenceOrigin op db (db.updateControls where_ set hset).db (set sc)) :
    FenceLaw op db (db.updateControls where_ set hset).db :=
  .of_rewrite rfl rfl h

theorem deleteControls_fenceLaw {where_ : SessionControl → Bool} :
    FenceLaw op db (db.deleteControls where_).db :=
  .of_delete rfl rfl

/-- A control that is inserted waits for nothing, or waits under a current token. -/
theorem insert_fenceLaw {db' : Registry} {projectId : Int} {t : Table SessionControl}
    {r : SessionControl} {res : Table SessionControl × Nat}
    (hins : db.insertOrIgnoreInto projectId t r = some res)
    (hcontrols : db'.sessionControls = res.1) (ht : ∀ sc ∈ t, FenceOrigin op db db' sc)
    (hr : FenceOrigin op db db' r) : FenceLaw op db db' := by
  constructor
  intro sc' hmem
  rw [hcontrols, insertOrIgnoreInto_eq_some hins] at hmem
  rcases Table.mem_insertOrIgnore hmem with hmem | rfl
  · exact ht sc' hmem
  · exact hr

theorem insertControl_fenceLaw {where_ : Bool} {sc : SessionControl} {context : String}
    (h : sc.state ≠ .resumeRequested) :
    FenceLaw op db (db.insertControl where_ sc context).db := by
  refine transaction_fenceLaw fun a db' hbody => ?_
  simp only [require_bind_eq_ok, fetch_bind_eq_ok] at hbody
  obtain ⟨-, _, hins, ⟨⟩⟩ := hbody
  exact insert_fenceLaw hins rfl (fun sc hsc => .of_kept hsc rfl) (.of_state h)

theorem cancelSessionInterruptHandoff_fenceLaw {projectId : Int}
    {codexSessionId interactiveHolder now : String}
    (hop : op = .cancelSessionInterruptHandoff projectId codexSessionId interactiveHolder
      now) :
    FenceLaw op db
      (db.cancelSessionInterruptHandoff projectId codexSessionId interactiveHolder now).db := by
  refine updateControls_fenceLaw fun sc hsc hP => ?_
  simp only [Bool.and_eq_true, Bool.or_eq_true, decide_eq_true_eq] at hP
  rcases hP.1.2 with hstate | hstate
  · refine .of_state ?_
    simp [hstate]
  · refine .returned hsc ?_ ⟨rfl, rfl⟩ rfl rfl
    rw [hop]
    simp only [RegistryOp.returnsControl, hP.1.1, hstate, hP.2, decide_true, Bool.and_self]

theorem transitionSessionControlState_fenceLaw {projectId : Int} {codexSessionId : String}
    {source target : AgentSessionControlState} {now : String}
    (hop : op = .transitionSessionControlState projectId codexSessionId source target now) :
    FenceLaw op db
      (db.transitionSessionControlState projectId codexSessionId source target now).db := by
  refine updateControls_fenceLaw fun sc hsc hP => ?_
  simp only [Bool.and_eq_true, decide_eq_true_eq] at hP
  by_cases htarget : target = .resumeRequested
  · cases hholder : sc.interactiveHolder with
    | some holder =>
      -- The raw transition keeps the interactive owner, so the request is not idle.
      refine .other ?_
      simp [SessionControl.awaitsResume, SessionControl.isIdle]
    | none =>
      refine .returned hsc ?_ ⟨rfl, rfl⟩ rfl rfl
      rw [hop]
      simp only [RegistryOp.returnsControl, hP.1, hP.2, htarget, hholder, decide_true,
        Option.isNone_none, Bool.and_self]
  · exact .of_state htarget

theorem recoverStaleAutomatedSessionControl_fenceLaw {projectId : Int}
    {codexSessionId : String} {source target : AgentSessionControlState}
    {expectedChildPid : Nat} {expectedRunToken : Option String} {now : String}
    (hop : op = .recoverStaleAutomatedSessionControl projectId codexSessionId source target
      expectedChildPid expectedRunToken now) :
    FenceLaw op db
      (db.recoverStaleAutomatedSessionControl projectId codexSessionId source target
        expectedChildPid expectedRunToken now).db := by
  refine updateControls_fenceLaw fun sc hsc hP => ?_
  simp only [Bool.and_eq_true, decide_eq_true_eq] at hP
  by_cases htarget : target = .resumeRequested
  · refine .returned hsc ?_ ⟨rfl, rfl⟩ rfl rfl
    rw [hop]
    simp only [RegistryOp.returnsControl, hP.1.1.1, hP.1.1.2, htarget, hP.1.2, hP.2,
      decide_true, Bool.and_self]
  · exact .of_state htarget

theorem recoverStaleInteractiveSessionControl_fenceLaw {projectId : Int}
    {codexSessionId : String} {source target : AgentSessionControlState}
    {expectedInteractiveHolder : Option String} {now : String}
    (hop : op = .recoverStaleInteractiveSessionControl projectId codexSessionId source target
      expectedInteractiveHolder now) :
    FenceLaw op db
      (db.recoverStaleInteractiveSessionControl projectId codexSessionId source target
        expectedInteractiveHolder now).db := by
  refine updateControls_fenceLaw fun sc hsc hP => ?_
  simp only [Bool.and_eq_true, decide_eq_true_eq] at hP
  by_cases htarget : target = .resumeRequested
  · refine .returned hsc ?_ ⟨rfl, rfl⟩ rfl rfl
    rw [hop]
    simp only [RegistryOp.returnsControl, hP.1.1, hP.1.2, htarget, hP.2, decide_true,
      Bool.and_self]
  · exact .of_state htarget

theorem requestStoppedSessionResume_fenceLaw {projectId : Int} {codexSessionId : String}
    {expectedRunToken : Option String} {now : String}
    (hop : op = .requestStoppedSessionResume projectId codexSessionId expectedRunToken now) :
    FenceLaw op db
      (db.requestStoppedSessionResume projectId codexSessionId expectedRunToken now).db := by
  refine updateControls_fenceLaw fun sc hsc hP => .returned hsc ?_ ⟨rfl, rfl⟩ rfl rfl
  rw [hop, RegistryOp.returnsControl_requestStoppedSessionResume]
  exact hP

theorem reserveIdleSessionInteractiveForState_fenceLaw (projectId : Int)
    (codexSessionId interactiveHolder : String) (expectedStoppedRunToken : Option String)
    (expectedState : Option AgentSessionControlState) (now : String) :
    FenceLaw op db
      (db.reserveIdleSessionInteractiveForState projectId codexSessionId interactiveHolder
        expectedStoppedRunToken expectedState now).db := by
  unfold reserveIdleSessionInteractiveForState
  split
  · exact updateControls_fenceLaw fun sc _ _ => .of_state (by rintro ⟨⟩)
  · exact insertControl_fenceLaw (by rintro ⟨⟩)

theorem reserveSharedSessionInteractive_fenceLaw (projectId : Int)
    (codexSessionId interactiveHolder : String) (expectedStoppedRunToken : Option String)
    (hasManualOwner : Bool) (now : String) :
    FenceLaw op db
      (db.reserveSharedSessionInteractive projectId codexSessionId interactiveHolder
        expectedStoppedRunToken hasManualOwner now).db := by
  unfold reserveSharedSessionInteractive
  split
  · exact updateControls_fenceLaw fun sc _ _ => .of_state (by rintro ⟨⟩)
  · exact insertControl_fenceLaw (by rintro ⟨⟩)

theorem cancelIdleSessionInteractive_fenceLaw (projectId : Int)
    (codexSessionId interactiveHolder now : String) :
    FenceLaw op db
      (db.cancelIdleSessionInteractive projectId codexSessionId interactiveHolder now).db := by
  unfold cancelIdleSessionInteractive
  dsimp only
  split
  · exact updateControls_fenceLaw fun sc _ _ => .of_state (by rintro ⟨⟩)
  · exact deleteControls_fenceLaw

/-- A control that is tagged waits under the generation of its session's journal. -/
theorem fenceCurrent_of_journal {db' : Registry} {sc : SessionControl} {g : GitFinalization}
    (hj : db'.gitFinalizations = db.gitFinalizations) (hg : g ∈ db.gitFinalizations)
    (hkey : g.is sc.projectId sc.codexSessionId = true) (hopen : g.state.isUnfinished = true)
    (htoken : sc.runToken = some (recoveryToken g.generation)) : db'.fenceCurrent sc = true := by
  refine Table.any_iff.mpr ⟨g, hj ▸ hg, ?_⟩
  rw [GitFinalization.fences, hkey, hopen, htoken, Bool.true_and, Bool.true_and]
  exact sqlEq_some.mpr rfl

theorem ensurePendingGitFinalizationResumeRequested_fenceLaw (projectId : Int)
    (codexSessionId now : String) :
    FenceLaw op db
      (db.ensurePendingGitFinalizationResumeRequested projectId codexSessionId now).db := by
  refine transaction_fenceLaw fun a db' h => ?_
  simp only [fetch_bind_eq_ok, attempt_bind_eq_ok] at h
  obtain ⟨journal, hfound, _, hread, _, hins, ⟨⟩⟩ := h
  obtain ⟨-, rfl⟩ := GitFinalization.recordFromRow_eq_ok.mp hread
  have hjournal := Table.of_find? hfound
  rw [Bool.and_eq_true] at hjournal
  have hkey : ∀ {sc : SessionControl}, sc.projectId = projectId →
      sc.codexSessionId = codexSessionId →
        journal.is sc.projectId sc.codexSessionId = true := by
    rintro sc rfl rfl
    exact hjournal.1
  refine insert_fenceLaw hins rfl (.of_mem_rewrite rfl rfl fun sc hsc hP => ?_)
    (.current (fenceCurrent_of_journal rfl (Table.mem_of_find? hfound) (hkey rfl rfl)
      hjournal.2 rfl))
  simp only [SessionControl.is, Bool.and_eq_true, beq_iff_eq] at hP
  exact .current (fenceCurrent_of_journal rfl (Table.mem_of_find? hfound)
    (hkey hP.1.1.1.1 hP.1.1.1.2) hjournal.2 rfl)

theorem retireCompletedResumeRequest_fenceLaw (expected : SessionControl) (now : Nat) :
    FenceLaw op db (db.retireCompletedResumeRequest expected now).db := by
  refine transaction_fenceLaw fun a db' h => ?_
  obtain ⟨-, ⟨⟩⟩ := require_bind_eq_ok.mp h
  exact .of_rewrite rfl rfl fun sc _ _ => .of_state nofun

theorem clearOrphanedResumeRequestedSession_fenceLaw (projectId : Int)
    (codexSessionId : String) (now : Nat) :
    FenceLaw op db
      (db.clearOrphanedResumeRequestedSession projectId codexSessionId now).db := by
  unfold clearOrphanedResumeRequestedSession
  split
  · exact .refl _ _
  · exact deleteControls_fenceLaw

theorem clearRunningSessionControl_fenceLaw (projectId : Int) (codexSessionId : String)
    (runToken : Option String) :
    FenceLaw op db (db.clearRunningSessionControl projectId codexSessionId runToken).db := by
  unfold clearRunningSessionControl
  split
  · exact .refl _ _
  split
  · exact .refl _ _
  · exact deleteControls_fenceLaw

theorem registerKnownSessionWithChild_fenceLaw (q : AgentKnownSessionRegistration)
    (now freshExpiry : String) :
    FenceLaw op db (db.registerKnownSessionWithChild q now freshExpiry).db := by
  refine transaction_fenceLaw fun a db' h => ?_
  simp only [require_bind_eq_ok] at h
  obtain ⟨-, -, h⟩ := h
  split at h
  · obtain ⟨-, ⟨⟩⟩ := require_bind_eq_ok.mp h
    exact .of_rewrite rfl rfl fun sc _ _ => .of_state (by rintro ⟨⟩)
  · obtain ⟨-, ⟨⟩⟩ := require_bind_eq_ok.mp h
    exact .of_upsert rfl (by rintro ⟨⟩) (fun _ => (by rintro ⟨⟩)) fun sc hsc _ => .of_kept hsc rfl

/-- A process that exits while its session runs returns the session, and no other exit
does. -/
theorem finalizeAutomatedSessionAfterExit_fenceLaw {q : AutomatedSessionFinalization}
    {acquiredAt expiresAt now : String}
    (hop : ∀ sc : SessionControl, sc.projectId = q.projectId →
      sqlEq sc.childPid (some q.expectedChildPid) = true →
      sqlEq sc.runToken (some q.expectedRunToken) = true →
      (q.reattachedSessionId = none ∨ q.reattachedSessionId = some sc.codexSessionId) →
      sc.interactiveLaunchToken = none → sc.state = .running →
      op.returnsControl sc = true) :
    FenceLaw op db (db.finalizeAutomatedSessionAfterExit q acquiredAt expiresAt now).db := by
  refine transaction_fenceLaw fun a db' h => ?_
  simp only [require_bind_eq_ok, fetch_bind_eq_ok] at h
  obtain ⟨-, control, hcontrol, terminalState, hterminal, h⟩ := h
  have hfound := Table.of_find? hcontrol
  simp only [Bool.and_eq_true, Bool.or_eq_true, beq_iff_eq, sqlEq_some_left,
    Option.isNone_iff_eq_none] at hfound
  -- The update finds the very control that the call has read.
  have horigin : ∀ {db' : Registry} {holder : Option String} {sc : SessionControl},
      db'.gitFinalizations = db.gitFinalizations → sc ∈ db.sessionControls →
      (sc.is q.projectId control.codexSessionId && decide (sc.state = control.state) &&
        sqlEq sc.childPid (some q.expectedChildPid) &&
        sqlEq sc.runToken (some q.expectedRunToken)) = true →
      FenceOrigin op db db'
        { sc with
          state := terminalState, childPid := none, interactiveHolder := holder,
          updatedAt := now } := by
    intro db' holder sc hj hsc hP
    simp only [Bool.and_eq_true] at hP
    obtain rfl : sc = control := eq_of_is hsc (Table.mem_of_find? hcontrol) hP.1.1.1
      (by simp [SessionControl.is, hfound.1.1.1])
    cases hlaunch : sc.interactiveLaunchToken with
    | some token =>
      refine .other ?_
      simp [SessionControl.awaitsResume, SessionControl.isIdle]
    | none =>
      cases hs : sc.state <;> rw [hs] at hterminal <;> cases hterminal
      · refine .returned hsc (hop sc hfound.1.1.1 hfound.1.1.2 hfound.1.2 ?_ hlaunch hs)
          ⟨rfl, rfl⟩ rfl hj
        exact hfound.2.imp_right fun h => h.1
      · exact .of_state (by rintro ⟨⟩)
      · exact .of_state (by rintro ⟨⟩)
  split at h
  · obtain ⟨_, -, h⟩ := fetch_bind_eq_ok.mp h
    obtain ⟨_, -, h⟩ := step_bind_eq_ok.mp h
    obtain ⟨-, ⟨⟩⟩ := require_bind_eq_ok.mp h
    exact .of_rewrite rfl rfl fun sc hsc hP => horigin rfl hsc hP
  · obtain ⟨-, ⟨⟩⟩ := require_bind_eq_ok.mp h
    exact .of_rewrite rfl rfl fun sc hsc hP => horigin rfl hsc hP

theorem finalizeReattachedAutomatedSession_fenceLaw {expected : SessionControl}
    {holder acquiredAt expiresAt now : String}
    (hop : op = .finalizeReattachedAutomatedSession expected holder acquiredAt expiresAt now) :
    FenceLaw op db
      (db.finalizeReattachedAutomatedSession expected holder acquiredAt expiresAt now).db := by
  unfold finalizeReattachedAutomatedSession
  split
  · rename_i childPid runToken hchild htoken
    refine finalizeAutomatedSessionAfterExit_fenceLaw
      fun sc hproject hpid hrun hsession hlaunch hstate => ?_
    have hsame : sc.codexSessionId = expected.codexSessionId :=
      (Option.some.inj (hsession.resolve_left nofun)).symm
    rw [hop]
    simp only [RegistryOp.returnsControl, SessionControl.is, hproject, hsame, hchild, htoken,
      hpid, hrun, hlaunch, hstate, beq_self_eq_true, decide_true, Option.isNone_none,
      Bool.and_self]
  · exact .refl _ _

theorem finalizeReapedAutomatedSession_fenceLaw {projectId : Int} {expectedChildPid : Nat}
    {expectedRunToken leaseHolder acquiredAt expiresAt now : String}
    (hop : op = .finalizeReapedAutomatedSession projectId expectedChildPid expectedRunToken
      leaseHolder acquiredAt expiresAt now) :
    FenceLaw op db
      (db.finalizeReapedAutomatedSession projectId expectedChildPid expectedRunToken
        leaseHolder acquiredAt expiresAt now).db := by
  refine finalizeAutomatedSessionAfterExit_fenceLaw fun sc hproject hpid hrun _ hlaunch hstate => ?_
  rw [hop]
  simp only [RegistryOp.returnsControl, hproject, hpid, hrun, hlaunch, hstate, beq_self_eq_true,
    decide_true, Option.isNone_none, Bool.and_self]

theorem completeSessionInterruptHandoff_fenceLaw (projectId : Int)
    (codexSessionId runToken fromHolder acquiredAt expiresAt now : String) :
    FenceLaw op db
      (db.completeSessionInterruptHandoff projectId codexSessionId runToken fromHolder acquiredAt
        expiresAt now).db := by
  refine transaction_fenceLaw fun a db' h => ?_
  simp only [require_bind_eq_ok, fetch_bind_eq_ok] at h
  obtain ⟨_, -, _, -, -, -, ⟨⟩⟩ := h
  exact .of_rewrite rfl rfl fun sc _ _ => .of_state (by rintro ⟨⟩)

theorem adoptInteractiveGuardian_fenceLaw (projectId : Int) (codexSessionId : Option String)
    (fromHolder guardianHolder acquiredAt expiresAt now : String) :
    FenceLaw op db
      (db.adoptInteractiveGuardian projectId codexSessionId fromHolder guardianHolder acquiredAt
        expiresAt now).db := by
  refine transaction_fenceLaw fun a db' h => ?_
  simp only [require_bind_eq_ok, fetch_bind_eq_ok] at h
  obtain ⟨_, -, -, h⟩ := h
  split at h
  · cases h
    exact .of_journals rfl fun g hg _ => hg
  · obtain ⟨-, ⟨⟩⟩ := require_bind_eq_ok.mp h
    exact .of_rewrite rfl rfl fun sc _ _ => .of_state (by rintro ⟨⟩)

theorem registerInteractiveGuardianChild_fenceLaw (projectId : Int)
    (codexSessionId guardianHolder : String) (childPid : Nat) (now freshExpiry : String) :
    FenceLaw op db
      (db.registerInteractiveGuardianChild projectId codexSessionId guardianHolder childPid now
        freshExpiry).db := by
  refine transaction_fenceLaw fun a db' h => ?_
  simp only [require_bind_eq_ok, fetch_bind_eq_ok] at h
  obtain ⟨_, -, -, -, ⟨⟩⟩ := h
  -- The control keeps its state, which is that of a guardian without a child.
  refine .of_rewrite rfl rfl fun sc _ hP => .of_state ?_
  simp only [awaitsChild, Bool.and_eq_true, decide_eq_true_eq] at hP
  show sc.state ≠ _
  rw [hP.1.1.1.2]
  nofun

/-- The end of a guardian returns the session only when it had interrupted a run. -/
theorem endInteractive_fenceOrigin {db' : Registry} {projectId : Int}
    {codexSessionId guardianHolder now : String} {disposition : InteractiveGuardianDisposition}
    {sc : SessionControl} (hj : db'.gitFinalizations = db.gitFinalizations)
    (hsc : sc ∈ db.sessionControls)
    (hguarded : guardedControl projectId codexSessionId guardianHolder sc = true)
    (hop : disposition = .resumeExec → sc.state = .interactive →
      op.returnsControl sc = true) :
    FenceOrigin op db db' (endInteractive disposition now sc) := by
  by_cases hends : disposition = .resumeExec ∧ sc.state = .interactive
  · exact .returned hsc (hop hends.1 hends.2) ⟨rfl, rfl⟩ rfl hj
  · refine .of_state ?_
    have hstops : (disposition = .resumeExec && sc.state != .stopRequested) = false := by
      simp only [guardedControl, Bool.and_eq_true, Bool.or_eq_true, decide_eq_true_eq]
        at hguarded
      rcases hguarded.1.2 with hs | hs
      · have hne : disposition ≠ .resumeExec := fun hd => hends ⟨hd, hs⟩
        simp [hne]
      · simp [hs]
    simp [Registry.endInteractive, SessionControl.settle, hstops]

theorem finishInteractiveGuardian_fenceLaw {projectId : Int}
    {codexSessionId guardianHolder : String} {disposition : InteractiveGuardianDisposition}
    {now : String}
    (hop : op = .finishInteractiveGuardian projectId codexSessionId guardianHolder disposition
      now) :
    FenceLaw op db
      (db.finishInteractiveGuardian projectId codexSessionId guardianHolder disposition
        now).db := by
  refine transaction_fenceLaw fun a db' h => ?_
  obtain ⟨-, ⟨⟩⟩ := require_bind_eq_ok.mp h
  refine .of_rewrite rfl rfl fun sc hsc hP =>
    endInteractive_fenceOrigin rfl hsc hP fun hd hs => ?_
  rw [hop]
  simp only [RegistryOp.returnsControl, hP, hd, hs, decide_true, Bool.and_self]

theorem recoverStaleInteractiveGuardian_fenceLaw {projectId : Int}
    {codexSessionId guardianHolder : String} {expectedChildPid : Option Nat}
    {disposition : InteractiveGuardianDisposition} {now : String}
    (hop : op = .recoverStaleInteractiveGuardian projectId codexSessionId guardianHolder
      expectedChildPid disposition now) :
    FenceLaw op db
      (db.recoverStaleInteractiveGuardian projectId codexSessionId guardianHolder
        expectedChildPid disposition now).db := by
  refine transaction_fenceLaw fun a db' h => ?_
  obtain ⟨-, ⟨⟩⟩ := require_bind_eq_ok.mp h
  refine .of_rewrite rfl rfl fun sc hsc hP => ?_
  simp only [Bool.and_eq_true] at hP
  refine endInteractive_fenceOrigin rfl hsc hP.1.1 fun hd hs => ?_
  rw [hop]
  simp only [RegistryOp.returnsControl, hP.1.1, hP.1.2, hP.2, hd, hs, decide_true,
    Bool.and_self]

/-- The repair writes the current token of the session's own journal. -/
theorem repairRecoveryFences_fenceOrigin {db' : Registry} {projectId : Int}
    {acquiredAt : String} (hj : db'.gitFinalizations = db.gitFinalizations) :
    ∀ sc' ∈ (db.repairRecoveryFences projectId acquiredAt).sessionControls,
      FenceOrigin op db db' sc' := by
  refine .of_mem_rewrite rfl hj fun sc _ hP => .current ?_
  simp only [Bool.and_eq_true, Option.isSome_iff_exists] at hP
  obtain ⟨-, g, hg⟩ := hP
  have hpending := Table.of_find? hg
  rw [Bool.and_eq_true] at hpending
  exact fenceCurrent_of_journal hj (Table.mem_of_find? hg) hpending.1 hpending.2
    (congrArg (Option.map fun g => recoveryToken g.generation) hg)

theorem tryAcquireGitFinalizationLease_fenceLaw (projectId : Int)
    (holder acquiredAt expiresAt : String) (reclaimHolder : Option String) :
    FenceLaw op db
      (db.tryAcquireGitFinalizationLease projectId holder acquiredAt expiresAt
        reclaimHolder).db := by
  refine transaction_fenceLaw fun a db' h => ?_
  obtain ⟨_, -, ⟨⟩⟩ := step_bind_eq_ok.mp h
  exact ⟨repairRecoveryFences_fenceOrigin rfl⟩

end Registry

/-- Every call leaves the controls that `FenceLaw` lets it leave. -/
theorem RegistryOp.fenceLaw (op : RegistryOp) (db : Registry) : FenceLaw op db (op.apply db) := by
  have hframe : op.writes.sessionControls = false → op.writes.gitFinalizations = false →
      FenceLaw op db (op.apply db) := by
    intro hcontrols hjournals
    have hj := (op.apply_frame db).gitFinalizations hjournals
    exact .of_journals ((op.apply_frame db).sessionControls hcontrols) fun g hg _ => hj ▸ hg
  cases op with
  | createGitFinalization => exact createGitFinalization_fenceLaw ..
  | enableSessionGit => exact enableSessionGit_fenceLaw ..
  | compareAndSetGitFinalizationBlocking => exact compareAndSetGitFinalization_fenceLaw ..
  | compareAndSetOwnedGitFinalization => exact compareAndSetGitFinalization_fenceLaw ..
  | compareAndSetGitFinalizationWithIdentity => exact compareAndSetGitFinalization_fenceLaw ..
  | trackGitFinalizationWithManifest => exact compareAndSetGitFinalization_fenceLaw ..
  | resealGitFinalizationManifest => exact compareAndSetGitFinalization_fenceLaw ..
  | recoverGitFinalizationIntent => exact compareAndSetGitFinalization_fenceLaw ..
  | beginMissingGitRecovery => exact beginMissingGitRecovery_fenceLaw ..
  | cancelOrphanedWorkingGitFinalization =>
    exact cancelOrphanedWorkingGitFinalization_fenceLaw ..
  | retireAbandonedUnboundGitFinalization =>
    exact retireAbandonedUnboundGitFinalization_fenceLaw ..
  | retireSupersededWorkingGitFinalization =>
    exact retireSupersededWorkingGitFinalization_fenceLaw ..
  | cancelIdleWorkingGitFinalization => exact cancelIdleWorkingGitFinalization_fenceLaw ..
  | acknowledgeCompletedGitFinalizationSession =>
    exact acknowledgeCompletedGitFinalizationSession_fenceLaw ..
  | requestSessionInterrupt => exact updateControls_fenceLaw fun sc _ _ => .of_state nofun
  | cancelSessionInterruptHandoff => exact cancelSessionInterruptHandoff_fenceLaw rfl
  | requestSessionStop => exact updateControls_fenceLaw fun sc _ _ => .of_state nofun
  | requestInteractiveSessionStop =>
    exact updateControls_fenceLaw fun sc _ _ => .of_state nofun
  | requestStoppedSessionResume => exact requestStoppedSessionResume_fenceLaw rfl
  | completeSessionStop => exact updateControls_fenceLaw fun sc _ _ => .of_state nofun
  | transitionSessionControlState => exact transitionSessionControlState_fenceLaw rfl
  | recoverStaleAutomatedSessionControl =>
    exact recoverStaleAutomatedSessionControl_fenceLaw rfl
  | recoverStaleInteractiveSessionControl =>
    exact recoverStaleInteractiveSessionControl_fenceLaw rfl
  | registerPlanningSession => exact insertControl_fenceLaw nofun
  | registerSharedPlanningSession => exact insertControl_fenceLaw nofun
  | reserveIdleSessionInteractiveForState =>
    exact reserveIdleSessionInteractiveForState_fenceLaw ..
  | reserveSharedSessionInteractive => exact reserveSharedSessionInteractive_fenceLaw ..
  | cancelIdleSessionInteractive => exact cancelIdleSessionInteractive_fenceLaw ..
  | beginStoppedSessionInteractive =>
    exact updateControls_fenceLaw fun sc _ _ => .of_state nofun
  | ensurePendingGitFinalizationResumeRequested =>
    exact ensurePendingGitFinalizationResumeRequested_fenceLaw ..
  | retireCompletedResumeRequest => exact retireCompletedResumeRequest_fenceLaw ..
  | clearOrphanedResumeRequestedSession => exact clearOrphanedResumeRequestedSession_fenceLaw ..
  | clearAutonomousPushResumeRequest => exact deleteControls_fenceLaw
  | clearRunningSessionControl => exact clearRunningSessionControl_fenceLaw ..
  | markSessionRunning => exact markSessionRunning_fenceLaw ..
  | registerKnownSessionWithChild => exact registerKnownSessionWithChild_fenceLaw ..
  | finalizeReattachedAutomatedSession => exact finalizeReattachedAutomatedSession_fenceLaw rfl
  | finalizeReapedAutomatedSession => exact finalizeReapedAutomatedSession_fenceLaw rfl
  | completeSessionInterruptHandoff => exact completeSessionInterruptHandoff_fenceLaw ..
  | adoptInteractiveGuardian => exact adoptInteractiveGuardian_fenceLaw ..
  | registerInteractiveGuardianChild => exact registerInteractiveGuardianChild_fenceLaw ..
  | finishInteractiveGuardian => exact finishInteractiveGuardian_fenceLaw rfl
  | recoverStaleInteractiveGuardian => exact recoverStaleInteractiveGuardian_fenceLaw rfl
  | tryAcquireGitFinalizationLease => exact tryAcquireGitFinalizationLease_fenceLaw ..
  | _ => exact hframe rfl rfl

/-! ## Runs -/

section Runs

variable {op : RegistryOp} {db : Registry}

/-- A call that returns no stale token keeps every fence current. -/
theorem fencesCurrent_apply (h : db.FencesCurrent) (hstale : op.returnsStaleFence db = false) :
    (op.apply db).FencesCurrent := by
  intro sc' hmem hwaits hfenced
  exact ((op.fenceLaw db).origin sc' hmem).fenceCurrent h hstale hwaits hfenced

/-- The calls that write a journal return no control. -/
theorem RegistryOp.returnsControl_of_writes (h : op.writes.gitFinalizations = true)
    (sc : SessionControl) : op.returnsControl sc = false := by
  cases op <;> first | rfl | cases h

/-- A call that moves or ends a journal takes its fence along in the same transaction. -/
theorem fencesCurrent_of_writes (h : db.FencesCurrent)
    (hwrites : op.writes.gitFinalizations = true) : (op.apply db).FencesCurrent := by
  refine fencesCurrent_apply h (Table.any_eq_false_iff.mpr fun sc _ => ?_)
  rw [op.returnsControl_of_writes hwrites sc, Bool.false_and, Bool.false_and]

/-- Over a run every fence is current up to the first call that returns a stale one. -/
theorem fencesCurrent_runOps (ops : List RegistryOp) (h : db.FencesCurrent) :
    (runOps ops db).FencesCurrent ∨
    ∃ pre op post, ops = pre ++ op :: post ∧ (runOps pre db).FencesCurrent ∧
      op.returnsStaleFence (runOps pre db) = true := by
  by_cases hend : (runOps ops db).FencesCurrent
  · exact .inl hend
  · obtain ⟨pre, op, post, hops, hbefore, hafter⟩ :=
      Transition.exists_crossing (P := fun s : Registry => ¬ s.FencesCurrent)
        (not_not.mpr h) hend
    refine .inr ⟨pre, op, post, hops, not_not.mp hbefore, ?_⟩
    by_contra hstale
    rw [Bool.not_eq_true] at hstale
    exact hafter (fencesCurrent_apply (not_not.mp hbefore) hstale)

/-- The session's journal is not finished. -/
def Registry.hasPendingJournal (db : Registry) (sc : SessionControl) : Bool :=
  db.gitFinalizations.any fun g => g.is sc.projectId sc.codexSessionId && g.state.isUnfinished

/-- The repair leaves no stale fence of a pending journal in the project. -/
theorem fenceCurrent_of_repair {projectId : Int} {acquiredAt : String} {sc' : SessionControl}
    (hmem : sc' ∈ (db.repairRecoveryFences projectId acquiredAt).sessionControls)
    (hproject : sc'.projectId = projectId) (hwaits : sc'.awaitsResume = true)
    (hfenced : sc'.isFenced = true) (hpending : db.hasPendingJournal sc' = true) :
    db.fenceCurrent sc' = true := by
  obtain ⟨sc, hsc, rfl⟩ := List.mem_map.mp hmem
  unfold Table.rewrite at hproject hwaits hfenced hpending ⊢
  split
  · rename_i hP
    simp only [Bool.and_eq_true, Option.isSome_iff_exists] at hP
    obtain ⟨-, g, hg⟩ := hP
    have hjournal := Table.of_find? hg
    rw [Bool.and_eq_true] at hjournal
    exact fenceCurrent_of_journal rfl (Table.mem_of_find? hg) hjournal.1 hjournal.2
      (congrArg (Option.map fun g => recoveryToken g.generation) hg)
  · -- A control that meets every condition of the repair is not passed over.
    rename_i hskipped
    rw [if_neg hskipped] at hproject hwaits hfenced hpending
    obtain rfl := hproject
    simp only [SessionControl.awaitsResume, Bool.and_eq_true] at hwaits
    obtain ⟨g, hg, hjournal⟩ := Table.any_iff.mp hpending
    have hfound : (db.gitFinalizations.find? fun g =>
        g.is sc.projectId sc.codexSessionId && g.state.isUnfinished).isSome = true := by
      rw [Option.isSome_iff_ne_none]
      intro hnone
      rw [Table.find?_eq_none_iff.mp hnone g hg] at hjournal
      cases hjournal
    refine absurd ?_ hskipped
    rw [SessionControl.isFenced] at hfenced
    simp only [hwaits.1, hwaits.2, hfenced, hfound, beq_self_eq_true, Bool.and_self]

/-- Whoever takes the finalizer's lease, or is told that it is taken, leaves no stale
fence of a pending journal in the project. -/
theorem fenceCurrent_of_tryAcquireGitFinalizationLease {projectId : Int}
    {holder acquiredAt expiresAt : String} {reclaimHolder : Option String} {taken : Bool}
    (hresult : (db.tryAcquireGitFinalizationLease projectId holder acquiredAt expiresAt
      reclaimHolder).result = .ok taken) :
    ∀ sc ∈ (db.tryAcquireGitFinalizationLease projectId holder acquiredAt expiresAt
        reclaimHolder).db.sessionControls,
      sc.projectId = projectId → sc.awaitsResume = true → sc.isFenced = true →
      db.hasPendingJournal sc = true →
      (db.tryAcquireGitFinalizationLease projectId holder acquiredAt expiresAt
        reclaimHolder).db.fenceCurrent sc = true := by
  refine transaction_of_result
    (P := fun db' => ∀ sc ∈ db'.sessionControls, sc.projectId = projectId →
      sc.awaitsResume = true → sc.isFenced = true → db.hasPendingJournal sc = true →
      db'.fenceCurrent sc = true) hresult ?_ fun db' h => ?_
  · refine leaves_bind ?_ fun _ => leaves_ok _
    unfold insertFinalizerLease
    split
    · exact leaves_fetch nofun
    · exact leaves_ok _
  · obtain ⟨_, -, ⟨⟩⟩ := step_bind_eq_ok.mp h
    intro sc hmem hproject hwaits hfenced hpending
    show db.fenceCurrent sc = true
    exact fenceCurrent_of_repair hmem hproject hwaits hfenced hpending

/-- The fences of a registry: a call that moves or ends a journal takes the fence
along; over a run every fence is current up to the first call that returns a control
under a stale one; and taking the finalizer's lease repairs those of its project. -/
theorem recoveryFences (db : Registry) (h : db.FencesCurrent) (ops : List RegistryOp) :
    (∀ (op : RegistryOp) (s : Registry), op.writes.gitFinalizations = true →
      s.FencesCurrent → (op.apply s).FencesCurrent) ∧
    ((runOps ops db).FencesCurrent ∨
      ∃ pre op post, ops = pre ++ op :: post ∧ (runOps pre db).FencesCurrent ∧
        op.returnsStaleFence (runOps pre db) = true) ∧
    ∀ (s : Registry) (projectId : Int) (holder acquiredAt expiresAt : String)
      (reclaimHolder : Option String) (taken : Bool),
      (s.tryAcquireGitFinalizationLease projectId holder acquiredAt expiresAt
        reclaimHolder).result = .ok taken →
      ∀ sc ∈ (s.tryAcquireGitFinalizationLease projectId holder acquiredAt expiresAt
          reclaimHolder).db.sessionControls,
        sc.projectId = projectId → sc.awaitsResume = true → sc.isFenced = true →
        s.hasPendingJournal sc = true →
        (s.tryAcquireGitFinalizationLease projectId holder acquiredAt expiresAt
          reclaimHolder).db.fenceCurrent sc = true :=
  ⟨fun _ _ hwrites hs => fencesCurrent_of_writes hs hwrites, fencesCurrent_runOps ops h,
    fun _ _ _ _ _ _ _ hresult => fenceCurrent_of_tryAcquireGitFinalizationLease hresult⟩

end Runs

/-- A managed session is interrupted, waits under the first generation of its journal, is
opened interactively beside another owner and closed again, while the finalizer goes on. -/
def fencedRun : List RegistryOp :=
  [.createGitFinalization
      { projectId := 1, codexSessionId := "s", gitMode := .commitAndPush,
        startingHead := some "h", branchRef := some "refs/heads/main", upstreamRef := none,
        worktreeBaseline := "b", taskIdentity := some "task", ownerRunToken := some "t",
        createdAt := "2" },
    .finalizeReapedAutomatedSession 1 7 "t" "clt-worker-t" "3" "60" "3",
    .ensurePendingGitFinalizationResumeRequested 1 "s" "4",
    .reserveSharedSessionInteractive 1 "s" "clt-stopped-shared-interactive-9"
      (some "clt-git-finalization:0") true "5",
    .cancelIdleSessionInteractive 1 "s" "clt-stopped-shared-interactive-9" "6",
    .compareAndSetGitFinalizationBlocking 1 "s" 0 .tracking none none none "7"]

theorem recoveryFences_fencedRun :
    ((runOps fencedRun managedRegistry).FencesCurrent ∨
      ∃ pre op post, fencedRun = pre ++ op :: post ∧
        (runOps pre managedRegistry).FencesCurrent ∧
        op.returnsStaleFence (runOps pre managedRegistry) = true) :=
  (recoveryFences managedRegistry (by decide) fencedRun).2.1

/-- The user resumes the closed session: its control waits again under the generation
that the journal has left. -/
theorem staleFence_of_fencedRun :
    let resumed := runOps (fencedRun ++
      [.requestStoppedSessionResume 1 "s" (some "clt-git-finalization:0") "8"]) managedRegistry
    managedRegistry.FencesCurrent ∧ (runOps fencedRun managedRegistry).FencesCurrent ∧
    resumed.sessionControls.rows.map (fun sc => (sc.awaitsResume, sc.runToken)) =
      [(true, some "clt-git-finalization:0")] ∧
    resumed.gitFinalizations.rows.map (fun g => (g.state, g.generation)) = [(.tracking, 1)] ∧
    ¬ resumed.FencesCurrent := by
  decide

end Clt
