import Clt.Registry.Frame

/-!
# What a call does to the session controls

About thirty calls write `session_controls`, each through its own `UPDATE`, upsert or
`DELETE`. `ControlWrite` lists what they make of a stored row and in which state they
find it, `ControlInsert` the rows they add, `ControlDelete` the rows they remove.
`RegistryOp.controlEffect` shows that every call keeps to these lists, so a law about
controls is a case analysis over them.
-/

namespace Clt

open Relational Registry

/-! ## The calls that matter by name -/

namespace RegistryOp

/-- The session that a user resumes after a stop. -/
def resumedSession : RegistryOp → Option (Int × String)
  | .requestStoppedSessionResume projectId codexSessionId .. => some (projectId, codexSessionId)
  | _ => none

/-- The session that a call reserves for interactive use. -/
def reservedSession : RegistryOp → Option (Int × String)
  | .reserveIdleSessionInteractiveForState projectId codexSessionId ..
  | .reserveSharedSessionInteractive projectId codexSessionId ..
  | .beginStoppedSessionInteractive projectId codexSessionId .. =>
    some (projectId, codexSessionId)
  | _ => none

/-- The session whose planning run a call starts. -/
def plannedSession : RegistryOp → Option (Int × String)
  | .registerKnownSessionWithChild q .. =>
    if q.claimPlanningSession then some (q.projectId, q.codexSessionId) else none
  | _ => none

/-- The session whose control a call deletes together with its Git journal. -/
def retiredSession : RegistryOp → Option (Int × String)
  | .cancelOrphanedWorkingGitFinalization expected ..
  | .retireSupersededWorkingGitFinalization expected .. =>
    some (expected.projectId, expected.codexSessionId)
  | .retireAbandonedUnboundGitFinalization projectId codexSessionId .. =>
    some (projectId, codexSessionId)
  | .cancelIdleWorkingGitFinalization projectId codexSessionId _ _ _ _ _ cancellation =>
    if cancellation = .externalCompletion then some (projectId, codexSessionId) else none
  | _ => none

/-- The states between which a recovery of stale controls moves a control. -/
def recovers : RegistryOp → Option (AgentSessionControlState × AgentSessionControlState)
  | .transitionSessionControlState _ _ source target _
  | .recoverStaleAutomatedSessionControl _ _ source target ..
  | .recoverStaleInteractiveSessionControl _ _ source target .. => some (source, target)
  | _ => none

/-- The control whose process a call reports as reaped. -/
def reaps : RegistryOp → SessionControl → Bool
  | .finalizeReapedAutomatedSession projectId expectedChildPid expectedRunToken .., sc =>
    sc.projectId == projectId && sqlEq sc.childPid (some expectedChildPid) &&
      sqlEq sc.runToken (some expectedRunToken)
  | _, _ => false

end RegistryOp

/-! ## Writes, inserts and deletes -/

/-- What the call `op` may make of a stored control. -/
inductive ControlWrite (op : RegistryOp) (sc : SessionControl) : SessionControl → Prop where
  | requestInterrupt {holder now : String} (h : sc.state = .running) :
      ControlWrite op sc
        { sc with
          state := .interruptRequested, interactiveHolder := some holder, updatedAt := now }
  | withdrawInterrupt {now : String} (h : sc.state = .interruptRequested) :
      ControlWrite op sc
        { sc with
          state := .running, interactiveHolder := none, interactiveLaunchToken := none,
          updatedAt := now }
  | withdrawReservation {target : AgentSessionControlState} {now : String}
      (h : sc.state = .readyInteractive) : ControlWrite op sc (sc.settle target now)
  | requestStop {now : String} (h : sc.state = .running ∨ sc.state = .interactive) :
      ControlWrite op sc { sc with state := .stopRequested, updatedAt := now }
  | completeStop {now : String} (h : sc.state = .stopRequested) :
      ControlWrite op sc (sc.settle .stopped now)
  | resume {projectId : Int} {codexSessionId now : String}
      (hop : op.resumedSession = some (projectId, codexSessionId))
      (hkey : sc.is projectId codexSessionId = true) :
      ControlWrite op sc (sc.settle .resumeRequested now)
  | reserve {projectId : Int} {codexSessionId holder now : String}
      (hop : op.reservedSession = some (projectId, codexSessionId))
      (hkey : sc.is projectId codexSessionId = true) (h : sc.isParked = true) :
      ControlWrite op sc (reserveInteractive holder now sc)
  | transition {projectId : Int} {codexSessionId : String}
      {source target : AgentSessionControlState} {now : String}
      (hop : op = .transitionSessionControlState projectId codexSessionId source target now)
      (hkey : sc.is projectId codexSessionId = true) (h : sc.state = source) :
      ControlWrite op sc
        { sc with
          state := target, childPid := if target = .running then sc.childPid else none,
          interactiveLaunchToken := none, updatedAt := now }
  | recoverStale {source target : AgentSessionControlState} {now : String}
      (hop : op.recovers = some (source, target)) (h : sc.state = source) :
      ControlWrite op sc (sc.settle target now)
  | tag {token : Option String} {now : String} (h : sc.state = .resumeRequested) :
      ControlWrite op sc { sc with runToken := token, updatedAt := now }
  | park {token : Option String} {now : String} (h : sc.isParked = true) :
      ControlWrite op sc { sc with state := .stopped, runToken := token, updatedAt := now }
  | register {projectId : Int} {codexSessionId : String} {childPid : Nat}
      {runToken stdoutPath stderrPath : String} {gitMode : Option AgentGitMode}
      {now createdAt : String}
      (hop : op = .markSessionRunning projectId codexSessionId childPid runToken stdoutPath
        stderrPath gitMode now createdAt)
      (hkey : sc.is projectId codexSessionId = true) :
      ControlWrite op sc (markRunning childPid runToken stdoutPath stderrPath now sc)
  | claimResume {q : AgentKnownSessionRegistration} {now : String}
      (h : sc.state = .resumeRequested) :
      ControlWrite op sc
        { claimRunning q now sc with interactiveHolder := none, interactiveLaunchToken := none }
  | claimPlanning {q : AgentKnownSessionRegistration} {now : String}
      (hop : op.plannedSession = some (q.projectId, q.codexSessionId))
      (hkey : sc.is q.projectId q.codexSessionId = true) (hidle : sc.isIdle = true) :
      ControlWrite op sc (claimRunning q now sc)
  | exit {next : AgentSessionControlState} {holder : Option String} {now : String}
      (hnext : stateAfterExit sc.state = some next)
      (hholder : holder = none ∨ next = .readyInteractive)
      (hlaunch : sc.interactiveLaunchToken = none ∨ op.reaps sc = true) :
      ControlWrite op sc
        { sc with state := next, childPid := none, interactiveHolder := holder, updatedAt := now }
  | handOff {now : String} (h : sc.state = .interruptRequested) :
      ControlWrite op sc
        { sc with
          state := .readyInteractive, childPid := none, interactiveLaunchToken := none,
          updatedAt := now }
  | adopt {guardian now : String} (h : sc.state = .readyInteractive) :
      ControlWrite op sc
        { sc with
          state := .interactive, interactiveHolder := some guardian,
          interactiveLaunchToken := some guardian, childPid := none, updatedAt := now }
  | registerChild {childPid : Nat} {now : String} (h : sc.state = .interactive) :
      ControlWrite op sc { sc with childPid := some childPid, updatedAt := now }
  | endInteractive {disposition : InteractiveGuardianDisposition} {now : String}
      (h : sc.state = .interactive ∨ sc.state = .stopRequested) :
      ControlWrite op sc (endInteractive disposition now sc)

/-- The controls that calls insert. -/
inductive ControlInsert : SessionControl → Prop where
  | parked {sc : SessionControl} (h : sc.isParked = true) (hidle : sc.isIdle = true) :
      ControlInsert sc
  | reserved {projectId : Int} {codexSessionId holder now : String} :
      ControlInsert (reserveInteractive holder now
        (SessionControl.fresh projectId codexSessionId .readyInteractive now))
  | running {projectId : Int} {codexSessionId : String} {childPid : Nat}
      {runToken stdoutPath stderrPath now : String} :
      ControlInsert (runningControl projectId codexSessionId childPid runToken stdoutPath
        stderrPath now)

/-- The controls that the call `op` may delete. -/
inductive ControlDelete (op : RegistryOp) (sc : SessionControl) : Prop where
  | resumeRequested (h : sc.state = .resumeRequested)
  | running (h : sc.state = .running)
  | reservation (h : sc.state = .readyInteractive)
  | retired {projectId : Int} {codexSessionId : String}
      (hop : op.retiredSession = some (projectId, codexSessionId))
      (hkey : sc.is projectId codexSessionId = true)

/-- A write never moves a control to another session. -/
theorem ControlWrite.key {op : RegistryOp} {sc sc' : SessionControl} (h : ControlWrite op sc sc') :
    sc'.projectId = sc.projectId ∧ sc'.codexSessionId = sc.codexSessionId := by
  cases h <;> exact ⟨rfl, rfl⟩

/-- The call `op` leaves the controls `t'` when it starts from `t`. -/
structure ControlEffect (op : RegistryOp) (t t' : Table SessionControl) : Prop where
  kept : ∀ sc ∈ t, (∃ sc' ∈ t', sc' = sc ∨ ControlWrite op sc sc') ∨ ControlDelete op sc
  origin : ∀ sc' ∈ t', (∃ sc ∈ t, sc' = sc ∨ ControlWrite op sc sc') ∨ ControlInsert sc'

namespace ControlEffect

variable {op : RegistryOp} {t t' : Table SessionControl} {P : SessionControl → Bool}
  {f : SessionControl → SessionControl}

theorem refl (op : RegistryOp) (t : Table SessionControl) : ControlEffect op t t :=
  ⟨fun sc h => .inl ⟨sc, h, .inl rfl⟩, fun sc h => .inl ⟨sc, h, .inl rfl⟩⟩

theorem of_rewrite (hrows : t'.rows = t.rows.map (Table.rewrite P f))
    (h : ∀ sc ∈ t, P sc = true → ControlWrite op sc (f sc)) : ControlEffect op t t' := by
  have hwrite : ∀ sc ∈ t,
      Table.rewrite P f sc = sc ∨ ControlWrite op sc (Table.rewrite P f sc) := by
    intro sc hsc
    unfold Table.rewrite
    split
    · rename_i hP
      exact .inr (h sc hsc hP)
    · exact .inl rfl
  refine ⟨fun sc hsc => .inl ⟨_, ?_, hwrite sc hsc⟩, fun sc' hsc' => .inl ?_⟩
  · rw [Table.mem_def, hrows]
    exact List.mem_map_of_mem hsc
  · rw [Table.mem_def, hrows] at hsc'
    obtain ⟨sc, hsc, rfl⟩ := List.mem_map.mp hsc'
    exact ⟨sc, hsc, hwrite sc hsc⟩

theorem of_delete (h : ∀ sc ∈ t, P sc = true → ControlDelete op sc) :
    ControlEffect op t (t.delete P) := by
  refine ⟨fun sc hsc => ?_, fun sc' hsc' => .inl ⟨sc', (Table.mem_delete.mp hsc').1, .inl rfl⟩⟩
  cases hP : P sc with
  | true => exact .inr (h sc hsc hP)
  | false => exact .inl ⟨sc, Table.mem_delete.mpr ⟨hsc, hP⟩, .inl rfl⟩

/-- An insert after an effect. -/
theorem insertOrIgnore (h : ControlEffect op t t') {r : SessionControl} (hr : ControlInsert r) :
    ControlEffect op t (t'.insertOrIgnore r).1 := by
  refine ⟨fun sc hsc => ?_, fun sc' hsc' => ?_⟩
  · rcases h.kept sc hsc with ⟨sc', hsc', hw⟩ | hd
    · exact .inl ⟨sc', Table.subset_insertOrIgnore hsc', hw⟩
    · exact .inr hd
  · rcases Table.mem_insertOrIgnore hsc' with hmem | rfl
    · exact h.origin sc' hmem
    · exact .inr hr

theorem of_upsert {r : SessionControl} {p : SessionControl → Bool}
    {hf : Compatible (fun a => Keyed.conflict a r && p a) f} (hr : ControlInsert r)
    (h : ∀ sc ∈ t, Keyed.conflict sc r = true → p sc = true → ControlWrite op sc (f sc)) :
    ControlEffect op t (t.upsert r p f hf).1 := by
  unfold Table.upsert
  split
  · rename_i hn
    refine ⟨fun sc hsc => .inl ⟨sc, (Table.mem_append (h := hn)).mpr (.inl hsc), .inl rfl⟩,
      fun sc' hsc' => ?_⟩
    rcases (Table.mem_append (h := hn)).mp hsc' with hmem | rfl
    · exact .inl ⟨sc', hmem, .inl rfl⟩
    · exact .inr hr
  · refine of_rewrite rfl fun sc hsc hP => ?_
    rw [Bool.and_eq_true] at hP
    exact h sc hsc hP.1 hP.2

end ControlEffect

/-! ## One lemma per call -/

namespace Registry

variable {db : Registry} {op : RegistryOp}

theorem transaction_controlEffect {α : Type} {body : Step α (α × Registry)}
    (h : ∀ a db', body = .ok (a, db') → ControlEffect op db.sessionControls db'.sessionControls) :
    ControlEffect op db.sessionControls (db.transaction body).db.sessionControls :=
  transaction_db (P := fun db' => ControlEffect op db.sessionControls db'.sessionControls)
    (.refl op _) h

/-- The row that a lookup by session finds is the only one of that session. -/
theorem eq_of_is {projectId : Int} {codexSessionId : String} {a b : SessionControl}
    (ha : a ∈ db.sessionControls) (hb : b ∈ db.sessionControls)
    (hka : a.is projectId codexSessionId = true) (hkb : b.is projectId codexSessionId = true) :
    a = b := by
  refine Table.eq_of_conflict ha hb ?_
  simp only [SessionControl.is, Bool.and_eq_true, beq_iff_eq] at hka hkb
  simp [Keyed.conflict, hka, hkb]

/-- The control that fences a generation ends with the journal or moves on with it. -/
theorem compareAndSetGitFinalization_controlEffect (projectId : Int) (codexSessionId : String)
    (expectedGeneration : Int) (nextState : GitFinalizationState)
    (taskIdentity worktreeBaseline : Option String) (requireRunningOwner : Bool)
    (ownerRunToken commitOid lastError : Option String) (updatedAt : String) :
    ControlEffect op db.sessionControls
      (db.compareAndSetGitFinalization projectId codexSessionId expectedGeneration nextState
        taskIdentity worktreeBaseline requireRunningOwner ownerRunToken commitOid lastError
        updatedAt).db.sessionControls := by
  have hfence : ∀ sc : SessionControl,
      isRecoveryFence projectId codexSessionId expectedGeneration sc = true →
        sc.state = .resumeRequested := by
    intro sc hP
    simp only [isRecoveryFence, Bool.and_eq_true, decide_eq_true_eq] at hP
    exact hP.1.1.2
  refine transaction_controlEffect fun a db' h => ?_
  simp only [require_bind_eq_ok, fetch_bind_eq_ok, attempt_bind_eq_ok] at h
  obtain ⟨_, -, _, -, -, h⟩ := h
  obtain ⟨-, -, h⟩ := step_bind_eq_ok.mp h
  obtain ⟨-, -, h⟩ := step_bind_eq_ok.mp h
  simp only [require_bind_eq_ok, fetch_bind_eq_ok] at h
  obtain ⟨_, -, -, ⟨⟩⟩ := h
  dsimp only
  split
  · exact .of_delete fun sc _ hP => .resumeRequested (hfence sc hP)
  · exact .of_rewrite rfl fun sc _ hP => .tag (hfence sc hP)

/-- The reviewed session is idle and parked before its recovery. -/
theorem parked_of_not_projectBusy {q : MissingGitRecovery} (hbusy : q.projectBusy db = false)
    {sc : SessionControl} (hsc : sc ∈ db.sessionControls)
    (hkey : sc.is q.projectId q.sessionId = true) : sc.isParked = true ∧ sc.isIdle = true := by
  simp only [MissingGitRecovery.projectBusy, Bool.or_eq_false_iff] at hbusy
  have hidle := Table.any_eq_false_iff.mp hbusy.2 sc hsc
  simp only [SessionControl.is, Bool.and_eq_true, beq_iff_eq] at hkey
  simp only [hkey.1, hkey.2, MissingGitRecovery.toleratesControl, beq_self_eq_true, Bool.true_and,
    Bool.true_or, Bool.and_true, Bool.or_eq_false_iff, Bool.and_eq_false_iff,
    Bool.not_eq_false'] at hidle
  refine ⟨?_, hidle.1⟩
  rcases hidle.2 with hstopped | hwaiting
  · have : sc.state = .stopped := by simpa using hstopped
    simp [SessionControl.isParked, this]
  · have : sc.state = .resumeRequested := by simpa using hwaiting
    simp [SessionControl.isParked, this]

theorem beginMissingGitRecovery_controlEffect (q : MissingGitRecovery) :
    ControlEffect op db.sessionControls (db.beginMissingGitRecovery q).db.sessionControls := by
  refine transaction_controlEffect fun a db' h => ?_
  obtain ⟨-, h⟩ := require_bind_eq_ok.mp h
  obtain ⟨-, -, h⟩ := step_bind_eq_ok.mp h
  obtain ⟨hbusy, h⟩ := require_bind_eq_ok.mp h
  obtain ⟨-, -, h⟩ := step_bind_eq_ok.mp h
  obtain ⟨-, -, h⟩ := step_bind_eq_ok.mp h
  obtain ⟨-, -, h⟩ := step_bind_eq_ok.mp h
  simp only [require_bind_eq_ok, fetch_bind_eq_ok] at h
  obtain ⟨-, _, -, ⟨⟩⟩ := h
  rw [Bool.not_eq_true'] at hbusy
  exact .of_upsert (.parked rfl rfl) fun sc hsc hconflict _ =>
    .park (parked_of_not_projectBusy hbusy hsc hconflict).1

theorem cancelOrphanedWorkingGitFinalization_controlEffect {expected : GitFinalization}
    {finalizerHolder reason updatedAt now : String}
    (hop : op.retiredSession = some (expected.projectId, expected.codexSessionId)) :
    ControlEffect op db.sessionControls
      (db.cancelOrphanedWorkingGitFinalization expected finalizerHolder reason updatedAt
        now).db.sessionControls := by
  refine transaction_controlEffect fun a db' h => ?_
  simp only [require_bind_eq_ok, fetch_bind_eq_ok, attempt_bind_eq_ok] at h
  obtain ⟨_, -, _, -, -, -, -, -, ⟨⟩⟩ := h
  refine .of_delete fun sc _ hP => .retired hop ?_
  simp only [Bool.and_eq_true] at hP
  exact hP.1.1

theorem retireAbandonedUnboundGitFinalization_controlEffect {projectId : Int}
    {codexSessionId : String} {expectedGeneration : Int} {completedTask : Bool}
    {reason updatedAt : String} (hop : op.retiredSession = some (projectId, codexSessionId)) :
    ControlEffect op db.sessionControls
      (db.retireAbandonedUnboundGitFinalization projectId codexSessionId expectedGeneration
        completedTask reason updatedAt).db.sessionControls := by
  refine transaction_controlEffect fun a db' h => ?_
  obtain ⟨-, ⟨⟩⟩ := require_bind_eq_ok.mp h
  refine .of_delete fun sc _ hP => .retired hop ?_
  simp only [idleControl, Bool.and_eq_true] at hP
  exact hP.1.1

theorem retireSupersededWorkingGitFinalization_controlEffect
    {expected completed : GitFinalization} {updatedAt : String}
    (hop : op.retiredSession = some (expected.projectId, expected.codexSessionId)) :
    ControlEffect op db.sessionControls
      (db.retireSupersededWorkingGitFinalization expected completed
        updatedAt).db.sessionControls := by
  refine transaction_controlEffect fun a db' h => ?_
  simp only [require_bind_eq_ok, attempt_bind_eq_ok] at h
  obtain ⟨-, _, -, -, _, -, -, -, ⟨⟩⟩ := h
  exact .of_delete fun sc _ hP => .retired hop hP

theorem acknowledgeCompletedGitFinalizationSession_controlEffect (projectId : Int)
    (codexSessionId acknowledgedAt : String) :
    ControlEffect op db.sessionControls
      (db.acknowledgeCompletedGitFinalizationSession projectId codexSessionId
        acknowledgedAt).db.sessionControls := by
  have hlate : ∀ sc ∈ db.sessionControls, lateResumeRequest projectId codexSessionId sc = true →
      ControlDelete op sc := by
    intro sc _ hP
    simp only [lateResumeRequest, Bool.and_eq_true, decide_eq_true_eq] at hP
    exact .resumeRequested hP.1.1.1.2
  refine transaction_controlEffect fun a db' h => ?_
  obtain ⟨_, -, h⟩ := fetch_bind_eq_ok.mp h
  obtain ⟨_, -, h⟩ := fetch_bind_eq_ok.mp h
  split at h
  · cases h
    exact .of_delete hlate
  · obtain ⟨_, -, h⟩ := step_bind_eq_ok.mp h
    obtain ⟨-, ⟨⟩⟩ := require_bind_eq_ok.mp h
    exact .of_delete hlate

/-- One `UPDATE session_controls`. -/
theorem updateControls_controlEffect {where_ : SessionControl → Bool}
    {set : SessionControl → SessionControl} {hset : Compatible where_ set}
    (h : ∀ sc ∈ db.sessionControls, where_ sc = true → ControlWrite op sc (set sc)) :
    ControlEffect op db.sessionControls (db.updateControls where_ set hset).db.sessionControls :=
  .of_rewrite rfl h

theorem deleteControls_controlEffect {where_ : SessionControl → Bool}
    (h : ∀ sc ∈ db.sessionControls, where_ sc = true → ControlDelete op sc) :
    ControlEffect op db.sessionControls (db.deleteControls where_).db.sessionControls :=
  .of_delete h

theorem cancelSessionInterruptHandoff_controlEffect (projectId : Int)
    (codexSessionId interactiveHolder now : String) :
    ControlEffect op db.sessionControls
      (db.cancelSessionInterruptHandoff projectId codexSessionId interactiveHolder
        now).db.sessionControls := by
  refine updateControls_controlEffect fun sc _ hP => ?_
  simp only [Bool.and_eq_true, Bool.or_eq_true, decide_eq_true_eq] at hP
  rcases hP.1.2 with hstate | hstate
  · simp only [hstate, reduceIte]
    exact .withdrawInterrupt hstate
  · simp only [hstate, reduceCtorEq, reduceIte]
    exact .withdrawReservation hstate

theorem insertControl_controlEffect {where_ : Bool} {sc : SessionControl} {context : String}
    (h : ControlInsert sc) :
    ControlEffect op db.sessionControls
      (db.insertControl where_ sc context).db.sessionControls := by
  refine transaction_controlEffect fun a db' hbody => ?_
  simp only [require_bind_eq_ok, fetch_bind_eq_ok] at hbody
  obtain ⟨-, _, hins, ⟨⟩⟩ := hbody
  rw [insertOrIgnoreInto_eq_some hins]
  exact ControlEffect.insertOrIgnore (.refl op _) h

/-- The session of a cancelled journal is parked: it is stopped, or its control goes. -/
theorem cancelJournal_controlEffect {projectId : Int} {codexSessionId : String}
    {expectedGeneration : Int} {taskIdentity : Option String} {acquiredAt : String}
    {cancellation : GitTaskCancellation} {leases : Table Lease} {a : Bool} {db' : Registry}
    (hop : cancellation = .externalCompletion →
      op.retiredSession = some (projectId, codexSessionId))
    (hparked : ∀ sc ∈ db.sessionControls, sc.is projectId codexSessionId = true →
      sc.isParked = true)
    (h : db.cancelJournal projectId codexSessionId expectedGeneration taskIdentity acquiredAt
      cancellation leases = .ok (a, db')) :
    ControlEffect op db.sessionControls db'.sessionControls := by
  unfold cancelJournal at h
  obtain ⟨-, h⟩ := require_bind_eq_ok.mp h
  cases cancellation with
  | deletion =>
    cases h
    exact .of_upsert (.parked rfl rfl) fun sc hsc hconflict _ => .park (hparked sc hsc hconflict)
  | externalCompletion =>
    cases h
    refine .of_delete fun sc _ hP => .retired (hop rfl) ?_
    simp only [idleControl, Bool.and_eq_true] at hP
    exact hP.1.1

theorem cancelIdleWorkingGitFinalization_controlEffect {projectId : Int}
    {codexSessionId : String} {expectedGeneration : Int} {taskIdentity : Option String}
    {leaseHolder acquiredAt expiresAt : String} {cancellation : GitTaskCancellation}
    (hop : cancellation = .externalCompletion →
      op.retiredSession = some (projectId, codexSessionId)) :
    ControlEffect op db.sessionControls
      (db.cancelIdleWorkingGitFinalization projectId codexSessionId expectedGeneration
        taskIdentity leaseHolder acquiredAt expiresAt cancellation).db.sessionControls := by
  refine transaction_controlEffect fun a db' h => ?_
  split at h
  · rename_i hdelete
    refine cancelJournal_controlEffect hop (fun sc hsc hkey => ?_) h
    rw [Bool.and_eq_true] at hdelete
    obtain ⟨g, -, hg⟩ := Table.exists_of_count_eq_one (of_decide_eq_true hdelete.2)
    simp only [Bool.and_eq_true, Bool.not_eq_true'] at hg
    have hidle := Table.any_eq_false_iff.mp hg.1.1.1.2 sc hsc
    rw [hkey, Bool.true_and, Bool.or_eq_false_iff] at hidle
    simpa using hidle.1
  · simp only [require_bind_eq_ok, Bool.not_eq_true'] at h
    obtain ⟨-, hbusy, -, -, h⟩ := h
    obtain ⟨_, -, h⟩ := step_bind_eq_ok.mp h
    split at h
    · refine cancelJournal_controlEffect hop (fun sc hsc hkey => ?_) h
      have hidle := Table.any_eq_false_iff.mp hbusy sc hsc
      simp only [SessionControl.is, Bool.and_eq_true] at hkey
      rw [hkey.1, Bool.true_and, Bool.or_eq_false_iff] at hidle
      simpa using hidle.1
    · cases h
      exact .refl _ _

theorem reserveIdleSessionInteractiveForState_controlEffect {projectId : Int}
    {codexSessionId interactiveHolder : String} {expectedStoppedRunToken : Option String}
    {expectedState : Option AgentSessionControlState} {now : String}
    (hop : op.reservedSession = some (projectId, codexSessionId)) :
    ControlEffect op db.sessionControls
      (db.reserveIdleSessionInteractiveForState projectId codexSessionId interactiveHolder
        expectedStoppedRunToken expectedState now).db.sessionControls := by
  unfold reserveIdleSessionInteractiveForState
  split
  · refine updateControls_controlEffect fun sc _ hP => ?_
    simp only [Bool.and_eq_true] at hP
    exact .reserve hop hP.1.1.1.1.1.1.1 hP.1.1.1.1.1.1.2
  · exact insertControl_controlEffect .reserved

theorem reserveSharedSessionInteractive_controlEffect {projectId : Int}
    {codexSessionId interactiveHolder : String} {expectedStoppedRunToken : Option String}
    {hasManualOwner : Bool} {now : String}
    (hop : op.reservedSession = some (projectId, codexSessionId)) :
    ControlEffect op db.sessionControls
      (db.reserveSharedSessionInteractive projectId codexSessionId interactiveHolder
        expectedStoppedRunToken hasManualOwner now).db.sessionControls := by
  unfold reserveSharedSessionInteractive
  split
  · refine updateControls_controlEffect fun sc _ hP => ?_
    simp only [Bool.and_eq_true, Bool.or_eq_true] at hP
    refine .reserve hop hP.1.1.1 ?_
    rcases hP.1.1.2 with hstate | hstate
    · simp [SessionControl.isParked, hstate]
    · simp [SessionControl.isParked, hstate.1.1.1]
  · exact insertControl_controlEffect .reserved

theorem cancelIdleSessionInteractive_controlEffect (projectId : Int)
    (codexSessionId interactiveHolder now : String) :
    ControlEffect op db.sessionControls
      (db.cancelIdleSessionInteractive projectId codexSessionId interactiveHolder
        now).db.sessionControls := by
  unfold cancelIdleSessionInteractive
  dsimp only
  split
  · refine updateControls_controlEffect fun sc _ hP => ?_
    simp only [Bool.and_eq_true, decide_eq_true_eq] at hP
    exact .withdrawReservation hP.1.2
  · refine deleteControls_controlEffect fun sc _ hP => ?_
    simp only [Bool.and_eq_true, decide_eq_true_eq] at hP
    exact .reservation hP.1.2

theorem ensurePendingGitFinalizationResumeRequested_controlEffect (projectId : Int)
    (codexSessionId now : String) :
    ControlEffect op db.sessionControls
      (db.ensurePendingGitFinalizationResumeRequested projectId codexSessionId
        now).db.sessionControls := by
  refine transaction_controlEffect fun a db' h => ?_
  simp only [fetch_bind_eq_ok, attempt_bind_eq_ok] at h
  obtain ⟨_, -, _, -, _, hins, ⟨⟩⟩ := h
  dsimp only
  rw [insertOrIgnoreInto_eq_some hins]
  refine ControlEffect.insertOrIgnore (.of_rewrite rfl fun sc _ hP => .tag ?_) (.parked rfl rfl)
  simp only [Bool.and_eq_true, decide_eq_true_eq] at hP
  exact hP.1.1.2

theorem retireCompletedResumeRequest_controlEffect (expected : SessionControl) (now : Nat) :
    ControlEffect op db.sessionControls
      (db.retireCompletedResumeRequest expected now).db.sessionControls := by
  refine transaction_controlEffect fun a db' h => ?_
  obtain ⟨-, ⟨⟩⟩ := require_bind_eq_ok.mp h
  refine .of_rewrite rfl fun sc _ hP => .park ?_
  simp only [Bool.and_eq_true, decide_eq_true_eq] at hP
  have hstate : sc.state = .resumeRequested := hP.1.1.1.1.1.1.1.1.2
  simp [SessionControl.isParked, hstate]

theorem clearOrphanedResumeRequestedSession_controlEffect (projectId : Int)
    (codexSessionId : String) (now : Nat) :
    ControlEffect op db.sessionControls
      (db.clearOrphanedResumeRequestedSession projectId codexSessionId now).db.sessionControls := by
  unfold clearOrphanedResumeRequestedSession
  split
  · exact .refl _ _
  · refine deleteControls_controlEffect fun sc _ hP => ?_
    simp only [Bool.and_eq_true, decide_eq_true_eq] at hP
    exact .resumeRequested hP.1.1.2

theorem clearRunningSessionControl_controlEffect (projectId : Int) (codexSessionId : String)
    (runToken : Option String) :
    ControlEffect op db.sessionControls
      (db.clearRunningSessionControl projectId codexSessionId runToken).db.sessionControls := by
  unfold clearRunningSessionControl
  split
  · exact .refl _ _
  split
  · exact .refl _ _
  · refine deleteControls_controlEffect fun sc _ hP => ?_
    simp only [Bool.and_eq_true, decide_eq_true_eq] at hP
    exact .running hP.1.2

theorem markSessionRunning_controlEffect {projectId : Int} {codexSessionId : String}
    {childPid : Nat} {runToken stdoutPath stderrPath : String} {gitMode : Option AgentGitMode}
    {now createdAt : String}
    (hop : op = .markSessionRunning projectId codexSessionId childPid runToken stdoutPath
      stderrPath gitMode now createdAt) :
    ControlEffect op db.sessionControls
      (db.markSessionRunning projectId codexSessionId childPid runToken stdoutPath stderrPath
        gitMode now createdAt).db.sessionControls := by
  refine transaction_controlEffect fun a db' h => ?_
  simp only [require_bind_eq_ok] at h
  obtain ⟨-, -, -, h⟩ := h
  obtain ⟨_, -, ⟨⟩⟩ := step_bind_eq_ok.mp h
  exact .of_upsert .running fun sc _ hconflict _ => .register hop hconflict

theorem registerKnownSessionWithChild_controlEffect {q : AgentKnownSessionRegistration}
    {now freshExpiry : String}
    (hop : op = .registerKnownSessionWithChild q now freshExpiry) :
    ControlEffect op db.sessionControls
      (db.registerKnownSessionWithChild q now freshExpiry).db.sessionControls := by
  refine transaction_controlEffect fun a db' h => ?_
  simp only [require_bind_eq_ok] at h
  obtain ⟨-, -, h⟩ := h
  split at h
  · obtain ⟨-, ⟨⟩⟩ := require_bind_eq_ok.mp h
    refine .of_rewrite rfl fun sc _ hP => .claimResume ?_
    simp only [Bool.and_eq_true, decide_eq_true_eq] at hP
    exact hP.2
  · obtain ⟨-, ⟨⟩⟩ := require_bind_eq_ok.mp h
    refine .of_upsert .running fun sc _ hconflict hP => ?_
    simp only [Bool.and_eq_true] at hP
    refine .claimPlanning ?_ hconflict hP.2
    rw [hop]
    simp [RegistryOp.plannedSession, hP.1.1.1]

theorem finalizeAutomatedSessionAfterExit_controlEffect {q : AutomatedSessionFinalization}
    {acquiredAt expiresAt now : String}
    (hop : q.reattachedSessionId = none → ∀ sc : SessionControl,
      sc.projectId = q.projectId → sqlEq sc.childPid (some q.expectedChildPid) = true →
      sqlEq sc.runToken (some q.expectedRunToken) = true → op.reaps sc = true) :
    ControlEffect op db.sessionControls
      (db.finalizeAutomatedSessionAfterExit q acquiredAt expiresAt now).db.sessionControls := by
  refine transaction_controlEffect fun a db' h => ?_
  simp only [require_bind_eq_ok, fetch_bind_eq_ok] at h
  obtain ⟨-, control, hcontrol, terminalState, hterminal, h⟩ := h
  have hfound := Table.of_find? hcontrol
  simp only [Bool.and_eq_true, Bool.or_eq_true, beq_iff_eq] at hfound
  have heffect : ∀ sc ∈ db.sessionControls,
      (sc.is q.projectId control.codexSessionId && decide (sc.state = control.state) &&
        sqlEq sc.childPid (some q.expectedChildPid) &&
        sqlEq sc.runToken (some q.expectedRunToken)) = true →
      stateAfterExit sc.state = some terminalState ∧
        (sc.interactiveLaunchToken = none ∨ op.reaps sc = true) := by
    intro sc hsc hP
    simp only [Bool.and_eq_true, decide_eq_true_eq] at hP
    have hsame : sc = control := eq_of_is hsc (Table.mem_of_find? hcontrol) hP.1.1.1
      (by simp [SessionControl.is, hfound.1.1.1])
    subst hsame
    refine ⟨hterminal, ?_⟩
    cases hr : q.reattachedSessionId with
    | none => exact .inr (hop hr sc hfound.1.1.1 hfound.1.1.2 hfound.1.2)
    | some _ =>
      rw [hr] at hfound
      simp only [Option.isNone_some, Bool.false_eq_true, false_or,
        Option.isNone_iff_eq_none] at hfound
      exact .inl hfound.2.2
  split at h
  · rename_i hready
    obtain ⟨_, -, h⟩ := fetch_bind_eq_ok.mp h
    obtain ⟨_, -, h⟩ := step_bind_eq_ok.mp h
    obtain ⟨-, ⟨⟩⟩ := require_bind_eq_ok.mp h
    exact .of_rewrite rfl fun sc hsc hP =>
      .exit (heffect sc hsc hP).1 (.inr hready) (heffect sc hsc hP).2
  · obtain ⟨-, ⟨⟩⟩ := require_bind_eq_ok.mp h
    exact .of_rewrite rfl fun sc hsc hP =>
      .exit (heffect sc hsc hP).1 (.inl rfl) (heffect sc hsc hP).2

theorem finalizeReattachedAutomatedSession_controlEffect (expected : SessionControl)
    (holder acquiredAt expiresAt now : String) :
    ControlEffect op db.sessionControls
      (db.finalizeReattachedAutomatedSession expected holder acquiredAt expiresAt
        now).db.sessionControls := by
  unfold finalizeReattachedAutomatedSession
  split
  · exact finalizeAutomatedSessionAfterExit_controlEffect nofun
  · exact .refl _ _

theorem completeSessionInterruptHandoff_controlEffect (projectId : Int)
    (codexSessionId runToken fromHolder acquiredAt expiresAt now : String) :
    ControlEffect op db.sessionControls
      (db.completeSessionInterruptHandoff projectId codexSessionId runToken fromHolder acquiredAt
        expiresAt now).db.sessionControls := by
  refine transaction_controlEffect fun a db' h => ?_
  simp only [require_bind_eq_ok, fetch_bind_eq_ok] at h
  obtain ⟨_, -, _, -, -, -, ⟨⟩⟩ := h
  refine .of_rewrite rfl fun sc _ hP => .handOff ?_
  simp only [Bool.and_eq_true, decide_eq_true_eq] at hP
  exact hP.1.2

theorem adoptInteractiveGuardian_controlEffect (projectId : Int)
    (codexSessionId : Option String)
    (fromHolder guardianHolder acquiredAt expiresAt now : String) :
    ControlEffect op db.sessionControls
      (db.adoptInteractiveGuardian projectId codexSessionId fromHolder guardianHolder acquiredAt
        expiresAt now).db.sessionControls := by
  refine transaction_controlEffect fun a db' h => ?_
  simp only [require_bind_eq_ok, fetch_bind_eq_ok] at h
  obtain ⟨_, -, -, h⟩ := h
  split at h
  · cases h
    exact .refl _ _
  · obtain ⟨-, ⟨⟩⟩ := require_bind_eq_ok.mp h
    refine .of_rewrite rfl fun sc _ hP => .adopt ?_
    simp only [Bool.and_eq_true, decide_eq_true_eq] at hP
    exact hP.1.2

theorem registerInteractiveGuardianChild_controlEffect (projectId : Int)
    (codexSessionId guardianHolder : String) (childPid : Nat) (now freshExpiry : String) :
    ControlEffect op db.sessionControls
      (db.registerInteractiveGuardianChild projectId codexSessionId guardianHolder childPid now
        freshExpiry).db.sessionControls := by
  refine transaction_controlEffect fun a db' h => ?_
  simp only [require_bind_eq_ok, fetch_bind_eq_ok] at h
  obtain ⟨_, -, -, -, ⟨⟩⟩ := h
  refine .of_rewrite rfl fun sc _ hP => .registerChild ?_
  simp only [awaitsChild, Bool.and_eq_true, decide_eq_true_eq] at hP
  exact hP.1.1.1.2

theorem state_of_guardedControl {projectId : Int} {codexSessionId guardianHolder : String}
    {sc : SessionControl} (h : guardedControl projectId codexSessionId guardianHolder sc = true) :
    sc.state = .interactive ∨ sc.state = .stopRequested := by
  simp only [guardedControl, Bool.and_eq_true, Bool.or_eq_true, decide_eq_true_eq] at h
  exact h.1.2

theorem finishInteractiveGuardian_controlEffect (projectId : Int)
    (codexSessionId guardianHolder : String) (disposition : InteractiveGuardianDisposition)
    (now : String) :
    ControlEffect op db.sessionControls
      (db.finishInteractiveGuardian projectId codexSessionId guardianHolder disposition
        now).db.sessionControls := by
  refine transaction_controlEffect fun a db' h => ?_
  obtain ⟨-, ⟨⟩⟩ := require_bind_eq_ok.mp h
  exact .of_rewrite rfl fun sc _ hP => .endInteractive (state_of_guardedControl hP)

theorem recoverStaleInteractiveGuardian_controlEffect (projectId : Int)
    (codexSessionId guardianHolder : String) (expectedChildPid : Option Nat)
    (disposition : InteractiveGuardianDisposition) (now : String) :
    ControlEffect op db.sessionControls
      (db.recoverStaleInteractiveGuardian projectId codexSessionId guardianHolder
        expectedChildPid disposition now).db.sessionControls := by
  refine transaction_controlEffect fun a db' h => ?_
  obtain ⟨-, ⟨⟩⟩ := require_bind_eq_ok.mp h
  refine .of_rewrite rfl fun sc _ hP => .endInteractive ?_
  simp only [Bool.and_eq_true] at hP
  exact state_of_guardedControl hP.1.1

theorem tryAcquireGitFinalizationLease_controlEffect (projectId : Int)
    (holder acquiredAt expiresAt : String) (reclaimHolder : Option String) :
    ControlEffect op db.sessionControls
      (db.tryAcquireGitFinalizationLease projectId holder acquiredAt expiresAt
        reclaimHolder).db.sessionControls := by
  refine transaction_controlEffect fun a db' h => ?_
  obtain ⟨_, -, ⟨⟩⟩ := step_bind_eq_ok.mp h
  refine .of_rewrite rfl fun sc _ hP => .tag ?_
  simp only [Bool.and_eq_true, decide_eq_true_eq] at hP
  exact hP.1.1.1.2

end Registry

/-- Every call does to the controls what `ControlEffect` says. -/
theorem RegistryOp.controlEffect (op : RegistryOp) (db : Registry) :
    ControlEffect op db.sessionControls (op.apply db).sessionControls := by
  have hframe : op.writes.sessionControls = false →
      ControlEffect op db.sessionControls (op.apply db).sessionControls := by
    intro h
    rw [(op.apply_frame db).sessionControls h]
    exact .refl op _
  cases op with
  | compareAndSetGitFinalizationBlocking => exact compareAndSetGitFinalization_controlEffect ..
  | compareAndSetOwnedGitFinalization => exact compareAndSetGitFinalization_controlEffect ..
  | compareAndSetGitFinalizationWithIdentity =>
    exact compareAndSetGitFinalization_controlEffect ..
  | trackGitFinalizationWithManifest => exact compareAndSetGitFinalization_controlEffect ..
  | resealGitFinalizationManifest => exact compareAndSetGitFinalization_controlEffect ..
  | recoverGitFinalizationIntent => exact compareAndSetGitFinalization_controlEffect ..
  | beginMissingGitRecovery => exact beginMissingGitRecovery_controlEffect ..
  | cancelOrphanedWorkingGitFinalization =>
    exact cancelOrphanedWorkingGitFinalization_controlEffect rfl
  | retireAbandonedUnboundGitFinalization =>
    exact retireAbandonedUnboundGitFinalization_controlEffect rfl
  | retireSupersededWorkingGitFinalization =>
    exact retireSupersededWorkingGitFinalization_controlEffect rfl
  | cancelIdleWorkingGitFinalization =>
    exact cancelIdleWorkingGitFinalization_controlEffect fun h => if_pos h
  | acknowledgeCompletedGitFinalizationSession =>
    exact acknowledgeCompletedGitFinalizationSession_controlEffect ..
  | requestSessionInterrupt =>
    refine updateControls_controlEffect fun sc _ hP => .requestInterrupt ?_
    simp only [Bool.and_eq_true, decide_eq_true_eq] at hP
    exact hP.1.1.2
  | cancelSessionInterruptHandoff => exact cancelSessionInterruptHandoff_controlEffect ..
  | requestSessionStop =>
    refine updateControls_controlEffect fun sc _ hP => .requestStop (.inl ?_)
    simp only [Bool.and_eq_true, decide_eq_true_eq] at hP
    exact hP.1.1.2
  | requestInteractiveSessionStop =>
    refine updateControls_controlEffect fun sc _ hP => .requestStop (.inr ?_)
    simp only [Bool.and_eq_true, decide_eq_true_eq] at hP
    exact hP.1.1.1.2
  | requestStoppedSessionResume =>
    refine updateControls_controlEffect fun sc _ hP => .resume rfl ?_
    simp only [Bool.and_eq_true] at hP
    exact hP.1.1
  | completeSessionStop =>
    refine updateControls_controlEffect fun sc _ hP => .completeStop ?_
    simp only [Bool.and_eq_true, decide_eq_true_eq] at hP
    exact hP.1.1.2
  | transitionSessionControlState =>
    refine updateControls_controlEffect fun sc _ hP => ?_
    simp only [Bool.and_eq_true, decide_eq_true_eq] at hP
    exact .transition rfl hP.1 hP.2
  | recoverStaleAutomatedSessionControl =>
    refine updateControls_controlEffect fun sc _ hP => .recoverStale rfl ?_
    simp only [Bool.and_eq_true, decide_eq_true_eq] at hP
    exact hP.1.1.2
  | recoverStaleInteractiveSessionControl =>
    refine updateControls_controlEffect fun sc _ hP => .recoverStale rfl ?_
    simp only [Bool.and_eq_true, decide_eq_true_eq] at hP
    exact hP.1.2
  | registerPlanningSession => exact insertControl_controlEffect (.parked rfl rfl)
  | registerSharedPlanningSession => exact insertControl_controlEffect (.parked rfl rfl)
  | reserveIdleSessionInteractiveForState =>
    exact reserveIdleSessionInteractiveForState_controlEffect rfl
  | reserveSharedSessionInteractive => exact reserveSharedSessionInteractive_controlEffect rfl
  | cancelIdleSessionInteractive => exact cancelIdleSessionInteractive_controlEffect ..
  | beginStoppedSessionInteractive =>
    refine updateControls_controlEffect fun sc _ hP => .reserve rfl ?_ ?_
    · simp only [Bool.and_eq_true] at hP
      exact hP.1.1
    · simp only [Bool.and_eq_true, decide_eq_true_eq] at hP
      simp [SessionControl.isParked, hP.1.2]
  | ensurePendingGitFinalizationResumeRequested =>
    exact ensurePendingGitFinalizationResumeRequested_controlEffect ..
  | retireCompletedResumeRequest => exact retireCompletedResumeRequest_controlEffect ..
  | clearOrphanedResumeRequestedSession =>
    exact clearOrphanedResumeRequestedSession_controlEffect ..
  | clearAutonomousPushResumeRequest =>
    refine deleteControls_controlEffect fun sc _ hP => .resumeRequested ?_
    simp only [Bool.and_eq_true, decide_eq_true_eq] at hP
    exact hP.1.1.1.2
  | clearRunningSessionControl => exact clearRunningSessionControl_controlEffect ..
  | markSessionRunning => exact markSessionRunning_controlEffect rfl
  | registerKnownSessionWithChild => exact registerKnownSessionWithChild_controlEffect rfl
  | finalizeReattachedAutomatedSession =>
    exact finalizeReattachedAutomatedSession_controlEffect ..
  | finalizeReapedAutomatedSession =>
    refine finalizeAutomatedSessionAfterExit_controlEffect fun _ sc hproject hchild htoken => ?_
    simp only [RegistryOp.reaps, hproject, hchild, htoken, beq_self_eq_true, Bool.and_self]
  | completeSessionInterruptHandoff => exact completeSessionInterruptHandoff_controlEffect ..
  | adoptInteractiveGuardian => exact adoptInteractiveGuardian_controlEffect ..
  | registerInteractiveGuardianChild => exact registerInteractiveGuardianChild_controlEffect ..
  | finishInteractiveGuardian => exact finishInteractiveGuardian_controlEffect ..
  | recoverStaleInteractiveGuardian => exact recoverStaleInteractiveGuardian_controlEffect ..
  | tryAcquireGitFinalizationLease => exact tryAcquireGitFinalizationLease_controlEffect ..
  | _ => exact hframe rfl

end Clt
