import Clt.Registry.ControlEffect

/-!
# The fence of a pending Git journal

A session that waits for its Git journal is parked under a run token that names the
journal's generation. The calls that move or end a journal rewrite or delete the
control that carries the current token. The calls that stop, resume or hand a session
over keep the token without looking at it: a control that leaves `resume_requested`
is not found by the journal's next step, and a call that returns it brings the old
token back. `FenceOrigin` says where the control that a call leaves has its token from,
and `fenceOrigin` that every call keeps to it. The token of a waiting control is
therefore current up to the first call that returns a stale one, and the finalizer's
lease repairs what is stale by then.
-/

namespace Clt

open Relational Registry

/-! ## Fences -/

namespace SessionControl

/-- An idle control in `resume_requested`. -/
def awaitsResume (sc : SessionControl) : Bool := sc.state = .resumeRequested && sc.isIdle

/-- The run token carries the prefix of the recovery tokens. -/
def isFenced (sc : SessionControl) : Bool :=
  sc.runToken.any (likePrefix agentGitFinalizationResumeTokenPrefix)

end SessionControl

/-- The run token names the generation of this journal, which is the session's own and
not finished. -/
def GitFinalization.fences (sc : SessionControl) (g : GitFinalization) : Bool :=
  g.is sc.projectId sc.codexSessionId && g.state.isUnfinished &&
    sqlEq sc.runToken (some (recoveryToken g.generation))

namespace Registry

/-- The run token names the current generation of the session's own pending journal. -/
def fenceCurrent (db : Registry) (sc : SessionControl) : Bool :=
  db.gitFinalizations.any (GitFinalization.fences sc)

/-- Every idle resume request that carries a recovery token carries the current one. -/
def FencesCurrent (db : Registry) : Prop :=
  ∀ sc ∈ db.sessionControls, sc.awaitsResume = true → sc.isFenced = true →
    db.fenceCurrent sc = true

instance (db : Registry) : Decidable db.FencesCurrent :=
  inferInstanceAs (Decidable (∀ sc ∈ db.sessionControls, sc.awaitsResume = true →
    sc.isFenced = true → db.fenceCurrent sc = true))

/-- A control is fenced by what its session and its token are. -/
theorem fenceCurrent_congr {db db' : Registry} {sc sc' : SessionControl}
    (hkey : sc'.projectId = sc.projectId ∧ sc'.codexSessionId = sc.codexSessionId)
    (htoken : sc'.runToken = sc.runToken) (hj : db'.gitFinalizations = db.gitFinalizations) :
    db'.fenceCurrent sc' = db.fenceCurrent sc := by
  unfold fenceCurrent GitFinalization.fences
  rw [hj, hkey.1, hkey.2, htoken]

end Registry

/-- The states from which a journal does not move on are the finished ones. -/
theorem GitFinalizationState.isUnfinished_eq (s : GitFinalizationState) :
    s.isUnfinished = !s.isTerminal := by
  cases s <;> rfl

/-! ## The calls that return a control -/

namespace RegistryOp

/-- The call returns the control to an idle resume request and keeps its run token. -/
def returnsControl : RegistryOp → SessionControl → Bool
  | .requestStoppedSessionResume projectId codexSessionId expectedRunToken _, sc =>
    sc.is projectId codexSessionId && sc.state = .stopped &&
      sqlSame sc.runToken expectedRunToken
  | .cancelSessionInterruptHandoff projectId codexSessionId interactiveHolder _, sc =>
    sc.is projectId codexSessionId && sc.state = .readyInteractive &&
      sqlEq sc.interactiveHolder (some interactiveHolder)
  | .transitionSessionControlState projectId codexSessionId source target _, sc =>
    sc.is projectId codexSessionId && sc.state = source && target = .resumeRequested &&
      sc.interactiveHolder.isNone
  | .recoverStaleAutomatedSessionControl projectId codexSessionId source target
      expectedChildPid expectedRunToken _, sc =>
    sc.is projectId codexSessionId && sc.state = source && target = .resumeRequested &&
      sqlEq sc.childPid (some expectedChildPid) && sqlSame sc.runToken expectedRunToken
  | .recoverStaleInteractiveSessionControl projectId codexSessionId source target
      expectedInteractiveHolder _, sc =>
    sc.is projectId codexSessionId && sc.state = source && target = .resumeRequested &&
      sqlSame sc.interactiveHolder expectedInteractiveHolder
  | .finalizeReattachedAutomatedSession expected .., sc =>
    sc.is expected.projectId expected.codexSessionId && sc.state = .running &&
      sqlEq sc.childPid expected.childPid && sqlEq sc.runToken expected.runToken &&
      sc.interactiveLaunchToken.isNone
  | .finalizeReapedAutomatedSession projectId expectedChildPid expectedRunToken .., sc =>
    sc.projectId == projectId && sc.state = .running &&
      sqlEq sc.childPid (some expectedChildPid) &&
      sqlEq sc.runToken (some expectedRunToken) && sc.interactiveLaunchToken.isNone
  | .finishInteractiveGuardian projectId codexSessionId guardianHolder disposition _, sc =>
    guardedControl projectId codexSessionId guardianHolder sc &&
      disposition = .resumeExec && sc.state = .interactive
  | .recoverStaleInteractiveGuardian projectId codexSessionId guardianHolder expectedChildPid
      disposition _, sc =>
    guardedControl projectId codexSessionId guardianHolder sc &&
      sqlEq sc.interactiveLaunchToken (some guardianHolder) &&
      sqlSame sc.childPid expectedChildPid && disposition = .resumeExec &&
      sc.state = .interactive
  | _, _ => false

theorem returnsControl_requestStoppedSessionResume {projectId : Int} {codexSessionId : String}
    {expectedRunToken : Option String} {now : String} {sc : SessionControl} :
    (requestStoppedSessionResume projectId codexSessionId expectedRunToken now).returnsControl sc =
      (sc.is projectId codexSessionId && sc.state = .stopped &&
        sqlSame sc.runToken expectedRunToken) := by
  rw [returnsControl]

/-- The call returns a control whose recovery token is not the current one. -/
def returnsStaleFence (op : RegistryOp) (db : Registry) : Bool :=
  db.sessionControls.any fun sc =>
    op.returnsControl sc && sc.isFenced && !(db.fenceCurrent sc)

end RegistryOp

/-! ## Where a control has its token from -/

/-- What the call `op` from `db` to `db'` may leave as a control: one that does not
wait, one with a current token, one that was there before and whose journal has not
moved, or one that the call has returned. -/
inductive FenceOrigin (op : RegistryOp) (db db' : Registry) (sc' : SessionControl) : Prop where
  | other (h : sc'.awaitsResume = false)
  | current (h : db'.fenceCurrent sc' = true)
  | kept (hmem : sc' ∈ db.sessionControls)
      (hj : ∀ g ∈ db.gitFinalizations, g.fences sc' = true → g ∈ db'.gitFinalizations)
  | returned {sc : SessionControl} (hmem : sc ∈ db.sessionControls)
      (hop : op.returnsControl sc = true)
      (hkey : sc'.projectId = sc.projectId ∧ sc'.codexSessionId = sc.codexSessionId)
      (htoken : sc'.runToken = sc.runToken) (hj : db'.gitFinalizations = db.gitFinalizations)

/-- Every control that `db'` has is one that the call `op` may leave. -/
structure FenceLaw (op : RegistryOp) (db db' : Registry) : Prop where
  origin : ∀ sc' ∈ db'.sessionControls, FenceOrigin op db db' sc'

namespace FenceOrigin

variable {op : RegistryOp} {db db' : Registry} {sc' : SessionControl}

theorem of_state (h : sc'.state ≠ .resumeRequested) : FenceOrigin op db db' sc' := by
  refine .other ?_
  simp [SessionControl.awaitsResume, h]

theorem of_kept (hmem : sc' ∈ db.sessionControls)
    (hj : db'.gitFinalizations = db.gitFinalizations) : FenceOrigin op db db' sc' :=
  .kept hmem fun _ hg _ => hj ▸ hg

/-- The controls after an update, under journals that stay. -/
theorem of_mem_rewrite {P : SessionControl → Bool} {f : SessionControl → SessionControl}
    {t : Table SessionControl}
    (hrows : t.rows = db.sessionControls.rows.map (Table.rewrite P f))
    (hj : db'.gitFinalizations = db.gitFinalizations)
    (h : ∀ sc ∈ db.sessionControls, P sc = true → FenceOrigin op db db' (f sc)) :
    ∀ sc' ∈ t, FenceOrigin op db db' sc' := by
  intro sc' hmem
  rw [Table.mem_def, hrows] at hmem
  obtain ⟨sc, hsc, rfl⟩ := List.mem_map.mp hmem
  unfold Table.rewrite
  split
  · rename_i hP
    exact h sc hsc hP
  · exact .of_kept hsc hj

/-- A waiting control has a current token, unless the call has returned a stale one. -/
theorem fenceCurrent (h : FenceOrigin op db db' sc') (hdb : db.FencesCurrent)
    (hstale : op.returnsStaleFence db = false) (hwaits : sc'.awaitsResume = true)
    (hfenced : sc'.isFenced = true) : db'.fenceCurrent sc' = true := by
  cases h with
  | other h =>
    rw [h] at hwaits
    cases hwaits
  | current h => exact h
  | kept hmem hj =>
    have hbefore := hdb sc' hmem hwaits hfenced
    obtain ⟨g, hg, hfences⟩ := Table.any_iff.mp hbefore
    exact Table.any_iff.mpr ⟨g, hj g hg hfences, hfences⟩
  | @returned sc hmem hop hkey htoken hj =>
    -- The call has looked at neither the token nor the journal.
    have hsc := Table.any_eq_false_iff.mp hstale sc hmem
    have hsame : sc.isFenced = true := by
      unfold SessionControl.isFenced at hfenced ⊢
      rwa [← htoken]
    rw [hop, hsame, Bool.true_and, Bool.true_and, Bool.not_eq_false'] at hsc
    rw [Registry.fenceCurrent_congr hkey htoken hj]
    exact hsc

end FenceOrigin

namespace FenceLaw

variable {op : RegistryOp} {db db' : Registry} {P : SessionControl → Bool}
  {f : SessionControl → SessionControl}

theorem refl (op : RegistryOp) (db : Registry) : FenceLaw op db db :=
  ⟨fun _ hmem => .of_kept hmem rfl⟩

/-- The controls are left alone, and no unfinished journal moves. -/
theorem of_journals (hcontrols : db'.sessionControls = db.sessionControls)
    (hj : ∀ g ∈ db.gitFinalizations, g.state.isUnfinished = true → g ∈ db'.gitFinalizations) :
    FenceLaw op db db' := by
  constructor
  intro sc' hmem
  rw [hcontrols] at hmem
  refine .kept hmem fun g hg hfences => hj g hg ?_
  simp only [GitFinalization.fences, Bool.and_eq_true] at hfences
  exact hfences.1.2

/-- An update of the controls under journals that stay. -/
theorem of_rewrite
    (hrows : db'.sessionControls.rows = db.sessionControls.rows.map (Table.rewrite P f))
    (hj : db'.gitFinalizations = db.gitFinalizations)
    (h : ∀ sc ∈ db.sessionControls, P sc = true → FenceOrigin op db db' (f sc)) :
    FenceLaw op db db' :=
  ⟨.of_mem_rewrite hrows hj h⟩

theorem of_delete (hrows : db'.sessionControls = db.sessionControls.delete P)
    (hj : db'.gitFinalizations = db.gitFinalizations) : FenceLaw op db db' := by
  constructor
  intro sc' hmem
  rw [hrows] at hmem
  exact .of_kept (Table.mem_delete.mp hmem).1 hj

/-- A delete that takes every control that fences a journal which the call moves. -/
theorem of_fence_deleted (hrows : db'.sessionControls = db.sessionControls.delete P)
    (hj : ∀ sc ∈ db.sessionControls, sc.awaitsResume = true → P sc = false →
      ∀ g ∈ db.gitFinalizations, g.fences sc = true → g ∈ db'.gitFinalizations) :
    FenceLaw op db db' := by
  constructor
  intro sc' hmem
  rw [hrows] at hmem
  obtain ⟨hsc, hP⟩ := Table.mem_delete.mp hmem
  by_cases hwaits : sc'.awaitsResume = true
  · exact .kept hsc (hj sc' hsc hwaits hP)
  · exact .other (Bool.not_eq_true _ ▸ hwaits)

/-- An upsert after which its row does not wait. -/
theorem of_upsert {r : SessionControl} {p : SessionControl → Bool}
    {hf : Compatible (fun a => Keyed.conflict a r && p a) f}
    (hrows : db'.sessionControls = (db.sessionControls.upsert r p f hf).1)
    (hr : r.state ≠ .resumeRequested) (hstate : ∀ sc, (f sc).state ≠ .resumeRequested)
    (hkept : ∀ sc ∈ db.sessionControls, (Keyed.conflict sc r && p sc) = false →
      FenceOrigin op db db' sc) : FenceLaw op db db' := by
  constructor
  intro sc' hmem
  rw [hrows] at hmem
  unfold Table.upsert at hmem
  split at hmem
  · rename_i hn
    rcases (Table.mem_append (h := hn)).mp hmem with hmem | rfl
    · refine hkept sc' hmem ?_
      rw [Table.any_eq_false_iff.mp hn sc' hmem, Bool.false_and]
    · exact .of_state hr
  · obtain ⟨sc, hsc, rfl⟩ := List.mem_map.mp hmem
    unfold Table.rewrite
    split
    · exact .of_state (hstate sc)
    · rename_i hP
      exact hkept sc hsc (Bool.not_eq_true _ ▸ hP)

/-- An upsert that takes the session whose journal the call moves. -/
theorem of_session_upsert {r : SessionControl}
    {hf : Compatible (fun a => Keyed.conflict a r && true) f}
    (hrows : db'.sessionControls = (db.sessionControls.upsert r (fun _ => true) f hf).1)
    (hr : r.state ≠ .resumeRequested) (hstate : ∀ sc, (f sc).state ≠ .resumeRequested)
    (hj : ∀ g ∈ db.gitFinalizations, g.is r.projectId r.codexSessionId = false →
      g ∈ db'.gitFinalizations) :
    FenceLaw op db db' := by
  refine of_upsert hrows hr hstate fun sc hsc hother => .kept hsc fun g hg hfences => hj g hg ?_
  simp only [GitFinalization.fences, GitFinalization.is, Bool.and_eq_true,
    beq_iff_eq] at hfences
  rw [Bool.and_true] at hother
  rw [GitFinalization.is, hfences.1.1.1, hfences.1.1.2]
  exact hother

end FenceLaw


/-! ## One lemma per call that moves a journal -/

namespace Registry

variable {db : Registry} {op : RegistryOp}

theorem transaction_fenceLaw {α : Type} {body : Step α (α × Registry)}
    (h : ∀ a db', body = .ok (a, db') → FenceLaw op db db') :
    FenceLaw op db (db.transaction body).db :=
  transaction_db (P := FenceLaw op db) (.refl op db) h

/-- A journal that the compare-and-set does not name stays. -/
theorem mem_of_not_rewritten {t t' : Table GitFinalization} {P : GitFinalization → Bool}
    {f : GitFinalization → GitFinalization} {g : GitFinalization}
    (hrows : t'.rows = t.rows.map (Table.rewrite P f)) (hg : g ∈ t) (hP : P g = false) :
    g ∈ t' := by
  rw [Table.mem_def, hrows]
  refine List.mem_map.mpr ⟨g, hg, ?_⟩
  rw [Table.rewrite, if_neg (by rw [hP]; exact Bool.false_ne_true)]

/-- The control under the current token is the one that the compare-and-set rewrites or
deletes. -/
theorem isRecoveryFence_of_fences {projectId : Int} {codexSessionId : String}
    {generation : Int} {sc : SessionControl} {g : GitFinalization}
    (hwaits : sc.awaitsResume = true) (hfences : g.fences sc = true)
    (hkey : g.is projectId codexSessionId = true) (hgen : g.generation = generation) :
    isRecoveryFence projectId codexSessionId generation sc = true := by
  simp only [GitFinalization.fences, GitFinalization.is, Bool.and_eq_true, beq_iff_eq]
    at hfences hkey
  simp only [SessionControl.awaitsResume, Bool.and_eq_true] at hwaits
  obtain ⟨⟨⟨hp, hs⟩, -⟩, htoken⟩ := hfences
  rw [hgen] at htoken
  simp only [isRecoveryFence, SessionControl.is, ← hp, ← hs, hkey.1, hkey.2, hwaits.1, hwaits.2,
    htoken, beq_self_eq_true, Bool.and_self]

/-- The fence of a journal ends or moves on with it. -/
theorem compareAndSetGitFinalization_fenceLaw (projectId : Int) (codexSessionId : String)
    (expectedGeneration : Int) (nextState : GitFinalizationState)
    (taskIdentity worktreeBaseline : Option String) (requireRunningOwner : Bool)
    (ownerRunToken commitOid lastError : Option String) (updatedAt : String) :
    FenceLaw op db
      (db.compareAndSetGitFinalization projectId codexSessionId expectedGeneration nextState
        taskIdentity worktreeBaseline requireRunningOwner ownerRunToken commitOid lastError
        updatedAt).db := by
  refine transaction_fenceLaw fun a db' h => ?_
  simp only [require_bind_eq_ok, fetch_bind_eq_ok, attempt_bind_eq_ok, beq_iff_eq] at h
  obtain ⟨row, hrow, current, hread, hgen, h⟩ := h
  obtain ⟨-, -, h⟩ := step_bind_eq_ok.mp h
  obtain ⟨-, -, h⟩ := step_bind_eq_ok.mp h
  simp only [require_bind_eq_ok, fetch_bind_eq_ok] at h
  obtain ⟨journals, hupdate, -, ⟨⟩⟩ := h
  obtain ⟨-, rfl⟩ := GitFinalization.recordFromRow_eq_ok.mp hread
  have hrows := Table.update?_eq_some hupdate
  -- A control that the call does not touch fences no journal that it moves.
  have hmoved : ∀ sc ∈ db.sessionControls, sc.awaitsResume = true →
      isRecoveryFence projectId codexSessionId expectedGeneration sc = false →
      ∀ g ∈ db.gitFinalizations, g.fences sc = true → g ∈ journals := by
    intro sc _ hwaits hne g hg hfences
    refine mem_of_not_rewritten hrows hg ?_
    rw [← Bool.not_eq_true]
    intro hP
    rw [Bool.and_eq_true, beq_iff_eq] at hP
    rw [isRecoveryFence_of_fences hwaits hfences hP.1 hP.2] at hne
    cases hne
  by_cases hterminal : nextState.isTerminal = true
  · rw [if_pos hterminal]
    exact .of_fence_deleted rfl hmoved
  · rw [if_neg hterminal]
    constructor
    intro sc' hmem
    obtain ⟨sc, hsc, rfl⟩ := List.mem_map.mp hmem
    unfold Table.rewrite
    split
    · rename_i hfence
      -- The new token is that of the row that the update leaves.
      refine .current (Table.any_iff.mpr ⟨_, Table.mem_rewritten hrows
        (Table.mem_of_find? hrow) ?_, ?_⟩)
      · rw [Bool.and_eq_true, beq_iff_eq]
        exact ⟨Table.of_find? hrow, hgen⟩
      · have hkey := Table.of_find? hrow
        simp only [isRecoveryFence, SessionControl.is, GitFinalization.is, Bool.and_eq_true,
          beq_iff_eq] at hfence hkey
        rw [Bool.not_eq_true] at hterminal
        simp only [GitFinalization.fences, GitFinalization.is, GitFinalization.advance,
          GitFinalizationState.isUnfinished_eq, hterminal, hfence.1.1.1, hkey, hgen,
          beq_self_eq_true, Bool.not_false, Bool.and_self, Bool.true_and]
        exact sqlEq_some.mpr rfl
    · rename_i hne
      rw [Bool.not_eq_true] at hne
      by_cases hwaits : sc.awaitsResume = true
      · exact .kept hsc (hmoved sc hsc hwaits hne)
      · exact .other (Bool.not_eq_true _ ▸ hwaits)

theorem beginMissingGitRecovery_fenceLaw (q : MissingGitRecovery) :
    FenceLaw op db (db.beginMissingGitRecovery q).db := by
  refine transaction_fenceLaw fun a db' h => ?_
  obtain ⟨-, h⟩ := require_bind_eq_ok.mp h
  obtain ⟨-, -, h⟩ := step_bind_eq_ok.mp h
  obtain ⟨-, h⟩ := require_bind_eq_ok.mp h
  obtain ⟨-, -, h⟩ := step_bind_eq_ok.mp h
  obtain ⟨-, -, h⟩ := step_bind_eq_ok.mp h
  obtain ⟨-, -, h⟩ := step_bind_eq_ok.mp h
  simp only [require_bind_eq_ok, fetch_bind_eq_ok] at h
  obtain ⟨-, _, -, ⟨⟩⟩ := h
  refine .of_session_upsert rfl nofun (fun _ => nofun) fun g hg hother => ?_
  dsimp only
  split
  · exact mem_of_not_rewritten rfl hg hother
  · exact hg

/-- Of the retirements each deletes the control that fences the journal it cancels. -/
theorem fenceLaw_of_cancel {db' : Registry} (projectId : Int) (codexSessionId : String)
    (generation : Int) {P : GitFinalization → Bool} {Q : SessionControl → Bool}
    {reason updatedAt : String}
    (hjournals : db'.gitFinalizations = db.gitFinalizations.update P
      (GitFinalization.cancel reason updatedAt) (GitFinalization.cancel_compatible _ _ _))
    (hcontrols : db'.sessionControls = db.sessionControls.delete Q)
    (hP : ∀ g ∈ db.gitFinalizations, P g = true →
      g.is projectId codexSessionId = true ∧ g.generation = generation)
    (hQ : ∀ sc, isRecoveryFence projectId codexSessionId generation sc = true → Q sc = true) :
    FenceLaw op db db' := by
  refine .of_fence_deleted hcontrols fun sc _ hwaits hkept g hg hfences => ?_
  rw [hjournals]
  refine mem_of_not_rewritten rfl hg ?_
  rw [← Bool.not_eq_true]
  intro hPg
  obtain ⟨hkey, hgen⟩ := hP g hg hPg
  rw [hQ sc (isRecoveryFence_of_fences hwaits hfences hkey hgen)] at hkept
  cases hkept

theorem cancelOrphanedWorkingGitFinalization_fenceLaw (expected : GitFinalization)
    (finalizerHolder reason updatedAt now : String) :
    FenceLaw op db
      (db.cancelOrphanedWorkingGitFinalization expected finalizerHolder reason updatedAt
        now).db := by
  refine transaction_fenceLaw fun a db' h => ?_
  simp only [require_bind_eq_ok, fetch_bind_eq_ok, attempt_bind_eq_ok] at h
  obtain ⟨_, -, _, -, -, -, -, -, ⟨⟩⟩ := h
  refine fenceLaw_of_cancel expected.projectId expected.codexSessionId
    expected.generation rfl rfl
    (fun g _ hP => ?_) fun sc hfence => ?_
  · simp only [Bool.and_eq_true, decide_eq_true_eq, beq_iff_eq] at hP
    exact ⟨hP.1.1.1.1.1, hP.1.1.1.2⟩
  · simp only [isRecoveryFence, Bool.and_eq_true] at hfence
    simp only [orphanControl, hfence.1.1.1, hfence.1.1.2, hfence.1.2, hfence.2, Bool.and_self,
      Bool.true_or]

/-- An idle resume request is an idle control. -/
theorem idleControl_of_isRecoveryFence {projectId : Int} {codexSessionId : String}
    {generation : Int} {sc : SessionControl}
    (h : isRecoveryFence projectId codexSessionId generation sc = true) :
    idleControl projectId codexSessionId sc = true := by
  simp only [isRecoveryFence, Bool.and_eq_true] at h
  simp only [idleControl, SessionControl.isParked, h.1.1.1, h.1.1.2, h.1.2, Bool.or_true,
    Bool.and_self]

theorem retireAbandonedUnboundGitFinalization_fenceLaw (projectId : Int)
    (codexSessionId : String) (expectedGeneration : Int) (completedTask : Bool)
    (reason updatedAt : String) :
    FenceLaw op db
      (db.retireAbandonedUnboundGitFinalization projectId codexSessionId expectedGeneration
        completedTask reason updatedAt).db := by
  refine transaction_fenceLaw fun a db' h => ?_
  obtain ⟨-, ⟨⟩⟩ := require_bind_eq_ok.mp h
  refine fenceLaw_of_cancel projectId codexSessionId expectedGeneration rfl rfl (fun g _ hP => ?_)
    fun sc => idleControl_of_isRecoveryFence
  simp only [Bool.and_eq_true, beq_iff_eq] at hP
  exact ⟨hP.1.1, hP.2⟩

theorem retireSupersededWorkingGitFinalization_fenceLaw
    (expected completed : GitFinalization) (updatedAt : String) :
    FenceLaw op db
      (db.retireSupersededWorkingGitFinalization expected completed updatedAt).db := by
  refine transaction_fenceLaw fun a db' h => ?_
  simp only [require_bind_eq_ok, attempt_bind_eq_ok, beq_iff_eq] at h
  obtain ⟨-, _, hread, rfl, _, -, -, -, ⟨⟩⟩ := h
  refine fenceLaw_of_cancel expected.projectId expected.codexSessionId
    expected.generation rfl rfl
    (fun g hg hP => ⟨hP, ?_⟩) fun sc hfence => ?_
  · rw [eq_of_journal? (of_readJournal hread) hg hP]
  · simp only [isRecoveryFence, Bool.and_eq_true] at hfence
    exact hfence.1.1.1

theorem cancelJournal_fenceLaw {projectId : Int} {codexSessionId : String}
    {expectedGeneration : Int} {taskIdentity : Option String} {acquiredAt : String}
    {cancellation : GitTaskCancellation} {leases : Table Lease} {a : Bool} {db' : Registry}
    (h : db.cancelJournal projectId codexSessionId expectedGeneration taskIdentity acquiredAt
      cancellation leases = .ok (a, db')) : FenceLaw op db db' := by
  have hnames : ∀ g, cancellable projectId codexSessionId expectedGeneration taskIdentity g =
      true → g.is projectId codexSessionId = true ∧ g.generation = expectedGeneration := by
    intro g hP
    simp only [cancellable, Bool.and_eq_true, beq_iff_eq] at hP
    exact ⟨hP.1.1.1, hP.1.2⟩
  unfold cancelJournal at h
  obtain ⟨-, h⟩ := require_bind_eq_ok.mp h
  cases cancellation with
  | deletion =>
    cases h
    refine .of_session_upsert rfl nofun (fun _ => nofun) fun g hg hother => ?_
    refine mem_of_not_rewritten rfl hg ?_
    rw [← Bool.not_eq_true]
    intro hP
    rw [(hnames g hP).1] at hother
    cases hother
  | externalCompletion =>
    cases h
    exact fenceLaw_of_cancel _ _ _ rfl rfl (fun g _ => hnames g) fun sc =>
      idleControl_of_isRecoveryFence

theorem cancelIdleWorkingGitFinalization_fenceLaw (projectId : Int)
    (codexSessionId : String) (expectedGeneration : Int) (taskIdentity : Option String)
    (leaseHolder acquiredAt expiresAt : String) (cancellation : GitTaskCancellation) :
    FenceLaw op db
      (db.cancelIdleWorkingGitFinalization projectId codexSessionId expectedGeneration
        taskIdentity leaseHolder acquiredAt expiresAt cancellation).db := by
  refine transaction_fenceLaw fun a db' h => ?_
  split at h
  · exact cancelJournal_fenceLaw h
  · simp only [require_bind_eq_ok] at h
    obtain ⟨-, -, -, -, h⟩ := h
    obtain ⟨_, -, h⟩ := step_bind_eq_ok.mp h
    split at h
    · exact cancelJournal_fenceLaw h
    · cases h
      exact .of_journals rfl fun g hg _ => hg

theorem acknowledgeCompletedGitFinalizationSession_fenceLaw (projectId : Int)
    (codexSessionId acknowledgedAt : String) :
    FenceLaw op db
      (db.acknowledgeCompletedGitFinalizationSession projectId codexSessionId
        acknowledgedAt).db := by
  refine transaction_fenceLaw fun a db' h => ?_
  obtain ⟨_, -, h⟩ := fetch_bind_eq_ok.mp h
  obtain ⟨_, -, h⟩ := fetch_bind_eq_ok.mp h
  split at h
  · cases h
    exact .of_delete rfl rfl
  · obtain ⟨_, -, h⟩ := step_bind_eq_ok.mp h
    obtain ⟨-, ⟨⟩⟩ := require_bind_eq_ok.mp h
    refine .of_fence_deleted rfl fun sc _ _ _ g hg hfences => mem_of_not_rewritten rfl hg ?_
    -- The acknowledged journal is finished.
    simp only [GitFinalization.fences, Bool.and_eq_true] at hfences
    have hopen : g.state ≠ .completed := by
      intro hdone
      rw [hdone, GitFinalizationState.isUnfinished_eq] at hfences
      exact Bool.false_ne_true hfences.1.2
    simp [hopen]

/-- A new journal moves none of those that are there. -/
theorem subset_of_insertOrIgnoreInto {projectId : Int} {t : Table GitFinalization}
    {r : GitFinalization} {res : Table GitFinalization × Nat}
    (h : db.insertOrIgnoreInto projectId t r = some res) {g : GitFinalization} (hg : g ∈ t) :
    g ∈ res.1 := by
  rw [insertOrIgnoreInto_eq_some h]
  exact Table.subset_insertOrIgnore hg

theorem createGitFinalization_fenceLaw (n : NewGitFinalization) :
    FenceLaw op db (db.createGitFinalization n).db := by
  refine transaction_fenceLaw fun a db' h => ?_
  simp only [require_bind_eq_ok, fetch_bind_eq_ok] at h
  obtain ⟨-, -, -, _, hins, ⟨⟩⟩ := h
  exact .of_journals rfl fun g hg _ => subset_of_insertOrIgnoreInto hins hg

theorem enableSessionGit_fenceLaw (journal : NewGitFinalization) (leaseHolder now : String) :
    FenceLaw op db (db.enableSessionGit journal leaseHolder now).db := by
  refine transaction_fenceLaw fun a db' h => ?_
  simp only [require_bind_eq_ok, fetch_bind_eq_ok] at h
  obtain ⟨-, -, _, hins, ⟨⟩⟩ := h
  refine .of_journals rfl fun g hg _ => ?_
  rw [Table.mem_def, (Table.insert?_eq_some (insertInto_eq_some hins)).2]
  exact List.mem_append_left _ hg

/-- A registration takes over the launch boundary of its run, and moves no journal. -/
theorem subset_of_registerGitMode {registered : Registry} {projectId : Int}
    {codexSessionId runToken : String} {gitMode : Option AgentGitMode} {createdAt : String}
    (h : db.registerGitMode projectId codexSessionId runToken gitMode createdAt =
      .ok registered) {g : GitFinalization} (hg : g ∈ db.gitFinalizations) :
    g ∈ registered.gitFinalizations := by
  unfold registerGitMode at h
  split at h
  · cases h
    exact hg
  · simp only [require_bind_eq_ok, fetch_bind_eq_ok] at h
    obtain ⟨_, -, -, h⟩ := h
    split at h
    · obtain ⟨-, ⟨⟩⟩ := require_bind_eq_ok.mp h
      exact hg
    · obtain ⟨res, hres, h⟩ := step_bind_eq_ok.mp h
      obtain ⟨-, h⟩ := require_bind_eq_ok.mp h
      have hkept : g ∈ res.1 := by
        unfold createLaunchJournal at hres
        split at hres
        · cases hres
          exact hg
        · rw [fetch_eq_ok] at hres
          exact subset_of_insertOrIgnoreInto hres hg
      split at h
      · obtain ⟨-, ⟨⟩⟩ := require_bind_eq_ok.mp h
        exact hkept
      · cases h
        exact hkept

theorem markRunning_state_ne {childPid : Nat} {runToken stdoutPath stderrPath now : String}
    {sc : SessionControl} :
    (markRunning childPid runToken stdoutPath stderrPath now sc).state ≠ .resumeRequested := by
  unfold markRunning
  dsimp only
  split
  · rename_i h
    simp only [Bool.and_eq_true, Bool.or_eq_true, decide_eq_true_eq] at h
    rcases h.2 with hs | hs <;> rw [hs] <;> nofun
  · nofun

theorem markSessionRunning_fenceLaw (projectId : Int) (codexSessionId : String)
    (childPid : Nat) (runToken stdoutPath stderrPath : String) (gitMode : Option AgentGitMode)
    (now createdAt : String) :
    FenceLaw op db
      (db.markSessionRunning projectId codexSessionId childPid runToken stdoutPath stderrPath
        gitMode now createdAt).db := by
  refine transaction_fenceLaw fun a db' h => ?_
  simp only [require_bind_eq_ok] at h
  obtain ⟨-, -, -, h⟩ := h
  obtain ⟨_, hreg, ⟨⟩⟩ := step_bind_eq_ok.mp h
  exact .of_session_upsert rfl nofun (fun _ => markRunning_state_ne) fun g hg _ =>
    subset_of_registerGitMode hreg hg

end Registry

end Clt
