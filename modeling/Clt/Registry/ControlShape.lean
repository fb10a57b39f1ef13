import Clt.Registry.ControlEffect

/-!
# Well-formed session controls

The ownership columns of a control go with its state: a process, a launch token and an
interactive holder each belong to some states only. Most calls clear what the new
state may not have. Three do not: the registration of an automated run keeps the
launch token of the control it takes over, the report of a reaped process keeps it in
the control it stops, and the raw state transition keeps the holder. `breaksShape`
says when this matters; every other step keeps the controls well formed.
-/

namespace Clt

open Relational Registry

namespace AgentSessionControlState

/-- The states in which a control may record a process. -/
def mayRecordChild : AgentSessionControlState → Bool
  | running | stopRequested | interruptRequested | interactive => true
  | _ => false

/-- The states in which a control may carry a launch token. -/
def mayBeLaunched : AgentSessionControlState → Bool
  | interactive | stopRequested => true
  | _ => false

/-- The states in which a control may have an interactive holder. -/
def mayBeHeld : AgentSessionControlState → Bool
  | interruptRequested | readyInteractive | interactive | stopRequested => true
  | _ => false

end AgentSessionControlState

/-- The ownership columns of a control fit its state. -/
structure SessionControl.WellFormed (sc : SessionControl) : Prop where
  childPid : sc.childPid ≠ none → sc.state.mayRecordChild = true
  launchToken : sc.interactiveLaunchToken ≠ none →
    sc.state.mayBeLaunched = true ∧ sc.interactiveLaunchToken = sc.interactiveHolder
  holder : sc.interactiveHolder ≠ none → sc.state.mayBeHeld = true

namespace SessionControl.WellFormed

variable {sc : SessionControl}

instance (sc : SessionControl) : Decidable sc.WellFormed :=
  decidable_of_iff
    ((sc.childPid ≠ none → sc.state.mayRecordChild = true) ∧
      (sc.interactiveLaunchToken ≠ none →
        sc.state.mayBeLaunched = true ∧ sc.interactiveLaunchToken = sc.interactiveHolder) ∧
      (sc.interactiveHolder ≠ none → sc.state.mayBeHeld = true))
    ⟨fun h => ⟨h.1, h.2.1, h.2.2⟩, fun h => ⟨h.childPid, h.launchToken, h.holder⟩⟩

theorem childPid_eq_none (h : sc.WellFormed) (hs : sc.state.mayRecordChild = false) :
    sc.childPid = none := by
  by_contra hne
  rw [h.childPid hne] at hs
  cases hs

theorem launchToken_eq_none (h : sc.WellFormed) (hs : sc.state.mayBeLaunched = false) :
    sc.interactiveLaunchToken = none := by
  by_contra hne
  rw [(h.launchToken hne).1] at hs
  cases hs

theorem holder_eq_none (h : sc.WellFormed) (hs : sc.state.mayBeHeld = false) :
    sc.interactiveHolder = none := by
  by_contra hne
  rw [h.holder hne] at hs
  cases hs

/-- A stopped or waiting control records no owner at all. -/
theorem isIdle_of_isParked (h : sc.WellFormed) (hp : sc.isParked = true) : sc.isIdle = true := by
  simp only [isParked, Bool.or_eq_true, decide_eq_true_eq] at hp
  have hstate : sc.state.mayRecordChild = false ∧ sc.state.mayBeLaunched = false ∧
      sc.state.mayBeHeld = false := by
    rcases hp with hp | hp <;> rw [hp] <;> exact ⟨rfl, rfl, rfl⟩
  simp [isIdle, h.childPid_eq_none hstate.1, h.launchToken_eq_none hstate.2.1,
    h.holder_eq_none hstate.2.2]

/-- A control without a process or an owner is well formed in any state. -/
theorem of_isIdle (h : sc.isIdle = true) : sc.WellFormed := by
  simp only [isIdle, Bool.and_eq_true, Option.isNone_iff_eq_none] at h
  exact ⟨fun hc => absurd h.1.1 hc, fun hl => absurd h.2 hl, fun hh => absurd h.1.2 hh⟩

end SessionControl.WellFormed

/-- Every control of the registry is well formed. -/
def ControlsWellFormed (db : Registry) : Prop := ∀ sc ∈ db.sessionControls, sc.WellFormed

instance (db : Registry) : Decidable (ControlsWellFormed db) :=
  inferInstanceAs (Decidable (∀ sc ∈ db.sessionControls, sc.WellFormed))

/-! ## The steps that may break a control -/

/-- The checks of `mark_session_running` pass. -/
def Registry.admitsRun (db : Registry) (projectId : Int) (codexSessionId runToken : String)
    (gitMode : Option AgentGitMode) (createdAt : String) : Bool :=
  !(db.knownWorker runToken && !(db.fencedWorker runToken projectId)) &&
  !(db.fencedWorker runToken projectId && db.sessionControls.any fun sc =>
    sc.is projectId codexSessionId && sqlNe sc.runToken (some runToken)) &&
  (db.registerGitMode projectId codexSessionId runToken gitMode createdAt).isOk

namespace RegistryOp

/-- The call registers a run, and its checks do not pass. -/
def refused : RegistryOp → Registry → Bool
  | .markSessionRunning projectId codexSessionId _ runToken _ _ gitMode _ createdAt, db =>
    !(db.admitsRun projectId codexSessionId runToken gitMode createdAt)
  | _, _ => false

/-- The control carries an owner that the call's write does not clear. -/
def keepsOwner : RegistryOp → SessionControl → Bool
  | .markSessionRunning projectId codexSessionId .., sc =>
    sc.is projectId codexSessionId && sc.interactiveLaunchToken.isSome
  | .finalizeReapedAutomatedSession projectId expectedChildPid expectedRunToken .., sc =>
    sc.projectId == projectId && sqlEq sc.childPid (some expectedChildPid) &&
      sqlEq sc.runToken (some expectedRunToken) && sc.state = .stopRequested &&
      sc.interactiveLaunchToken.isSome
  | .transitionSessionControlState projectId codexSessionId source target _, sc =>
    sc.is projectId codexSessionId && sc.state = source && sc.interactiveHolder.isSome &&
      !target.mayBeHeld
  | _, _ => false

/-- The call writes a control and keeps an owner that its new state may not have. -/
def breaksShape (op : RegistryOp) (db : Registry) : Bool :=
  !(op.refused db) && db.sessionControls.any op.keepsOwner

end RegistryOp

variable {op : RegistryOp} {db : Registry}

/-- A refused registration changes nothing. -/
theorem apply_of_refused (h : op.refused db = true) : op.apply db = db := by
  cases op with
  | markSessionRunning projectId codexSessionId childPid runToken stdoutPath stderrPath gitMode
      now createdAt =>
    refine transaction_db (P := fun db' => db' = db) rfl fun a db' hbody => ?_
    simp only [require_bind_eq_ok] at hbody
    obtain ⟨hknown, hother, -, hbody⟩ := hbody
    obtain ⟨registered, hregister, -⟩ := step_bind_eq_ok.mp hbody
    simp only [RegistryOp.refused, admitsRun, hknown, hother, hregister] at h
    cases h
  | _ => cases h

theorem ControlInsert.wellFormed {sc : SessionControl} (h : ControlInsert sc) : sc.WellFormed := by
  cases h with
  | parked _ hidle => exact .of_isIdle hidle
  | reserved => exact ⟨nofun, nofun, fun _ => rfl⟩
  | running => exact ⟨fun _ => rfl, nofun, nofun⟩

/-- A call that keeps no owner of the control writes a well-formed one. -/
theorem ControlWrite.wellFormed {sc sc' : SessionControl} (hw : ControlWrite op sc sc')
    (h : sc.WellFormed) (hkeeps : op.keepsOwner sc = false) : sc'.WellFormed := by
  cases hw with
  | requestInterrupt hstate =>
    have hlaunch := h.launchToken_eq_none (by rw [hstate]; rfl)
    exact ⟨fun _ => rfl, fun hl => absurd hlaunch hl, fun _ => rfl⟩
  | withdrawInterrupt hstate => exact ⟨fun _ => rfl, fun h => absurd rfl h, fun h => absurd rfl h⟩
  | withdrawReservation hstate => exact .of_isIdle rfl
  | requestStop hstate =>
    exact ⟨fun _ => rfl, fun hl => ⟨rfl, (h.launchToken hl).2⟩, fun _ => rfl⟩
  | completeStop hstate => exact .of_isIdle rfl
  | resume => exact .of_isIdle rfl
  | reserve => exact ⟨fun h => absurd rfl h, fun h => absurd rfl h, fun _ => rfl⟩
  | @transition _ _ source target _ hop hkey hstate =>
    subst hop
    simp only [RegistryOp.keepsOwner, hkey, hstate, decide_true, Bool.true_and,
      Bool.and_eq_false_iff, Bool.not_eq_false'] at hkeeps
    refine ⟨fun hc => ?_, fun h => absurd rfl h, fun hh => ?_⟩
    · by_cases ht : target = .running
      · rw [ht]
        rfl
      · exact absurd (if_neg ht) hc
    · refine hkeeps.resolve_left fun hnone => hh ?_
      simpa using hnone
  | recoverStale => exact .of_isIdle rfl
  | tag hstate => exact ⟨h.childPid, h.launchToken, h.holder⟩
  | park hp =>
    refine .of_isIdle ?_
    have := h.isIdle_of_isParked hp
    exact this
  | register hop hkey =>
    subst hop
    have hlaunch : sc.interactiveLaunchToken = none := by
      simpa [RegistryOp.keepsOwner, hkey] using hkeeps
    refine ⟨fun _ => ?_, fun hl => absurd hlaunch hl, fun hh => ?_⟩
    · unfold markRunning
      dsimp only
      split
      · rename_i hc
        simp only [Bool.and_eq_true, Bool.or_eq_true, decide_eq_true_eq] at hc
        rcases hc.2 with hs | hs <;> rw [hs] <;> rfl
      · rfl
    · simp only [markRunning] at hh ⊢
      split at hh
      · rename_i hc
        simp only [Bool.and_eq_true, decide_eq_true_eq] at hc
        simp only [hc.1, hc.2]
        rfl
      · exact absurd rfl hh
  | claimResume => exact ⟨fun _ => rfl, fun h => absurd rfl h, fun h => absurd rfl h⟩
  | claimPlanning hop hkey hidle =>
    simp only [SessionControl.isIdle, Bool.and_eq_true, Option.isNone_iff_eq_none] at hidle
    exact ⟨fun _ => rfl, fun hl => absurd hidle.2 hl, fun hh => absurd hidle.1.2 hh⟩
  | @exit next holder _ hnext hholder hlaunch =>
    have hnone : sc.interactiveLaunchToken = none := by
      by_cases hs : sc.state = .stopRequested
      · refine hlaunch.elim id fun hreaps => ?_
        cases op with
        | finalizeReapedAutomatedSession =>
          simp only [RegistryOp.reaps] at hreaps
          simpa only [RegistryOp.keepsOwner, hreaps, hs, decide_true, Bool.true_and,
            Option.isSome_eq_false_iff, Option.isNone_iff_eq_none] using hkeeps
        | _ => cases hreaps
      · refine h.launchToken_eq_none ?_
        cases hstate : sc.state <;> rw [hstate] at hnext hs <;>
          first | rfl | exact absurd rfl hs | cases hnext
    refine ⟨fun h => absurd rfl h, fun hl => absurd hnone hl, fun hh => ?_⟩
    rcases hholder with rfl | rfl
    · exact absurd rfl hh
    · rfl
  | handOff => exact ⟨fun h => absurd rfl h, fun h => absurd rfl h, fun _ => rfl⟩
  | adopt => exact ⟨fun h => absurd rfl h, fun _ => ⟨rfl, rfl⟩, fun _ => rfl⟩
  | registerChild hstate =>
    exact ⟨fun _ => by show sc.state.mayRecordChild = true; rw [hstate]; rfl, h.launchToken,
      h.holder⟩
  | endInteractive => exact .of_isIdle rfl

/-- A step that breaks no control keeps all of them well formed. -/
theorem controlsWellFormed_apply (hstep : op.breaksShape db = false)
    (h : ControlsWellFormed db) : ControlsWellFormed (op.apply db) := by
  rw [RegistryOp.breaksShape, Bool.and_eq_false_iff, Bool.not_eq_false'] at hstep
  rcases hstep with hrefused | hkeeps
  · rw [apply_of_refused hrefused]
    exact h
  · intro sc' hsc'
    rcases (op.controlEffect db).origin sc' hsc' with ⟨sc, hsc, rfl | hw⟩ | hinsert
    · exact h sc' hsc
    · exact hw.wellFormed (h sc hsc) (Table.any_eq_false_iff.mp hkeeps sc hsc)
    · exact hinsert.wellFormed

/-- In every run whose steps keep no owner that they should clear, every state reached
has well-formed controls only, and a stopped or waiting one records no owner. -/
theorem controls_wellFormed (ops : List RegistryOp) (h : ControlsWellFormed db)
    (hrun : Transition.Along RegistryOp.apply (fun op s => op.breaksShape s = false) ops db) :
    ∀ pre post, ops = pre ++ post → ∀ sc ∈ (runOps pre db).sessionControls,
      sc.WellFormed ∧ (sc.isParked = true → sc.isIdle = true) := by
  rintro pre post rfl sc hsc
  have hwf : ControlsWellFormed (runOps pre db) :=
    Transition.exec_invariant_along (fun _ _ => controlsWellFormed_apply)
      (Transition.along_append.mp hrun).1 h
  exact ⟨hwf sc hsc, (hwf sc hsc).isIdle_of_isParked⟩

/-- A run that is stopped, resumed, and registered again. -/
def resumedRun : List RegistryOp :=
  [.requestSessionStop 1 "s" 7 "t" "2", .completeSessionStop 1 "s" "t" "3",
    .requestStoppedSessionResume 1 "s" (some "t") "4",
    .markSessionRunning 1 "s" 8 "t2" "out" "err" none "5" "5"]

theorem controls_wellFormed_resumedRun :
    ControlsWellFormed managedRegistry ∧ ControlsWellFormed (runOps resumedRun managedRegistry) :=
  ⟨by decide, fun sc hsc =>
    (controls_wellFormed resumedRun (by decide) (by decide) resumedRun [] rfl sc hsc).1⟩

/-- A session that a guardian runs interactively, over which a run is registered. -/
def takenOverRun : List RegistryOp :=
  [.reserveSharedSessionInteractive 1 "u" "clt-shared-interactive-7" none true "2",
    .adoptInteractiveGuardian 1 (some "u") "clt-shared-interactive-7"
      "clt-shared-interactive-worker-9" "3" "60" "3",
    .markSessionRunning 1 "u" 8 "t" "out" "err" none "4" "4"]

/-- The registration leaves the guardian's launch token in a running control. -/
theorem launchToken_left_by_takenOverRun :
    ControlsWellFormed managedRegistry ∧
    ((runOps takenOverRun managedRegistry).control? 1 "u").map
      (fun sc => (sc.state, sc.interactiveHolder, sc.interactiveLaunchToken)) =
        some (.running, none, some "clt-shared-interactive-worker-9") ∧
    ¬ ControlsWellFormed (runOps takenOverRun managedRegistry) := by
  decide

end Clt
