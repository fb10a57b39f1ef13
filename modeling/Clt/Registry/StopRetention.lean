import Clt.Registry.ControlEffect

/-!
# A user's stop is kept

A control in `stop_requested` or `stopped` holds its session. `releasesStop` lists the
calls that may end that: the user resumes or reserves the session or starts its
planning run, its control goes together with its Git journal, or a new run is
registered for it. No other call does, so over any run the session stays held up to
the first of these.
-/

namespace Clt

open Relational Registry

/-- `state IN ('stop_requested', 'stopped')`. -/
def SessionControl.isHeld (sc : SessionControl) : Bool :=
  sc.state = .stopRequested || sc.state = .stopped

theorem SessionControl.isHeld_iff {sc : SessionControl} :
    sc.isHeld = true ↔ sc.state = .stopRequested ∨ sc.state = .stopped := by
  simp [isHeld]

namespace RegistryOp

/-- Stale controls are recovered to the state that the reconciliation computes. -/
def reconciles (op : RegistryOp) : Bool :=
  match op.recovers with
  | some (source, target) => recoveryState source = some target
  | none => true

/-- A run is registered for the session over a stop that was completed, or that was
requested from another run. -/
def registersOver (projectId : Int) (codexSessionId : String) : RegistryOp → Registry → Bool
  | .markSessionRunning project session _ runToken .., db =>
    project == projectId && session == codexSessionId &&
      db.sessionControls.any fun sc => sc.is projectId codexSessionId &&
        (sc.state = .stopped || !(sqlEq sc.runToken (some runToken)))
  | _, _ => false

/-- The calls that may end a stop of the session. -/
def releasesStop (projectId : Int) (codexSessionId : String) (op : RegistryOp)
    (db : Registry) : Bool :=
  op.resumedSession = some (projectId, codexSessionId) ||
  op.reservedSession = some (projectId, codexSessionId) ||
  op.plannedSession = some (projectId, codexSessionId) ||
  op.retiredSession = some (projectId, codexSessionId) ||
  op.registersOver projectId codexSessionId db

end RegistryOp

/-- The session is held by a stop. -/
def Registry.IsHeld (db : Registry) (projectId : Int) (codexSessionId : String) : Prop :=
  ∃ sc ∈ db.sessionControls, sc.is projectId codexSessionId = true ∧ sc.isHeld = true

variable {projectId : Int} {codexSessionId : String} {op : RegistryOp} {db : Registry}

/-- A row is the row of one session only. -/
private theorem session_eq {sc : SessionControl} {p : Int} {s : String}
    (h : sc.is projectId codexSessionId = true) (h' : sc.is p s = true) :
    some (p, s) = some (projectId, codexSessionId) := by
  simp only [SessionControl.is, Bool.and_eq_true, beq_iff_eq] at h h'
  rw [← h.1, ← h.2, h'.1, h'.2]

theorem isHeld_of_recoveryState {sc : SessionControl} {source target : AgentSessionControlState}
    (hheld : sc.isHeld = true) (hsource : sc.state = source)
    (h : recoveryState source = some target) : target = .stopped := by
  rcases SessionControl.isHeld_iff.mp hheld with hstate | hstate
  · rw [← hsource, hstate] at h
    exact (Option.some.inj h).symm
  · rw [← hsource, hstate] at h
    cases h

/-- A call that does not release the stop writes a held control into a held one. -/
theorem ControlWrite.isHeld {sc sc' : SessionControl} (hw : ControlWrite op sc sc')
    (hsc : sc ∈ db.sessionControls) (hkey : sc.is projectId codexSessionId = true)
    (hheld : sc.isHeld = true) (hreconciles : op.reconciles = true)
    (hrelease : op.releasesStop projectId codexSessionId db = false) : sc'.isHeld = true := by
  have hstate := SessionControl.isHeld_iff.mp hheld
  simp only [RegistryOp.releasesStop, Bool.or_eq_false_iff, decide_eq_false_iff_not] at hrelease
  obtain ⟨⟨⟨⟨hresume, hreserve⟩, hplan⟩, -⟩, hregister⟩ := hrelease
  have hnot : ∀ {state : AgentSessionControlState}, sc.state = state →
      state ≠ .stopRequested → state ≠ .stopped → sc'.isHeld = true := by
    intro state h h1 h2
    rw [h] at hstate
    exact absurd hstate (not_or.mpr ⟨h1, h2⟩)
  cases hw with
  | requestInterrupt h => exact hnot h nofun nofun
  | withdrawInterrupt h => exact hnot h nofun nofun
  | withdrawReservation h => exact hnot h nofun nofun
  | requestStop h => rcases h with h | h <;> exact hnot h nofun nofun
  | completeStop h => rfl
  | resume hop hk => exact absurd (hop.trans (session_eq hkey hk)) hresume
  | reserve hop hk h => exact absurd (hop.trans (session_eq hkey hk)) hreserve
  | transition hop hk h =>
    rw [hop] at hreconciles
    have := isHeld_of_recoveryState hheld h (of_decide_eq_true hreconciles)
    simp [SessionControl.isHeld, this]
  | recoverStale hop h =>
    rw [RegistryOp.reconciles, hop] at hreconciles
    have := isHeld_of_recoveryState hheld h (of_decide_eq_true hreconciles)
    simp [SessionControl.isHeld, SessionControl.settle, this]
  | tag h => exact hnot h nofun nofun
  | park h => rfl
  | register hop hk =>
    -- The stop was requested from the very run that is registered again.
    have hsame := Option.some.inj (session_eq hkey hk)
    rw [hop] at hregister
    simp only [RegistryOp.registersOver, (Prod.mk.inj hsame).1, (Prod.mk.inj hsame).2,
      beq_self_eq_true, Bool.true_and] at hregister
    have hkept := Table.any_eq_false_iff.mp hregister sc hsc
    simp only [hkey, Bool.true_and, Bool.or_eq_false_iff, decide_eq_false_iff_not,
      Bool.not_eq_false'] at hkept
    have hrequested := hstate.resolve_right hkept.1
    simp [SessionControl.isHeld, markRunning, hrequested, hkept.2]
  | claimResume h => exact hnot h nofun nofun
  | claimPlanning hop hk hidle => exact absurd (hop.trans (session_eq hkey hk)) hplan
  | exit hnext hholder hlaunch =>
    rcases hstate with h | h
    · rw [h] at hnext
      obtain rfl := Option.some.inj hnext
      rfl
    · rw [h] at hnext
      cases hnext
  | handOff h => exact hnot h nofun nofun
  | adopt h => exact hnot h nofun nofun
  | registerChild h => exact hnot h nofun nofun
  | endInteractive h =>
    rcases h with h | h
    · exact hnot h nofun nofun
    · simp [SessionControl.isHeld, Registry.endInteractive, SessionControl.settle, h]

/-- A call that does not release the stop deletes no held control. -/
theorem ControlDelete.not_isHeld {sc : SessionControl} (hd : ControlDelete op sc)
    (hkey : sc.is projectId codexSessionId = true)
    (hrelease : op.releasesStop projectId codexSessionId db = false) : ¬ sc.isHeld = true := by
  rw [SessionControl.isHeld_iff]
  cases hd with
  | resumeRequested h => simp [h]
  | running h => simp [h]
  | reservation h => simp [h]
  | retired hop hk =>
    rw [session_eq hkey hk] at hop
    simp [RegistryOp.releasesStop, hop] at hrelease

/-- One call keeps a stop unless it releases it. -/
theorem isHeld_apply (hheld : db.IsHeld projectId codexSessionId) (hreconciles : op.reconciles = true)
    (hrelease : op.releasesStop projectId codexSessionId db = false) :
    (op.apply db).IsHeld projectId codexSessionId := by
  obtain ⟨sc, hsc, hkey, hs⟩ := hheld
  rcases (op.controlEffect db).kept sc hsc with ⟨sc', hsc', rfl | hw⟩ | hd
  · exact ⟨sc', hsc', hkey, hs⟩
  · refine ⟨sc', hsc', ?_, hw.isHeld hsc hkey hs hreconciles hrelease⟩
    simpa [SessionControl.is, hw.key.1, hw.key.2] using hkey
  · exact absurd hs (hd.not_isHeld hkey hrelease)

/-- Over a run a session stays stopped up to the first call that releases the stop. -/
theorem stop_retained (ops : List RegistryOp) (hcalls : ∀ op ∈ ops, op.reconciles = true)
    (hheld : db.IsHeld projectId codexSessionId) :
    (runOps ops db).IsHeld projectId codexSessionId ∨
    ∃ pre op post, ops = pre ++ op :: post ∧ (runOps pre db).IsHeld projectId codexSessionId ∧
      op.releasesStop projectId codexSessionId (runOps pre db) = true := by
  by_cases hend : (runOps ops db).IsHeld projectId codexSessionId
  · exact .inl hend
  · obtain ⟨pre, op, post, hops, hbefore, hafter⟩ :=
      Transition.exists_crossing
        (P := fun s : Registry => ¬ s.IsHeld projectId codexSessionId)
        (not_not.mpr hheld) hend
    refine .inr ⟨pre, op, post, hops, not_not.mp hbefore, ?_⟩
    by_contra hrelease
    rw [Bool.not_eq_true] at hrelease
    have hop : op.reconciles = true := hcalls op (by simp [hops])
    exact hafter (isHeld_apply (not_not.mp hbefore) hop hrelease)

/-- The registry of `managedRegistry` after the user has requested a stop. -/
def stopRequestedRegistry : Registry :=
  (RegistryOp.requestSessionStop 1 "s" 7 "t" "2").apply managedRegistry

/-- The run whose stop was requested is registered again and then ends. -/
def stoppedRun : List RegistryOp :=
  [.markSessionRunning 1 "s" 7 "t" "out" "err" none "3" "3", .completeSessionStop 1 "s" "t" "4"]

theorem stop_retained_stoppedRun :
    (runOps stoppedRun stopRequestedRegistry).IsHeld 1 "s" ∨
    ∃ pre op post, stoppedRun = pre ++ op :: post ∧
      (runOps pre stopRequestedRegistry).IsHeld 1 "s" ∧
      op.releasesStop 1 "s" (runOps pre stopRequestedRegistry) = true :=
  stop_retained stoppedRun (by decide)
    ⟨{ runningControl 1 "s" 7 "t" "out" "err" "1" with
        state := .stopRequested, updatedAt := "2" }, by decide, by decide, by decide⟩

/-- A stop is not kept from a new run of the session: its registration is no action of
the user, and takes the stopped control to `running`. -/
theorem stop_lost_to_new_run :
    let register := RegistryOp.markSessionRunning 1 "s" 8 "t2" "out" "err" none "3" "3"
    register.resumedSession = none ∧ register.reservedSession = none ∧
    register.plannedSession = none ∧ register.retiredSession = none ∧
    stopRequestedRegistry.sessionControls.rows.map SessionControl.state = [.stopRequested] ∧
    (register.apply stopRequestedRegistry).sessionControls.rows.map SessionControl.state =
      [.running] := by
  decide

end Clt
