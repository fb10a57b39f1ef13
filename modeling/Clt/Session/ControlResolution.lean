import Clt.Registry.StaleGeneration
import Clt.Session.RowChange
import Clt.Task.Attachment

/-!
# Resolving the control of an ended run

At the end of a run its worker goes round until the session's control is settled: the control is
gone, belongs to another run or asks for something, is kept for a retry of the exact session, or is
cleared. Clearing joins the worker with its project's lease and is refused for a worker that has
lost it; nothing else ends the loop then. Other processes may change the registry before each read
and before each clearing.
-/

namespace Clt

open Relational Registry

/-- `AgentSessionControlAction`. -/
inductive AgentSessionControlAction where
  | stop
  | interrupt
  deriving DecidableEq, Repr

/-- `AgentSessionControlState::requested_action`. -/
def AgentSessionControlState.requestedAction :
    AgentSessionControlState → Option AgentSessionControlAction
  | .stopRequested => some .stop
  | .interruptRequested => some .interrupt
  | _ => none

/-- What the loop at the end of `run_agent_job` knows of the run. -/
structure EndedRun where
  projectId : Int
  sessionId : String
  runToken : String
  taskSelection : AgentTaskSelection
  status : String
  gitFinalizationPending : Bool
  autonomousGitPushPending : Bool

/-- `preserve_for_exact_retry`. -/
def EndedRun.preserveForExactRetry (run : EndedRun) : Bool :=
  !run.autonomousGitPushPending && (run.gitFinalizationPending ||
    run.taskSelection = .resumeSession && !(["success", "idle", "blocked"].contains run.status))

/-- How the loop ends. -/
inductive ControlResolution where
  | absent
  | otherRun
  | requested (action : AgentSessionControlAction)
  | leftRunning
  | keptForExactRetry
  | cleared
  deriving DecidableEq, Repr

namespace EndedRun

variable (run : EndedRun) (others : Nat → Registry → Registry)

/-- The read of the control, when it ends the loop. -/
def readControl (db : Registry) : Option ControlResolution :=
  match db.control? run.projectId run.sessionId with
  | none => some .absent
  | some control =>
    if control.runToken ≠ some run.runToken then some .otherRun
    else
      match control.state.requestedAction with
      | some action => some (.requested action)
      | none =>
        if control.state ≠ .running then some .leftRunning
        else if run.preserveForExactRetry then some .keptForExactRetry
        else none

/-- One round, with what the other processes do before its read and before its clearing. -/
def round (k : Nat) (db : Registry) : Option ControlResolution × Registry :=
  let db := others (2 * k) db
  match run.readControl db with
  | some resolution => (some resolution, db)
  | none =>
    let outcome := (others (2 * k + 1) db).clearRunningSessionControl run.projectId run.sessionId
      (some run.runToken)
    match outcome.result with
    | .ok true => (some .cleared, outcome.db)
    | _ => (none, outcome.db)

/-- The loop, from its `k`-th round on: `none` when the rounds that it is given do not end it. -/
def resolveControl : Nat → Nat → Registry → Option (ControlResolution × Registry)
  | 0, _, _ => none
  | rounds + 1, k, db =>
    match run.round others k db with
    | (some resolution, after) => some (resolution, after)
    | (none, after) => resolveControl rounds (k + 1) after

/-! ## What a round does -/

/-- The control runs under the token of the run. -/
def Runs (db : Registry) : Prop :=
  ∃ control, db.control? run.projectId run.sessionId = some control ∧
    control.runToken = some run.runToken ∧ control.state = .running

/-- The token names a worker, and no active worker that holds its project's lease. -/
def LostFence (db : Registry) : Prop :=
  db.knownWorker run.runToken = true ∧ db.fencedWorker run.runToken run.projectId = false

/-- The registry as the other processes make it, after this many of their turns. -/
def registryAt (others : Nat → Registry → Registry) (db : Registry) : Nat → Registry
  | 0 => db
  | turn + 1 => others turn (registryAt others db turn)

section Round

variable {run : EndedRun} {db : Registry}

theorem readControl_eq_none_iff :
    run.readControl db = none ↔ run.Runs db ∧ run.preserveForExactRetry = false := by
  unfold readControl Runs
  cases hcontrol : db.control? run.projectId run.sessionId with
  | none => simp
  | some control =>
    dsimp only
    by_cases htoken : control.runToken = some run.runToken
    · rw [if_neg (not_not_intro htoken)]
      cases hstate : control.state <;>
        simp [AgentSessionControlState.requestedAction, htoken, hstate]
    · simp [htoken]

/-- The row that the clearing deletes. -/
def isCleared (run : EndedRun) (sc : SessionControl) : Bool :=
  sc.is run.projectId run.sessionId && sc.state = .running &&
    ((some run.runToken).isNone || sqlEq sc.runToken (some run.runToken))

theorem isCleared_iff {sc : SessionControl} (h : sc.is run.projectId run.sessionId = true) :
    run.isCleared sc = true ↔ sc.runToken = some run.runToken ∧ sc.state = .running := by
  simp only [isCleared, h, Bool.true_and, Option.isNone_some, Bool.false_or, Bool.and_eq_true,
    decide_eq_true_eq, sqlEq_some]
  exact and_comm

theorem runs_iff : run.Runs db ↔ 0 < db.sessionControls.count run.isCleared := by
  rw [Table.count_pos_iff]
  constructor
  · rintro ⟨control, hcontrol, hruns⟩
    have his := Table.of_find? hcontrol
    exact ⟨control, Table.mem_of_find? hcontrol, (isCleared_iff his).mpr hruns⟩
  · rintro ⟨control, hmem, hcleared⟩
    have his : control.is run.projectId run.sessionId = true := by
      simp only [isCleared, Bool.and_eq_true] at hcleared
      exact hcleared.1.1
    exact ⟨control, Table.find?_eq_some (fun _ _ => conflict_of_is) hmem his,
      (isCleared_iff his).mp hcleared⟩

theorem lostFence_iff : run.LostFence db ↔
    (some run.runToken).any (fun t => db.knownWorker t && !(db.fencedWorker t run.projectId)) =
      true := by
  simp [LostFence]

/-- A worker that has lost its fence clears nothing. -/
theorem clear_of_lostFence (h : run.LostFence db) :
    db.clearRunningSessionControl run.projectId run.sessionId (some run.runToken) =
      ⟨.ok false, db⟩ := by
  unfold clearRunningSessionControl
  rw [if_neg (by simp), if_pos (lostFence_iff.mp h)]

theorem clear_of_fence (h : ¬ run.LostFence db) :
    db.clearRunningSessionControl run.projectId run.sessionId (some run.runToken) =
      db.deleteControls run.isCleared := by
  unfold clearRunningSessionControl
  rw [if_neg (by simp), if_neg fun hlost => h (lostFence_iff.mpr hlost)]
  rfl

/-- The control is cleared exactly when it runs under the token and the worker has its fence. -/
theorem clear_eq_ok_true_iff :
    (db.clearRunningSessionControl run.projectId run.sessionId (some run.runToken)).result =
        .ok true ↔ run.Runs db ∧ ¬ run.LostFence db := by
  by_cases hlost : run.LostFence db
  · rw [clear_of_lostFence hlost]
    simp [hlost]
  · rw [clear_of_fence hlost, deleteControls]
    simp [hlost, runs_iff]

theorem clear_refused (h : (db.clearRunningSessionControl run.projectId run.sessionId
      (some run.runToken)).result ≠ .ok true) :
    (db.clearRunningSessionControl run.projectId run.sessionId (some run.runToken)).db = db := by
  by_cases hlost : run.LostFence db
  · rw [clear_of_lostFence hlost]
  · have hnone : db.sessionControls.count run.isCleared = 0 := by
      rw [Ne, clear_eq_ok_true_iff, runs_iff] at h
      by_contra hpos
      exact h ⟨Nat.pos_of_ne_zero hpos, hlost⟩
    rw [clear_of_fence hlost]
    show { db with sessionControls := db.sessionControls.delete run.isCleared } = db
    rw [Table.delete_eq_self hnone]

theorem control?_cleared (h : (db.clearRunningSessionControl run.projectId run.sessionId
      (some run.runToken)).result = .ok true) :
    (db.clearRunningSessionControl run.projectId run.sessionId
      (some run.runToken)).db.control? run.projectId run.sessionId = none := by
  obtain ⟨⟨control, hcontrol, hruns⟩, hfence⟩ := clear_eq_ok_true_iff.mp h
  rw [clear_of_fence hfence, control?_deleteControls, hcontrol, Option.filter_some, if_neg]
  rw [(isCleared_iff (Table.of_find? hcontrol)).mpr hruns]
  exact Bool.false_ne_true

end Round

/-! ## When the loop ends -/

/-- What a round finds that ends the loop: the read that is no running control of the run, or is
kept for a retry, or the clearing by a worker that has its fence. -/
def Leaves (read write : Registry) : Prop :=
  ¬ run.Runs read ∨ run.preserveForExactRetry = true ∨ run.Runs write ∧ ¬ run.LostFence write

/-- The registry that no round can leave. -/
def Stuck (db : Registry) : Prop :=
  run.preserveForExactRetry = false ∧ run.Runs db ∧ run.LostFence db

/-- What a way to end the loop says of the registry. -/
def Justifies (db : Registry) : ControlResolution → Prop
  | .absent | .cleared => db.control? run.projectId run.sessionId = none
  | .otherRun => ∃ control, db.control? run.projectId run.sessionId = some control ∧
      control.runToken ≠ some run.runToken
  | .requested action => ∃ control, db.control? run.projectId run.sessionId = some control ∧
      control.runToken = some run.runToken ∧ control.state.requestedAction = some action
  | .leftRunning => ∃ control, db.control? run.projectId run.sessionId = some control ∧
      control.runToken = some run.runToken ∧ control.state ≠ .running
  | .keptForExactRetry => run.preserveForExactRetry = true

section Loop

variable {run : EndedRun} {others : Nat → Registry → Registry} {db : Registry}

theorem stuck_iff : run.Stuck db ↔ ¬ run.Leaves db db := by
  unfold Stuck Leaves
  by_cases hruns : run.Runs db
  · simp [hruns]
  · simp [hruns]

theorem readControl_justifies {resolution : ControlResolution}
    (h : run.readControl db = some resolution) : run.Justifies db resolution := by
  unfold readControl at h
  split at h
  · rename_i hnone
    cases h
    exact hnone
  · rename_i control hcontrol
    by_cases htoken : control.runToken = some run.runToken
    · rw [if_neg (not_not_intro htoken)] at h
      split at h
      · rename_i action haction
        cases h
        exact ⟨control, hcontrol, htoken, haction⟩
      · by_cases hstate : control.state = .running
        · rw [if_neg (not_not_intro hstate)] at h
          split at h
          · rename_i hkept
            cases h
            exact hkept
          · cases h
        · rw [if_pos hstate] at h
          cases h
          exact ⟨control, hcontrol, htoken, hstate⟩
    · rw [if_pos htoken] at h
      cases h
      exact ⟨control, hcontrol, htoken⟩

variable (run) in
/-- A round that does not end the loop leaves the registry to the others. -/
theorem round_cases (k : Nat) (others : Nat → Registry → Registry) (db : Registry) :
    (∃ resolution after, run.round others k (registryAt others db (2 * k)) =
        (some resolution, after) ∧ run.Justifies after resolution ∧
      run.Leaves (registryAt others db (2 * k + 1)) (registryAt others db (2 * k + 2))) ∨
    run.round others k (registryAt others db (2 * k)) =
        (none, registryAt others db (2 * (k + 1))) ∧
      ¬ run.Leaves (registryAt others db (2 * k + 1)) (registryAt others db (2 * k + 2)) := by
  unfold round
  dsimp only
  rw [show others (2 * k) (registryAt others db (2 * k)) = registryAt others db (2 * k + 1)
      from rfl,
    show others (2 * k + 1) (registryAt others db (2 * k + 1)) = registryAt others db (2 * k + 2)
      from rfl]
  cases hread : run.readControl (registryAt others db (2 * k + 1)) with
  | some resolution =>
    refine .inl ⟨resolution, _, rfl, readControl_justifies hread, ?_⟩
    by_contra hleaves
    rw [Leaves, not_or, not_or, Classical.not_not, Bool.not_eq_true] at hleaves
    rw [readControl_eq_none_iff.mpr ⟨hleaves.1, hleaves.2.1⟩] at hread
    cases hread
  | none =>
    obtain ⟨hruns, hpreserve⟩ := readControl_eq_none_iff.mp hread
    by_cases hclear : ((registryAt others db (2 * k + 2)).clearRunningSessionControl run.projectId
        run.sessionId (some run.runToken)).result = .ok true
    · refine .inl ⟨.cleared, _, ?_, control?_cleared hclear,
        .inr (.inr (clear_eq_ok_true_iff.mp hclear))⟩
      dsimp only
      rw [hclear]
    · refine .inr ⟨?_, ?_⟩
      · dsimp only
        rw [clear_refused hclear]
        split
        · rename_i htrue
          exact absurd htrue hclear
        · rfl
      · rintro (hgone | hkept | hwrite)
        · exact hgone hruns
        · rw [hpreserve] at hkept
          cases hkept
        · exact hclear (clear_eq_ok_true_iff.mpr hwrite)

variable (run others db) in
/-- The rounds end the loop when one of them finds something that does. -/
theorem resolveControl_cases (rounds k : Nat) :
    (∃ resolution after, run.resolveControl others rounds k (registryAt others db (2 * k)) =
        some (resolution, after) ∧ run.Justifies after resolution ∧
      ∃ j, run.Leaves (registryAt others db (2 * j + 1)) (registryAt others db (2 * j + 2))) ∨
    run.resolveControl others rounds k (registryAt others db (2 * k)) = none ∧
      ∀ j, k ≤ j → j < k + rounds →
        ¬ run.Leaves (registryAt others db (2 * j + 1)) (registryAt others db (2 * j + 2)) := by
  induction rounds generalizing k with
  | zero => exact .inr ⟨rfl, fun j hle hlt => absurd hlt (Nat.not_lt.mpr hle)⟩
  | succ rounds ih =>
    rw [resolveControl]
    rcases run.round_cases k others db with
      ⟨resolution, after, hround, hjustified, hleaves⟩ | ⟨hround, hstays⟩
    · rw [hround]
      exact .inl ⟨resolution, after, rfl, hjustified, k, hleaves⟩
    · rw [hround]
      rcases ih (k + 1) with hends | ⟨hnone, hlater⟩
      · exact .inl hends
      · refine .inr ⟨hnone, fun j hle hlt => ?_⟩
        rcases Nat.eq_or_lt_of_le hle with rfl | hlt'
        · exact hstays
        · exact hlater j hlt' (by omega)

end Loop

/-- The loop ends after finitely many rounds, for a reason that the registry then shows. -/
def Resolves (others : Nat → Registry → Registry) (db : Registry) : Prop :=
  ∃ rounds resolution after, run.resolveControl others rounds 0 db = some (resolution, after) ∧
    run.Justifies after resolution

section Ends

variable {run : EndedRun} {others : Nat → Registry → Registry} {db : Registry}

theorem resolves_iff : run.Resolves others db ↔
    ∃ k, run.Leaves (registryAt others db (2 * k + 1)) (registryAt others db (2 * k + 2)) := by
  constructor
  · rintro ⟨rounds, resolution, after, hsome, -⟩
    rcases run.resolveControl_cases others db rounds 0 with
      ⟨-, -, -, -, hleaves⟩ | ⟨hnone, -⟩
    · exact hleaves
    · cases hnone.symm.trans hsome
  · rintro ⟨k, hleaves⟩
    rcases run.resolveControl_cases others db (k + 1) 0 with
      ⟨resolution, after, hsome, hjustified, -⟩ | ⟨-, hstays⟩
    · exact ⟨k + 1, resolution, after, hsome, hjustified⟩
    · exact absurd hleaves (hstays k (Nat.zero_le k) (by omega))

/-- From the turn on at which the others have finished, the registry stays as it is. -/
theorem registryAt_of_quiet {turn : Nat} (hquiet : ∀ t, turn ≤ t → ∀ db, others t db = db)
    {later : Nat} (h : turn ≤ later) : registryAt others db later = registryAt others db turn := by
  induction later, h using Nat.le_induction with
  | base => rfl
  | succ later hle ih => exact (hquiet later hle _).trans ih

/-- The loop ends, when the other processes change the registry up to some turn only, exactly
when a round ends it before that turn or the registry that they leave does not keep it. -/
theorem control_resolved_iff (run : EndedRun) (db : Registry) (others : Nat → Registry → Registry)
    (turn : Nat) (hquiet : ∀ t, turn ≤ t → ∀ db, others t db = db) :
    run.Resolves others db ↔
      (∃ k, 2 * k + 1 < turn ∧
        run.Leaves (registryAt others db (2 * k + 1)) (registryAt others db (2 * k + 2))) ∨
      ¬ run.Stuck (registryAt others db turn) := by
  rw [resolves_iff, stuck_iff, Classical.not_not]
  have hlate {k : Nat} (h : turn ≤ 2 * k + 1) :
      registryAt others db (2 * k + 1) = registryAt others db turn ∧
        registryAt others db (2 * k + 2) = registryAt others db turn :=
    ⟨registryAt_of_quiet hquiet h, registryAt_of_quiet hquiet (Nat.le_succ_of_le h)⟩
  constructor
  · rintro ⟨k, hleaves⟩
    by_cases hbefore : 2 * k + 1 < turn
    · exact .inl ⟨k, hbefore, hleaves⟩
    · obtain ⟨hread, hwrite⟩ := hlate (Nat.le_of_not_lt hbefore)
      rw [hread, hwrite] at hleaves
      exact .inr hleaves
  · rintro (⟨k, -, hleaves⟩ | hleaves)
    · exact ⟨k, hleaves⟩
    · obtain ⟨hread, hwrite⟩ := hlate (k := turn) (by omega)
      exact ⟨turn, by rw [hread, hwrite]; exact hleaves⟩

end Ends

end EndedRun

/-- A run of the worker that is abandoned while its session runs. -/
def successfulRun : EndedRun where
  projectId := 1
  sessionId := "u"
  runToken := "w"
  taskSelection := .nextTodo
  status := "success"
  gitFinalizationPending := false
  autonomousGitPushPending := false

/-- Nobody else writes. -/
def undisturbed (_ : Nat) (db : Registry) : Registry := db

/-- Before the worker is abandoned, its loop ends. -/
theorem control_resolved_claimed :
    successfulRun.Resolves undisturbed (runOps (abandonedRun.take 5) managedRegistry) :=
  (EndedRun.control_resolved_iff successfulRun _ undisturbed 0 fun _ _ _ => rfl).mpr
    (.inr fun hstuck => absurd hstuck.2.2.2 (by decide))

/-- Once it is abandoned, its loop goes round for ever. -/
theorem control_never_resolved :
    ¬ ∀ (run : EndedRun) (db : Registry) (others : Nat → Registry → Registry) (turn : Nat),
      (∀ t, turn ≤ t → ∀ db, others t db = db) → run.Resolves others db := by
  intro h
  have hstays (t : Nat) : EndedRun.registryAt undisturbed (runOps abandonedRun managedRegistry) t =
      runOps abandonedRun managedRegistry := by
    induction t with
    | zero => rfl
    | succ t ih => exact ih
  obtain ⟨k, hleaves⟩ := EndedRun.resolves_iff.mp
    (h successfulRun (runOps abandonedRun managedRegistry) undisturbed 0 fun _ _ _ => rfl)
  rw [hstays, hstays] at hleaves
  have hcontrol : (runOps abandonedRun managedRegistry).control? 1 "u" =
      some ⟨1, "u", .running, some 8, some "w", none, none, some "out", some "err", "13"⟩ := by
    decide
  have hstuck : successfulRun.Stuck (runOps abandonedRun managedRegistry) :=
    ⟨rfl, ⟨_, hcontrol, rfl, rfl⟩, by decide, by decide⟩
  exact EndedRun.stuck_iff.mp hstuck hleaves

end Clt
