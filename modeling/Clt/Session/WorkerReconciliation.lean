import Mathlib.Data.Prod.Lex
import Mathlib.Data.String.Basic
import Clt.Listing.SortByKey
import Clt.Registry.WorkerAdvance
import Clt.Session.Liveness
import Clt.Task.Attachment

/-!
# Reconciliation of workers

The scheduler goes through the workers that the registry calls active and abandons those that have
come to nothing (`reconcile_agent_worker_effects_stage`); a manual completion does the same for
the exited workers of one project (`reconcile_exited_project_workers_with`). Both read the workers
once, drain the service of each worker they give up, and only then abandon it. Other processes use
the registry all the while: their calls stand in `others`, by the number of the pass's own call
that they come before.
-/

namespace Clt

open Relational Registry

/-! ## What a pass is given -/

/-- `AGENT_WORKER_PROTOCOL_VERSION`. -/
def agentWorkerProtocolVersion : Int := 2

/-- `AGENT_WORKER_STARTUP_TIMEOUT_SECONDS`. -/
def agentWorkerStartupTimeoutSeconds : Nat := 60

/-- `AGENT_WORKER_HEARTBEAT_TIMEOUT_SECONDS`. -/
def agentWorkerHeartbeatTimeoutSeconds : Nat := 60

/-- `AGENT_INLINE_WORKER_SERVICE_LABEL_PREFIX`. -/
def agentInlineWorkerServiceLabelPrefix : String := "clt-inline-worker-"

/-- `AgentTaskSelection::from_label`. -/
def AgentTaskSelection.fromLabel (value : String) : Except String AgentTaskSelection :=
  match value with
  | "next_todo" => .ok .nextTodo
  | "resume_doing" => .ok .resumeDoing
  | "recover_blocked" => .ok .recoverBlocked
  | "resume_session" => .ok .resumeSession
  | "supervisor_review" => .ok .supervisorReview
  | "supervisor_retry" => .ok .supervisorRetry
  | _ => .error ("Unknown agent worker task selection: " ++ value)

/-- `AgentWorkerLaunchSpec`. -/
structure AgentWorkerLaunchSpec where
  executable : String
  workerToken : String
  projectId : Int
  taskSelection : AgentTaskSelection
  resumeSessionId : Option String
  serviceLabel : String
  commandArguments : List String
  codexPathOverride : Option String
  path : String
  deriving DecidableEq

/-- What a pass is given, and what it is answered. An answer may differ from one call of the pass
to the next, so it is indexed by the number of that call. -/
structure WorkerPass where
  os : Processes
  now : Nat
  processIsRunning : Nat → Nat → Option Bool
  generationIsRegistered : Nat → String → Bool
  drainWorker : Nat → AgentWorker → Except String Bool
  parseArguments : String → Except String (List String)
  timestamp : Nat → String
  others : Nat → List RegistryOp

/-! ## What is seen of a worker -/

/-- `agent_worker_observation_is_stale`. -/
def agentWorkerObservationIsStale (raw : Option String) (now timeoutSeconds : Nat) : Bool :=
  match raw.bind fun value => parseUnsigned 64 value.toList with
  | some observed => decide (timeoutSeconds ≤ now - observed)
  | none => true

namespace AgentWorker

variable (w : AgentWorker)

/-- `is_inline_agent_worker`. -/
def isInline : Bool := startsWith w.serviceLabel agentInlineWorkerServiceLabelPrefix

/-- `matches!(state, RUNNING | FINALIZING)`. -/
def isBusy : Bool := w.state = .running || w.state = .finalizing

end AgentWorker

/-- What a pass has read about a worker besides its row. -/
structure WorkerObservation where
  lease : Option Lease
  processState : Option Bool
  launchPending : Bool
  registered : Bool

namespace WorkerPass

variable (q : WorkerPass) (w : AgentWorker) (o : WorkerObservation)

/-- `owns_lease`. -/
def ownsLease : Bool := o.lease.any fun lease => lease.holder == w.leaseHolder

/-- The worker is an inline generation of this process. -/
def isOwnGeneration : Bool := w.isInline && w.workerPid == some q.os.currentPid

/-- `inline_current_generation_registered`. -/
def currentGenerationRegistered : Bool := q.isOwnGeneration w && o.registered

/-- `inline_current_generation_missing`. -/
def currentGenerationMissing : Bool := q.isOwnGeneration w && !o.registered

/-- `startup_stale`. -/
def startupStale : Bool :=
  w.state = .dispatching &&
    agentWorkerObservationIsStale (some w.createdAt) q.now agentWorkerStartupTimeoutSeconds

/-- `heartbeat_stale`. -/
def heartbeatStale : Bool :=
  w.isBusy &&
    agentWorkerObservationIsStale w.heartbeatAt q.now agentWorkerHeartbeatTimeoutSeconds

/-- The conditions under which a worker is left for a later pass. -/
def waits : Bool :=
  w.isInline && o.launchPending ||
  q.currentGenerationRegistered w o && w.isBusy ||
  w.isInline && w.workerPid != some q.os.currentPid && w.workerPid.isSome &&
    o.processState != some false && w.isBusy

/-- `abandonment_reason`. -/
def abandonmentReason : Option String :=
  if w.isInline && w.state = .dispatching then
    some "Inline worker reservation was not atomically claimed"
  else if q.currentGenerationMissing w o then
    some "Inline worker generation is no longer owned by this CLT process"
  else if !(ownsLease w o) then
    if o.processState == some true && !(q.heartbeatStale w) then none
    else some "Worker no longer owns its project lease"
  else if q.startupStale w then
    some "Worker did not claim its durable reservation within 60 seconds"
  else if w.isBusy && o.processState == some false then
    some "Worker process exited before durable finalization"
  else if q.heartbeatStale w then
    some "Worker heartbeat was stale for at least 60 seconds"
  else if w.state = .running && w.workerPid.isNone then
    some "Running worker is missing its process ID"
  else none

/-- `permitted_successor_holder`. -/
def permittedSuccessorHolder : Option String :=
  (o.lease.filter fun lease => lease.holder != w.leaseHolder).map Lease.holder

end WorkerPass

/-! ## A pass -/

/-- An abandonment that a pass asks for: the worker as it was read, what else was read, the call
before which it was drained, and the registry it is asked of: `since` is what had happened to the
one the workers were read from. -/
structure AbandonmentAttempt where
  worker : AgentWorker
  observed : WorkerObservation
  drainedAt : Nat
  request : AgentWorkerAbandonment
  listed : Registry
  since : List RegistryOp

/-- Where a pass is. -/
structure WorkerPassState where
  listed : Registry
  since : List RegistryOp
  calls : Nat
  attempts : List AbandonmentAttempt
  launched : List AgentWorkerLaunchSpec

/-- The registry as it is now. -/
def WorkerPassState.db (s : WorkerPassState) : Registry := runOps s.since s.listed

/-- `list_active_workers`, in the order of `CAST(created_at AS INTEGER), worker_token`. -/
def Registry.listActiveWorkers (db : Registry) : List AgentWorker :=
  Listing.sortByKey (fun w => toLex (castInteger w.createdAt, w.workerToken))
    (db.agentWorkers.rows.filter fun w => w.state.isActive && db.hasProject w.projectId)

namespace WorkerPass

variable (q : WorkerPass)

/-- The calls of others that come before the next call of the pass. -/
def tick (s : WorkerPassState) : WorkerPassState :=
  { s with since := s.since ++ q.others s.calls, calls := s.calls + 1 }

/-- Whether an inline worker has a launch record; of others it is not asked. -/
def inlineLaunchPending (w : AgentWorker) (s : WorkerPassState) : WorkerPassState × Bool :=
  if w.isInline then
    let s := q.tick s
    (s, s.db.gitLaunchStates.any (GitLaunchState.is w.projectId w.workerToken))
  else (s, false)

/-- Read about a worker: its lease, its process and its launch record. -/
def observe (w : AgentWorker) (s : WorkerPassState) : WorkerPassState × WorkerObservation :=
  let s := q.tick s
  let lease := s.db.lease? w.projectId
  let processState := w.workerPid.bind (q.processIsRunning s.calls)
  let (s, launchPending) := q.inlineLaunchPending w s
  (s, ⟨lease, processState, launchPending, q.generationIsRegistered s.calls w.workerToken⟩)

/-- `AgentWorkerAbandonment` for a worker as it was read. -/
def abandonment (w : AgentWorker) (permittedSuccessorHolder : Option String) (error : String)
    (calls : Nat) : AgentWorkerAbandonment where
  workerToken := w.workerToken
  expectedState := w.state
  expectedWorkerPid := w.workerPid
  expectedHeartbeatAt := w.heartbeatAt
  finishedAt := q.timestamp calls
  error := error
  permittedSuccessorHolder := permittedSuccessorHolder

/-- `abandon_worker_blocking`; its error ends the pass. -/
def abandon (w : AgentWorker) (o : WorkerObservation) (drainedAt : Nat)
    (permitted : Option String) (error : String) (s : WorkerPassState) :
    WorkerPassState × Except String Unit :=
  let s := q.tick s
  let request := q.abandonment w permitted error s.calls
  ({ s with
      since := s.since ++ [.abandonWorker request]
      attempts := s.attempts ++ [⟨w, o, drainedAt, request, s.listed, s.since⟩] },
    (s.db.abandonWorker request).result.map fun _ => ())

/-- What a pass does with a `dispatching` worker that it does not give up: launch it, unless what
is stored about it cannot be read. -/
def dispatch (w : AgentWorker) (o : WorkerObservation) (s : WorkerPassState) :
    WorkerPassState × Except String Unit :=
  match AgentTaskSelection.fromLabel w.taskSelection with
  | .error error =>
    match q.drainWorker s.calls w with
    | .error error => (s, .error error)
    | .ok false => (s, .ok ())
    | .ok true =>
      q.abandon w o s.calls none ("Invalid durable worker task selection: " ++ error) s
  | .ok taskSelection =>
    match q.parseArguments w.commandArguments with
    | .error _ =>
      (s, .error ("Failed to read persisted launch arguments for worker " ++ w.workerToken))
    | .ok commandArguments =>
      ({ s with launched := s.launched ++ [
          { executable := w.binaryPath, workerToken := w.workerToken, projectId := w.projectId,
            taskSelection := taskSelection, resumeSessionId := w.resumeSessionId,
            serviceLabel := w.serviceLabel, commandArguments := commandArguments,
            codexPathOverride := w.codexPath, path := w.pathEnv }] }, .ok ())

/-- What a pass does with one worker. -/
def reconcileWorker (w : AgentWorker) (s : WorkerPassState) :
    WorkerPassState × Except String Unit :=
  if agentWorkerProtocolVersion < w.protocolVersion then (s, .ok ())
  else
    let (s, o) := q.observe w s
    if q.waits w o then (s, .ok ())
    else
      match q.abandonmentReason w o with
      | some reason =>
        -- A drain that fails is tried again by a later pass.
        match q.drainWorker s.calls w with
        | .ok true => q.abandon w o s.calls (permittedSuccessorHolder w o) reason s
        | _ => (s, .ok ())
      | none => if w.state = .dispatching then q.dispatch w o s else (s, .ok ())

/-- What a pass does with the workers it has read, until an error ends it. -/
def eachWorker (step : AgentWorker → WorkerPassState → WorkerPassState × Except String Unit) :
    List AgentWorker → WorkerPassState → WorkerPassState × Except String Unit
  | [], s => (s, .ok ())
  | w :: ws, s =>
    match step w s with
    | (s, .ok ()) => eachWorker step ws s
    | (s, .error error) => (s, .error error)

/-- A pass that has just read its workers. -/
def started (db : Registry) (calls : Nat) : WorkerPassState where
  listed := db
  since := []
  calls := calls
  attempts := []
  launched := []

/-- `reconcile_agent_worker_effects_stage`, up to the list it returns. -/
def reconcileAgentWorkers (db : Registry) : WorkerPassState × Except String Unit :=
  eachWorker q.reconcileWorker db.listActiveWorkers (started db 0)

/-! ## The exited workers of one project -/

/-- A control that a process may still stand behind. -/
def isHeldControl (control : SessionControl) : Bool :=
  !control.isParked || !control.isIdle

/-- What a manual completion does with one worker. -/
def reconcileExitedWorker (w : AgentWorker) (s : WorkerPassState) :
    WorkerPassState × Except String Unit :=
  let processState := w.workerPid.bind (q.processIsRunning s.calls)
  let registered := q.generationIsRegistered s.calls w.workerToken
  if agentWorkerProtocolVersion < w.protocolVersion then (s, .ok ())
  else if processState ≠ some false then (s, .ok ())
  else
    let (s, launchPending) := q.inlineLaunchPending w s
    if launchPending then (s, .ok ())
    else
      match q.drainWorker s.calls w with
      | .error error => (s, .error error)
      | .ok false => (s, .ok ())
      | .ok true =>
        let drainedAt := s.calls
        let s := q.tick s
        let o : WorkerObservation :=
          ⟨s.db.lease? w.projectId, processState, launchPending, registered⟩
        q.abandon w o drainedAt (permittedSuccessorHolder w o)
          "Worker process exited before the user cancelled its managed task" s

/-- The lease of a scheduler that has died before it dispatched a worker is released. -/
def releaseDeadLease (projectId : Int) (s : WorkerPassState) : WorkerPassState :=
  let s := q.tick s
  if s.db.listActiveWorkers.any fun w => w.projectId == projectId then s
  else
    let s := q.tick s
    match s.db.lease? projectId with
    | none => s
    | some lease =>
      if q.os.agentLeaseHolderLiveness lease.holder = .dead then
        let s := q.tick s
        { s with since := s.since ++ [.releaseLease projectId lease.holder] }
      else s

/-- `reconcile_exited_project_workers_with`. -/
def reconcileExitedProjectWorkers (projectId : Int) (db : Registry) :
    WorkerPassState × Except String Unit :=
  if db.sessionControls.any fun control =>
      control.projectId == projectId && isHeldControl control then
    (started db 0, .ok ())
  else
    let listed := runOps (q.others 0) db
    match eachWorker q.reconcileExitedWorker
        (listed.listActiveWorkers.filter fun w => w.projectId == projectId)
        (started listed 1) with
    | (s, .ok ()) => (q.releaseDeadLease projectId s, .ok ())
    | (s, .error error) => (s, .error error)

/-! ## What an abandonment answers for -/

/-- Why a worker may be given up. -/
inductive Lapsed (w : AgentWorker) (o : WorkerObservation) : Prop
  | lostLease (lost : ownsLease w o = false)
      (silent : ¬(o.processState = some true ∧ q.heartbeatStale w = false))
  | unclaimed (late : q.startupStale w = true)
  | unclaimedInline (isInline : w.isInline = true) (dispatching : w.state = .dispatching)
  | exited (busy : w.isBusy = true) (gone : o.processState = some false)
  | stale (late : q.heartbeatStale w = true)
  | missingPid (running : w.state = .running) (missing : w.workerPid = none)
  | unreadable (error : String) (unread : AgentTaskSelection.fromLabel w.taskSelection = .error error)
  | disowned (missing : q.currentGenerationMissing w o = true)

variable {q} {w : AgentWorker} {o : WorkerObservation}

/-- Every reason that a pass gives is one of them. -/
theorem lapsed_of_abandonmentReason {reason : String}
    (h : q.abandonmentReason w o = some reason) : q.Lapsed w o := by
  unfold abandonmentReason at h
  split at h
  · rename_i hinline
    simp only [Bool.and_eq_true, decide_eq_true_eq] at hinline
    exact .unclaimedInline hinline.1 hinline.2
  split at h
  · rename_i hmissing
    exact .disowned hmissing
  split at h
  · rename_i hlost
    split at h
    · cases h
    · rename_i hsilent
      simp only [Bool.not_eq_true'] at hlost
      refine .lostLease hlost fun ⟨halive, hfresh⟩ => hsilent ?_
      simp [halive, hfresh]
  split at h
  · rename_i hlate
    exact .unclaimed hlate
  split at h
  · rename_i hgone
    simp only [Bool.and_eq_true, beq_iff_eq] at hgone
    exact .exited hgone.1 hgone.2
  split at h
  · rename_i hlate
    exact .stale hlate
  split at h
  · rename_i hmissing
    simp only [Bool.and_eq_true, decide_eq_true_eq, Option.isNone_iff_eq_none] at hmissing
    exact .missingPid hmissing.1 hmissing.2
  · cases h

end WorkerPass

namespace AbandonmentAttempt

variable (a : AbandonmentAttempt)

/-- The registry that the abandonment is asked of. -/
def before : Registry := runOps a.since a.listed

/-- The worker is abandoned. -/
def Abandons : Prop := (a.before.abandonWorker a.request).result = .ok true

/-- The worker has been claimed or renewed since it was read. -/
def IsTouched : Prop := Touched a.worker.workerToken a.since a.listed

end AbandonmentAttempt

/-- A worker may be abandoned so: its service was drained, it has lapsed, it is not one that the
pass has to leave alone, and it was neither claimed nor renewed meanwhile. -/
structure WorkerPass.Sound (q : WorkerPass) (a : AbandonmentAttempt) : Prop where
  drained : q.drainWorker a.drainedAt a.worker = .ok true
  protocol : a.worker.protocolVersion ≤ agentWorkerProtocolVersion
  launch : ¬(a.worker.isInline = true ∧ a.observed.launchPending = true)
  generation : ¬(q.currentGenerationRegistered a.worker a.observed = true ∧
    a.worker.isBusy = true)
  lapsed : q.Lapsed a.worker a.observed
  untouched : ¬a.IsTouched

/-- What both passes see to before they ask for an abandonment. -/
structure WorkerPass.Asked (q : WorkerPass) (a : AbandonmentAttempt) : Prop where
  active : a.worker.state.isActive = true
  token : a.request.workerToken = a.worker.workerToken
  state : a.request.expectedState = a.worker.state
  drained : q.drainWorker a.drainedAt a.worker = .ok true
  protocol : a.worker.protocolVersion ≤ agentWorkerProtocolVersion
  launch : ¬(a.worker.isInline = true ∧ a.observed.launchPending = true)

namespace WorkerPass

variable {q : WorkerPass}

/-- A worker that is touched and can still be abandoned was running when it was read: a claim of a
dispatched worker makes its abandonment fail. -/
theorem Asked.running_of_touched {a : AbandonmentAttempt} (h : q.Asked a) (htouched : a.IsTouched)
    (habandonable : a.before.Abandonable a.request) : a.worker.state = .running := by
  obtain ⟨w, hw, htoken, hstate, -⟩ := habandonable
  rcases state_of_touched htouched hw (htoken.trans h.token) with hrunning | hidle
  · rw [← h.state, ← hstate, hrunning]
  · have hactive := h.active
    rw [← h.state, ← hstate, hidle] at hactive
    cases hactive

/-! ## The abandonments of a pass -/

/-- What holds before the first worker and is kept by each holds after all of them. -/
theorem eachWorker_invariant {I : WorkerPassState → Prop}
    {step : AgentWorker → WorkerPassState → WorkerPassState × Except String Unit}
    {ws : List AgentWorker} (hstep : ∀ w ∈ ws, ∀ s, I s → I (step w s).1) {s : WorkerPassState}
    (h : I s) : I (eachWorker step ws s).1 := by
  induction ws generalizing s with
  | nil => exact h
  | cons w ws ih =>
    have hfirst := hstep w List.mem_cons_self s h
    unfold eachWorker
    split
    · rename_i s' heq
      rw [heq] at hfirst
      exact ih (fun v hv => hstep v (List.mem_cons_of_mem w hv)) hfirst
    · rename_i s' error heq
      rw [heq] at hfirst
      exact hfirst

/-- Every abandonment that is asked for meets `P`. -/
def Every (P : AbandonmentAttempt → Prop) (s : WorkerPassState) : Prop := ∀ a ∈ s.attempts, P a

section Every

variable {P : AbandonmentAttempt → Prop} {s : WorkerPassState}

theorem every_started (db : Registry) (calls : Nat) : Every P (started db calls) :=
  fun _ h => absurd h List.not_mem_nil

theorem every_tick (h : Every P s) : Every P (q.tick s) := h

theorem every_inlineLaunchPending (w : AgentWorker) (h : Every P s) :
    Every P (q.inlineLaunchPending w s).1 := by
  unfold inlineLaunchPending
  split
  · exact h
  · exact h

theorem every_observe (w : AgentWorker) (h : Every P s) : Every P (q.observe w s).1 :=
  every_inlineLaunchPending w (every_tick h)

theorem every_abandon {w : AgentWorker} {o : WorkerObservation} {drainedAt : Nat}
    {permitted : Option String} {error : String} (h : Every P s)
    (hnew : ∀ listed since calls,
      P ⟨w, o, drainedAt, q.abandonment w permitted error calls, listed, since⟩) :
    Every P (q.abandon w o drainedAt permitted error s).1 := by
  intro a ha
  rcases List.mem_append.mp ha with ha | ha
  · exact h a ha
  · obtain rfl := List.mem_singleton.mp ha
    exact hnew _ _ _

end Every

theorem isActive_of_listed {db : Registry} {w : AgentWorker} (h : w ∈ db.listActiveWorkers) :
    w.state.isActive = true := by
  have hw := (Listing.sortByKey_perm _ _).subset h
  have hp := (List.mem_filter.mp hw).2
  simp only [Bool.and_eq_true] at hp
  exact hp.1

/-- What the scheduler sees to besides: the worker has lapsed, and is no generation that this
process still registers. -/
def AskedByScheduler (q : WorkerPass) (a : AbandonmentAttempt) : Prop :=
  q.Asked a ∧ q.Lapsed a.worker a.observed ∧
    ¬(q.currentGenerationRegistered a.worker a.observed = true ∧ a.worker.isBusy = true)

/-- A worker that is to be launched is given up only when its selection cannot be read. -/
theorem every_dispatch {w : AgentWorker} {o : WorkerObservation} {s : WorkerPassState}
    {P : AbandonmentAttempt → Prop} (h : Every P s)
    (hnew : ∀ permitted error listed since calls, q.drainWorker s.calls w = .ok true →
      q.Lapsed w o → P ⟨w, o, s.calls, q.abandonment w permitted error calls, listed, since⟩) :
    Every P (q.dispatch w o s).1 := by
  unfold dispatch
  cases hselection : AgentTaskSelection.fromLabel w.taskSelection with
  | error error =>
    dsimp only
    split
    · exact h
    · exact h
    · rename_i hdrained
      exact every_abandon h fun listed since calls =>
        hnew _ _ listed since calls hdrained (.unreadable error hselection)
  | ok taskSelection =>
    dsimp only
    split
    · exact h
    · exact h

theorem every_reconcileWorker {w : AgentWorker} (hactive : w.state.isActive = true)
    {s : WorkerPassState} (h : Every q.AskedByScheduler s) :
    Every q.AskedByScheduler (q.reconcileWorker w s).1 := by
  unfold reconcileWorker
  by_cases hprotocol : agentWorkerProtocolVersion < w.protocolVersion
  · rw [if_pos hprotocol]
    exact h
  rw [if_neg hprotocol]
  have hobserved := every_observe (q := q) w h
  generalize q.observe w s = observed at hobserved ⊢
  obtain ⟨s', o⟩ := observed
  dsimp only at hobserved ⊢
  by_cases hwaits : q.waits w o = true
  · rw [if_pos hwaits]
    exact hobserved
  rw [if_neg hwaits]
  simp only [waits, Bool.or_eq_true, Bool.and_eq_true, not_or] at hwaits
  have hasked (permitted : Option String) (error : String) (listed : Registry)
      (since : List RegistryOp) (calls : Nat) (hdrained : q.drainWorker s'.calls w = .ok true)
      (hlapsed : q.Lapsed w o) :
      q.AskedByScheduler ⟨w, o, s'.calls, q.abandonment w permitted error calls, listed, since⟩ :=
    ⟨⟨hactive, rfl, rfl, hdrained, Int.not_lt.mp hprotocol, hwaits.1.1⟩, hlapsed, hwaits.1.2⟩
  cases hreason : q.abandonmentReason w o with
  | some reason =>
    dsimp only
    split
    · rename_i hdrained
      exact every_abandon hobserved fun listed since calls =>
        hasked _ _ listed since calls hdrained (lapsed_of_abandonmentReason hreason)
    · exact hobserved
  | none =>
    dsimp only
    split
    · exact every_dispatch hobserved hasked
    · exact hobserved

/-- What a manual completion sees to besides: the process of the worker is reported gone. -/
def AskedByCompletion (q : WorkerPass) (a : AbandonmentAttempt) : Prop :=
  q.Asked a ∧ a.observed.processState = some false

theorem every_reconcileExitedWorker {w : AgentWorker} (hactive : w.state.isActive = true)
    {s : WorkerPassState} (h : Every q.AskedByCompletion s) :
    Every q.AskedByCompletion (q.reconcileExitedWorker w s).1 := by
  unfold reconcileExitedWorker
  dsimp only
  split
  · exact h
  rename_i hprotocol
  split
  · exact h
  rename_i hgone
  have hread := every_inlineLaunchPending (q := q) w h
  split
  · exact hread
  rename_i hlaunch
  split
  · exact hread
  · exact hread
  · rename_i hdrained
    refine every_abandon (every_tick hread) fun listed since calls => ⟨?_, not_not.mp hgone⟩
    refine ⟨hactive, rfl, rfl, hdrained, Int.not_lt.mp hprotocol, fun ⟨_, hpending⟩ => ?_⟩
    exact hlaunch hpending

/-- The abandonments that the scheduler asks for. -/
theorem asked_of_reconcileAgentWorkers (db : Registry) :
    Every q.AskedByScheduler (q.reconcileAgentWorkers db).1 :=
  eachWorker_invariant (fun _ hw _ h => every_reconcileWorker (isActive_of_listed hw) h)
    (every_started db 0)

/-- The abandonments that a manual completion asks for. -/
theorem asked_of_reconcileExitedProjectWorkers (projectId : Int) (db : Registry) :
    Every q.AskedByCompletion (q.reconcileExitedProjectWorkers projectId db).1 := by
  unfold reconcileExitedProjectWorkers
  split
  · exact every_started db 0
  have hpass := eachWorker_invariant (I := Every q.AskedByCompletion)
    (fun w (hw : w ∈ (runOps (q.others 0) db).listActiveWorkers.filter
        fun w => w.projectId == projectId) _ h =>
      every_reconcileExitedWorker (isActive_of_listed (List.mem_filter.mp hw).1) h)
    (every_started (runOps (q.others 0) db) 1)
  dsimp only
  split
  · rename_i s heq
    rw [heq] at hpass
    have hreleased : (q.releaseDeadLease projectId s).attempts = s.attempts := by
      unfold releaseDeadLease
      dsimp only
      split
      · rfl
      · split
        · rfl
        · split
          · rfl
          · rfl
    intro a ha
    rw [hreleased] at ha
    exact hpass a ha
  · rename_i s error heq
    rw [heq] at hpass
    exact hpass

/-! ## When the abandonments are sound -/

/-- The worker that is to be abandoned has not been renewed, nor claimed once more by the process
that runs it, in such a way that the abandonment still finds the row that was read. -/
def Unrenewed (a : AbandonmentAttempt) : Prop :=
  a.worker.state = .running → a.before.Abandonable a.request → ¬a.IsTouched

/-- What is asked of a worker that a manual completion would give up besides: when it was not
claimed yet it has lapsed all the same, and it is not a generation of this very process, reported
as exited. -/
structure ExitsAlone (q : WorkerPass) (a : AbandonmentAttempt) : Prop where
  lapsed : a.worker.state = .dispatching → q.Lapsed a.worker a.observed
  generation : ¬(q.currentGenerationRegistered a.worker a.observed = true ∧
    a.worker.isBusy = true)

theorem isBusy_of_isActive {w : AgentWorker} (hactive : w.state.isActive = true)
    (hclaimed : w.state ≠ .dispatching) : w.isBusy = true := by
  unfold AgentWorker.isBusy
  cases hstate : w.state with
  | dispatching => exact absurd hstate hclaimed
  | running => rfl
  | finalizing => rfl
  | _ =>
    rw [hstate] at hactive
    cases hactive

/-- An abandonment that a pass asks for is sound once it is known that the worker may be given up
and that it was not renewed. -/
theorem Asked.sound {a : AbandonmentAttempt} (h : q.Asked a) (hlapsed : q.Lapsed a.worker a.observed)
    (hgeneration : ¬(q.currentGenerationRegistered a.worker a.observed = true ∧
      a.worker.isBusy = true))
    (hunrenewed : Unrenewed a) (habandons : a.Abandons) : q.Sound a where
  drained := h.drained
  protocol := h.protocol
  launch := h.launch
  generation := hgeneration
  lapsed := hlapsed
  untouched := by
    intro htouched
    have habandonable := abandonWorker_eq_ok_true.mp habandons
    exact hunrenewed (h.running_of_touched htouched habandonable) habandonable htouched

/-- Every worker that the scheduler abandons is drained, lapsed and left alone by others, exactly
when no worker is renewed within the heartbeat that was read. The same holds of the workers that a
manual completion abandons, when besides their processes are reported as exited only after they
were claimed and by another process. -/
theorem abandonments_sound_iff (q : WorkerPass) (db : Registry) :
    ((∀ a ∈ (q.reconcileAgentWorkers db).1.attempts, a.Abandons → q.Sound a) ↔
      ∀ a ∈ (q.reconcileAgentWorkers db).1.attempts, Unrenewed a) ∧
    ∀ projectId,
      ((∀ a ∈ (q.reconcileExitedProjectWorkers projectId db).1.attempts,
          a.Abandons → q.Sound a) ↔
        ∀ a ∈ (q.reconcileExitedProjectWorkers projectId db).1.attempts,
          Unrenewed a ∧ (a.before.Abandonable a.request → q.ExitsAlone a)) := by
  refine ⟨⟨?_, ?_⟩, fun projectId => ⟨?_, ?_⟩⟩
  · intro h a ha _ habandonable
    exact (h a ha (abandonWorker_eq_ok_true.mpr habandonable)).untouched
  · intro h a ha habandons
    obtain ⟨hasked, hlapsed, hgeneration⟩ := asked_of_reconcileAgentWorkers db a ha
    exact hasked.sound hlapsed hgeneration (h a ha) habandons
  · intro h a ha
    refine ⟨fun _ habandonable => ?_, fun habandonable => ?_⟩
    · exact (h a ha (abandonWorker_eq_ok_true.mpr habandonable)).untouched
    · have hsound := h a ha (abandonWorker_eq_ok_true.mpr habandonable)
      exact ⟨fun _ => hsound.lapsed, hsound.generation⟩
  · intro h a ha habandons
    obtain ⟨hasked, hgone⟩ := asked_of_reconcileExitedProjectWorkers projectId db a ha
    obtain ⟨hunrenewed, halone⟩ := h a ha
    have hexits := halone (abandonWorker_eq_ok_true.mp habandons)
    refine hasked.sound ?_ hexits.generation hunrenewed habandons
    by_cases hdispatching : a.worker.state = .dispatching
    · exact hexits.lapsed hdispatching
    · exact .exited (isBusy_of_isActive hasked.active hdispatching) hgone

end WorkerPass

/-- A worker that was claimed in second 12. -/
def claimedRegistry : Registry :=
  runOps
    [.tryAcquireLease 1 "scheduler" "10" "20",
      .reserveWorker
        { projectId := 1, workerToken := "w", expectedLeaseHolder := "scheduler",
          maxActiveWorkers := 1, protocolVersion := 2, serviceLabel := "label",
          binaryPath := "/clt", commandArguments := "[]", pathEnv := "", codexPath := none,
          taskSelection := "next_todo", resumeSessionId := none, createdAt := "11" } none,
      .claimWorker "w" 7 "12"]
    managedRegistry

/-- Its first heartbeat comes in the same second, after the pass has read it, and then its process
exits. -/
def renewedPass : WorkerPass where
  os := ⟨true, 1, fun pid => some (pid == 1), fun pid => some (pid == 1), by decide⟩
  now := 12
  processIsRunning := fun _ pid => some (pid == 1)
  generationIsRegistered := fun _ _ => false
  drainWorker := fun _ _ => .ok true
  parseArguments := fun _ => .ok []
  timestamp := fun _ => "12"
  others := fun calls => if calls = 0 then [.renewWorker "w" 7 "12" "42"] else []

theorem renewedPass_abandons :
    ¬∀ (q : WorkerPass) (db : Registry), ∀ a ∈ (q.reconcileAgentWorkers db).1.attempts,
      a.Abandons → q.Sound a := by
  intro h
  have hlength : 0 < (renewedPass.reconcileAgentWorkers claimedRegistry).1.attempts.length := by
    decide
  refine (h renewedPass claimedRegistry _ (List.get_mem _ ⟨0, hlength⟩) rfl).untouched ?_
  exact ⟨[], .renewWorker "w" 7 "12" "42", [], rfl, rfl, rfl⟩

end Clt
