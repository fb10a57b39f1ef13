import Clt.Delivery.Ledger
import Clt.Runner.AppServer
import Clt.Transition.Exec

/-!
# Delivery of steering requests

The runner keeps a ledger of its steering requests (`Protocol.ledger`): what a step writes to
the pipe, to the pending table and to the mailbox is a chain of ledger entries
(`steps_step`), so each request is sent at most once and answered at most once over every
order of frames, arrivals and timeouts. The turn that is active, the final text and the place
where `run` returns are followed beside it (`Watched`).
-/

namespace Clt

open Delivery Transition

/-- The state that a function leaves. -/
def StepOutcome.state : StepOutcome → Protocol
  | .ok p => p
  | .error (_, p) => p

namespace Protocol

variable {p p' : Protocol} {frame : Json} {env : Environment} {request : SteeringRequest}
  {Deliverable : SteeringRequest → Prop} {Acceptable : Nat × SteeringRequest → Prop}

@[simp] theorem state_ok (p : Protocol) : StepOutcome.state (.ok p) = p := rfl

@[simp] theorem state_error (message : Message) (p : Protocol) :
    StepOutcome.state (.error (message, p)) = p := rfl

/-! ## The ledger -/

/-- The steering request that a message carries, under its number. -/
def steering : Sent → Option (Nat × SteeringRequest)
  | .call id (.turnSteer _ request) => some (id, request)
  | _ => none

/-- The entries of the pending table, their requests under their numbers. -/
def waiting (p : Protocol) : List (Nat × SteeringRequest) :=
  p.pending.map fun entry => (entry.id, entry.request)

/-- The steering requests that went through the pipe, wait and were answered. -/
def ledger (p : Protocol) : Ledger String SteeringRequest where
  sent := p.sent.filterMap steering
  pending := p.waiting
  answers := p.replies.map fun reply => (reply.1, reply.2.accepted)
  next := p.nextId

/-- The ledger's id of a request. -/
abbrev requestId : SteeringRequest → String := SteeringRequest.id

/-- The request waits or has its receipt. -/
abbrev Known (p : Protocol) (id : String) : Prop := p.ledger.Known requestId id

theorem known_iff {id : String} : p.Known id ↔ p.awaits id = true ∨ p.replied id = true := by
  simp [Ledger.Known, ledger, waiting, awaits, replied]

/-- What the mailbox pass leaves alone. -/
structure View where
  spec : LaunchSpec
  target : Option SteeringTarget
  threadId : String
  sessionId : String
  activeTurn : Option String
  completedTurn : Option String
  turnCount : Nat
  usedTools : Bool
  finalText : String
  requests : List RequestFile
  activeJson : Option SteeringTarget
  stdout : List String
  phase : Phase

def view (p : Protocol) : View where
  spec := p.spec
  target := p.target
  threadId := p.threadId
  sessionId := p.sessionId
  activeTurn := p.activeTurn
  completedTurn := p.completedTurn
  turnCount := p.turnCount
  usedTools := p.usedTools
  finalText := p.finalText
  requests := p.requests
  activeJson := p.activeJson
  stdout := p.stdout
  phase := p.phase

/-- A chain of ledger entries. -/
abbrev Steps (Deliverable : SteeringRequest → Prop) (Acceptable : Nat × SteeringRequest → Prop)
    (p p' : Protocol) : Prop :=
  Ledger.Steps requestId Deliverable Acceptable p.ledger p'.ledger

theorem Steps.of_eq (h : p'.ledger = p.ledger) : Steps Deliverable Acceptable p p' := by
  rw [Steps, h]

/-- A message that carries no steering request spends at most a number. -/
theorem steps_send {call : Call} (h : ∀ id, steering (.call id call) = none) (p : Protocol) :
    Steps Deliverable Acceptable p (p.send call).2 := by
  have hledger : (p.send call).2.ledger = { p.ledger with next := p.ledger.next + 1 } := by
    simp [send, ledger, waiting, h]
  rw [Steps, hledger]
  exact .single (.number _)

@[simp] theorem view_send (call : Call) (p : Protocol) : (p.send call).2.view = p.view := rfl

/-- A receipt for an unknown request rejects it. -/
theorem steps_receipt {id : String} {reply : SteeringReply} (hunknown : ¬ p.Known id)
    (hreply : reply.accepted = false) : Steps Deliverable Acceptable p (p.receipt id reply) := by
  have hledger : (p.receipt id reply).ledger =
      { p.ledger with answers := p.ledger.answers ++ [(id, false)] } := by
    simp [receipt, ledger, waiting, hreply]
  rw [Steps, hledger]
  exact .single (.reject _ id hunknown)

/-- The pending table without an entry, and the entry's receipt. -/
theorem ledger_settle {entry : Pending} {reply : SteeringReply}
    (hpending : p'.pending = p.pending.filter fun other => other.id ≠ entry.id)
    (hreplies : p'.replies = p.replies ++ [(entry.request.id, reply)])
    (hsent : p'.sent = p.sent) (hnext : p'.nextId = p.nextId) :
    p'.ledger =
      { p.ledger with
        pending := p.ledger.pending.filter fun e => e.1 ≠ entry.id
        answers := p.ledger.answers ++ [(entry.request.id, reply.accepted)] } := by
  simp [ledger, waiting, hpending, hreplies, hsent, hnext, List.filter_map, Function.comp_def]

theorem steps_settle {entry : Pending} {reply : SteeringReply} (hmem : entry ∈ p.pending)
    (hpending : p'.pending = p.pending.filter fun other => other.id ≠ entry.id)
    (hreplies : p'.replies = p.replies ++ [(entry.request.id, reply)])
    (hsent : p'.sent = p.sent) (hnext : p'.nextId = p.nextId)
    (haccepted : reply.accepted = true → Acceptable (entry.id, entry.request)) :
    Steps Deliverable Acceptable p p' := by
  rw [Steps, ledger_settle hpending hreplies hsent hnext]
  have hwaits : (entry.id, entry.request) ∈ p.ledger.pending :=
    List.mem_map_of_mem (f := fun e : Pending => (e.id, e.request)) hmem
  exact .single (.settle _ (entry.id, entry.request) reply.accepted hwaits haccepted)

/-! ## Turns and events -/

@[simp] theorem ledger_startTurn (id : String) (p : Protocol) :
    (p.startTurn id).ledger = p.ledger := by
  unfold startTurn
  split <;> rfl

@[simp] theorem ledger_notification (frame : Json) (p : Protocol) :
    (p.notification frame).state.ledger = p.ledger := by
  unfold notification
  dsimp only
  split
  · split
    · exact ledger_startTurn _ p
    · rfl
  · split
    · split
      · rfl
      · split
        · split <;> rfl
        · rfl
    · split
      · split
        · split <;> split <;> rfl
        · split <;> rfl
      · rfl

/-- The frame answers a request that waits, under its number, and names its turn. -/
def Confirms (p : Protocol) (frame : Json) (e : Nat × SteeringRequest) : Prop :=
  (p.answered frame).isSome = true ∧ (frame.field "id").asU64 = some e.1 ∧
    accepts e.2 frame = true

theorem answered_eq_some {entry : Pending} (h : p.answered frame = some entry) :
    entry ∈ p.pending ∧ (frame.field "id").asU64 = some entry.id := by
  unfold answered at h
  split at h
  · rename_i id hid
    have hfound := List.find?_some h
    rw [decide_eq_true_eq] at hfound
    exact ⟨List.mem_of_find?_eq_some h, by rw [hid, hfound]⟩
  · cases h

theorem acknowledge_fields (entry : Pending) (frame : Json) (p : Protocol) :
    (p.acknowledge entry frame).pending = p.pending.filter (fun other => other.id ≠ entry.id) ∧
      (p.acknowledge entry frame).replies = p.replies ++ [(entry.request.id,
        ⟨accepts entry.request frame, acknowledgement (accepts entry.request frame) frame⟩)] ∧
      (p.acknowledge entry frame).sent = p.sent ∧ (p.acknowledge entry frame).nextId = p.nextId ∧
      (p.acknowledge entry frame).view = p.view := by
  unfold acknowledge
  dsimp only
  split
  · split <;> exact ⟨rfl, rfl, rfl, rfl, rfl⟩
  · exact ⟨rfl, rfl, rfl, rfl, rfl⟩

/-- An event only settles the request that its frame answers. -/
theorem steps_event (frame : Json) (p : Protocol) :
    Steps Deliverable (Confirms p frame) p (p.event frame).state := by
  unfold event
  split
  · rename_i entry hanswered
    obtain ⟨hmem, hid⟩ := answered_eq_some hanswered
    obtain ⟨hpending, hreplies, hsent, hnext, -⟩ := acknowledge_fields entry frame p
    exact steps_settle hmem hpending hreplies hsent hnext fun haccepted =>
      ⟨by rw [hanswered]; rfl, hid, haccepted⟩
  · split
    · exact .of_eq (by simp [ledger, waiting, steering])
    · split
      · exact .of_eq (ledger_notification frame p)
      · exact .of_eq rfl

/-! ## The mailbox pass -/

/-- A pass over the mailbox accepts nothing and leaves the turns alone. -/
structure Pass (Deliverable : SteeringRequest → Prop) (p p' : Protocol) : Prop where
  steps : Steps Deliverable (fun _ => False) p p'
  view : p'.view = p.view

theorem Pass.refl (p : Protocol) : Pass Deliverable p p := ⟨.refl, rfl⟩

theorem Pass.trans {p'' : Protocol} (h : Pass Deliverable p p') (h' : Pass Deliverable p' p'') :
    Pass Deliverable p p'' :=
  ⟨h.steps.trans h'.steps, h'.view.trans h.view⟩

theorem Pass.target (h : Pass Deliverable p p') : p'.target = p.target :=
  congrArg View.target h.view

theorem deliver_eq_ok {delivered : Nat × Protocol} (h : p.deliver env request = .ok delivered) :
    p.target = some request.target ∧ delivered = p.send (.turnSteer p.threadId request) := by
  unfold deliver at h
  split at h
  · rename_i htarget
    split at h
    · rcases hstore : env.store with message | store
      · rw [hstore] at h
        cases h
      · rcases hroot : projectRoot store p.spec.projectId with message | root
        · simp [hstore, hroot, bind, Except.bind] at h
        · rcases hvalid : validateTarget store request.target with message | _
          · simp [hstore, hroot, hvalid, bind, Except.bind] at h
          · simp only [hstore, hroot, hvalid, bind, Except.bind, Except.ok.injEq] at h
            exact ⟨htarget, h.symm⟩
    · cases h
  · cases h

/-- A delivery to the active target enters the request. -/
theorem pass_await {delivered : Nat × Protocol} (hunknown : ¬ p.Known request.id)
    (hallowed : ∀ r : SteeringRequest, p.target = some r.target → Deliverable r)
    (h : p.deliver env request = .ok delivered) : Pass Deliverable p (await env request delivered) := by
  obtain ⟨htarget, rfl⟩ := deliver_eq_ok h
  have hledger : (await env request (p.send (.turnSteer p.threadId request))).ledger =
      { p.ledger with
        sent := p.ledger.sent ++ [(p.ledger.next, request)]
        pending := p.ledger.pending ++ [(p.ledger.next, request)]
        next := p.ledger.next + 1 } := by
    simp [await, send, ledger, waiting, steering]
  refine ⟨?_, rfl⟩
  rw [Steps, hledger]
  exact .single (.deliver _ request hunknown (hallowed request htarget))

theorem known_await {delivered : Nat × Protocol} : (await env request delivered).Known request.id := by
  rw [known_iff]
  exact .inl (by simp [await, awaits])

theorem known_receipt (id : String) (reply : SteeringReply) (p : Protocol) :
    (p.receipt id reply).Known id := by
  rw [known_iff]
  exact .inr (by simp [receipt, replied])

theorem pass_receipt {id : String} {reply : SteeringReply} (hunknown : ¬ p.Known id)
    (hreply : reply.accepted = false) : Pass Deliverable p (p.receipt id reply) :=
  ⟨steps_receipt hunknown hreply, rfl⟩

/-- A file of the mailbox is known once it was read. -/
theorem pass_readRequest (env : Environment) (file : RequestFile)
    (hallowed : ∀ r : SteeringRequest, p.target = some r.target → Deliverable r) :
    Pass Deliverable p (readRequest env p file) ∧
      (isUuid file.id = true → (readRequest env p file).Known file.id) := by
  unfold readRequest
  by_cases huuid : isUuid file.id = true
  · by_cases hknown : p.Known file.id
    · have hskip : (!isUuid file.id || p.replied file.id || p.awaits file.id) = true := by
        rw [known_iff] at hknown
        rcases hknown with h | h <;> simp [h]
      rw [if_pos hskip]
      exact ⟨.refl p, fun _ => hknown⟩
    · have hread : ¬ (!isUuid file.id || p.replied file.id || p.awaits file.id) = true := by
        rw [known_iff, not_or] at hknown
        simp [huuid, hknown.1, hknown.2]
      rw [if_neg hread]
      split
      · rename_i request _
        split
        · rename_i hid
          rw [← hid] at hknown ⊢
          split
          · rename_i delivered hdeliver
            exact ⟨pass_await hknown hallowed hdeliver, fun _ => known_await⟩
          · exact ⟨pass_receipt hknown rfl, fun _ => known_receipt _ _ p⟩
        · exact ⟨pass_receipt hknown rfl, fun _ => known_receipt _ _ p⟩
      · exact ⟨pass_receipt hknown rfl, fun _ => known_receipt _ _ p⟩
  · rw [if_pos (by simp [huuid])]
    exact ⟨.refl p, fun h => absurd h huuid⟩

theorem pass_readRequests (env : Environment) (files : List RequestFile) (hwf : p.ledger.Wf requestId)
    (hallowed : ∀ r : SteeringRequest, p.target = some r.target → Deliverable r) :
    Pass Deliverable p (files.foldl (readRequest env) p) ∧
      ∀ file ∈ files, isUuid file.id = true → (files.foldl (readRequest env) p).Known file.id := by
  induction files generalizing p with
  | nil => exact ⟨.refl p, nofun⟩
  | cons file files ih =>
    obtain ⟨hfirst, hknown⟩ := pass_readRequest env file hallowed
    have hwf' := hfirst.steps.wf hwf
    obtain ⟨hrest, hothers⟩ := ih hwf' fun r hr => hallowed r (hfirst.target ▸ hr)
    refine ⟨hfirst.trans hrest, List.forall_mem_cons.mpr ⟨fun huuid => ?_, hothers⟩⟩
    exact hrest.steps.known hwf' (hknown huuid)

theorem pass_giveUp {message : String} {entry : Pending} (hmem : entry ∈ p.pending) :
    Pass Deliverable p (p.giveUp message entry) :=
  ⟨steps_settle hmem rfl rfl rfl rfl nofun, rfl⟩

theorem expire_fields (p : Protocol) (entry : Pending) :
    ∃ message, (p.expire entry).pending = p.pending.filter (fun other => other.id ≠ entry.id) ∧
      (p.expire entry).replies = p.replies ++ [(entry.request.id, ⟨false, message⟩)] ∧
      (p.expire entry).sent = p.sent ∧ (p.expire entry).nextId = p.nextId ∧
      (p.expire entry).view = p.view := by
  refine ⟨{ text := "Delivery is unconfirmed: Codex did not reply. Check the agent output before " ++
    "retrying" }, ?_⟩
  unfold expire
  dsimp only
  split
  · split <;> exact ⟨rfl, rfl, rfl, rfl, rfl⟩
  · exact ⟨rfl, rfl, rfl, rfl, rfl⟩

/-- Entries that are given up one by one: each of them still waits when its turn comes. -/
theorem pass_settleAll {settle : Protocol → Pending → Protocol}
    (hsettle : ∀ p entry, entry ∈ p.pending → Pass Deliverable p (settle p entry))
    (hpending : ∀ p entry, (settle p entry).pending =
      p.pending.filter fun other => other.id ≠ entry.id)
    (entries : List Pending) (hnumbers : (entries.map Pending.id).Nodup)
    (hmem : ∀ entry ∈ entries, entry ∈ p.pending) :
    Pass Deliverable p (entries.foldl settle p) := by
  induction entries generalizing p with
  | nil => exact .refl p
  | cons entry entries ih =>
    obtain ⟨hfresh, hnumbers⟩ := List.nodup_cons.mp hnumbers
    obtain ⟨hfirst, hmem⟩ := List.forall_mem_cons.mp hmem
    refine (hsettle p entry hfirst).trans (ih hnumbers fun other hother => ?_)
    rw [hpending]
    refine List.mem_filter.mpr ⟨hmem other hother, ?_⟩
    have hne : other.id ≠ entry.id := fun heq => hfresh (heq ▸ List.mem_map_of_mem hother)
    simpa using hne

theorem numbers_nodup (hwf : p.ledger.Wf requestId) : (p.pending.map Pending.id).Nodup := by
  have hnumbers := hwf.numbers
  rwa [ledger, waiting, List.map_map] at hnumbers

/-- A whole pass reads every file of the mailbox. -/
theorem pass_readMailbox (env : Environment) (hwf : p.ledger.Wf requestId)
    (hallowed : ∀ r : SteeringRequest, p.target = some r.target → Deliverable r) :
    Pass Deliverable p (p.readMailbox env) ∧
      ∀ file ∈ p.requests, isUuid file.id = true → (p.readMailbox env).Known file.id := by
  obtain ⟨hread, hknown⟩ := pass_readRequests env p.requests hwf hallowed
  have hwf' := hread.steps.wf hwf
  have hexpire : Pass Deliverable (p.requests.foldl (readRequest env) p) (p.readMailbox env) := by
    refine pass_settleAll ?_ ?_ _ ?_ fun entry hentry => (List.mem_filter.mp hentry).1
    · intro p entry hentry
      obtain ⟨message, hpending, hreplies, hsent, hnext, hview⟩ := expire_fields p entry
      exact ⟨steps_settle hentry hpending hreplies hsent hnext nofun, hview⟩
    · intro p entry
      obtain ⟨message, hpending, -⟩ := expire_fields p entry
      exact hpending
    · exact (numbers_nodup hwf').sublist (List.filter_sublist.map _)
  exact ⟨hread.trans hexpire, fun file hfile huuid =>
    hexpire.steps.known hwf' (hknown file hfile huuid)⟩

theorem pass_refreshCoordination (hfresh : ¬ p.Known env.newId)
    (hallowed : ∀ r : SteeringRequest, p.target = some r.target → Deliverable r) :
    Pass Deliverable p (p.refreshCoordination env) := by
  unfold refreshCoordination
  split
  · exact .refl p
  · dsimp only
    split
    · rename_i target _ context _ _ _
      split
      · exact ⟨.of_eq rfl, rfl⟩
      · split
        · rename_i delivered hdeliver
          have hawait : Pass Deliverable { p with coordinationChecked := env.now }
              (await env ⟨env.newId, target, coordinationText context⟩ delivered) :=
            pass_await hfresh hallowed hdeliver
          exact ⟨hawait.steps, hawait.view⟩
        · exact ⟨.of_eq rfl, rfl⟩
    · exact ⟨.of_eq rfl, rfl⟩

/-! ## A step -/

/-- The entries of a function that may fail. -/
abbrev Enters (Deliverable : SteeringRequest → Prop) (Acceptable : Nat × SteeringRequest → Prop)
    (p : Protocol) (outcome : StepOutcome) : Prop :=
  Steps Deliverable Acceptable p outcome.state

/-- A number is spent, and the phase changes. -/
theorem enters_send {call : Call} (h : ∀ id, steering (.call id call) = none) (phase : Phase) :
    Steps Deliverable Acceptable p { (p.send call).2 with phase } :=
  (steps_send h p).trans (Steps.of_eq rfl)

theorem Steps.of_pass (h : Pass Deliverable p p') : Steps Deliverable Acceptable p p' :=
  h.steps.mono (fun _ hr => hr) fun _ he => he.elim

theorem waitForEvent_state (env : Environment) (goalWait : Option Nat) (p : Protocol) :
    ∃ phase, (p.waitForEvent env goalWait).state = { p with phase } := by
  unfold waitForEvent
  dsimp only
  generalize (if p.activeTurn.isSome = true then none else goalWait) = wait
  split
  · exact ⟨p.phase, rfl⟩
  · exact ⟨_, rfl⟩

/-- The turn loop delivers to the active target, which it leaves. -/
theorem enters_turnLoop {goalWait : Option Nat} (hwf : p.ledger.Wf requestId)
    (hfresh : ¬ p.Known env.newId)
    (hallowed : ∀ r : SteeringRequest, p.target = some r.target → Deliverable r) :
    Enters Deliverable Acceptable p (p.turnLoop env goalWait) := by
  have hrefresh := pass_refreshCoordination hfresh hallowed
  have hread := (pass_readMailbox env (hrefresh.steps.wf hwf) fun r hr =>
    hallowed r (hrefresh.target ▸ hr)).1
  have hpass : Steps Deliverable Acceptable p ((p.refreshCoordination env).readMailbox env) :=
    .of_pass (hrefresh.trans hread)
  unfold turnLoop
  dsimp only
  split
  · rename_i completed _
    let q := (p.refreshCoordination env).readMailbox env
    exact hpass.trans (enters_send (p := { q with completedTurn := none }) (fun _ => rfl) _)
  · obtain ⟨phase, hstate⟩ := waitForEvent_state env goalWait
      ((p.refreshCoordination env).readMailbox env)
    rw [Enters, hstate]
    exact hpass.trans (Steps.of_eq rfl)

theorem enters_drain {completed : String} (hwf : p.ledger.Wf requestId)
    (hallowed : ∀ r : SteeringRequest, p.target = some r.target → Deliverable r) :
    Steps Deliverable Acceptable p (p.drain env completed) := by
  unfold drain
  split
  · exact Steps.of_eq rfl
  · exact (Steps.of_pass (pass_readMailbox env hwf hallowed).1).trans (Steps.of_eq rfl)

/-- What a wait of `rpc` leads to: the rest of `run`, an event or an error. -/
theorem rpc_cases (method : String) (id : Nat) (received : Received)
    (next : Json → Protocol → StepOutcome) (p : Protocol) :
    (∃ frame result, received = .frame frame ∧ takesResponse id frame = true ∧
      p.rpc method id received next = next result p) ∨
    (∃ frame, received = .frame frame ∧ takesResponse id frame = false ∧
      p.rpc method id received next = p.event frame) ∨
    (∃ message, p.rpc method id received next = .error (message, p) ∧
      ∀ frame, received = .frame frame → takesResponse id frame = true) := by
  unfold rpc
  cases received with
  | frame frame =>
    cases htakes : takesResponse id frame with
    | false => exact .inr (.inl ⟨frame, rfl, htakes, by simp [htakes]⟩)
    | true =>
      cases hresult : rpcResult method frame with
      | ok result => exact .inl ⟨frame, result, rfl, htakes, by simp [htakes, hresult]⟩
      | error message =>
        refine .inr (.inr ⟨message, by simp [htakes, hresult], ?_⟩)
        rintro _ ⟨⟩
        exact htakes
  | failed error => exact .inr (.inr ⟨error, rfl, nofun⟩)
  | timeout => exact .inr (.inr ⟨_, rfl, nofun⟩)
  | disconnected => exact .inr (.inr ⟨_, rfl, nofun⟩)

theorem bind_cases (outcome : StepOutcome) (next : Protocol → StepOutcome) :
    (∃ message q, outcome = .error (message, q) ∧ (outcome >>= next) = .error (message, q)) ∨
      ∃ q, outcome = .ok q ∧ (outcome >>= next) = next q := by
  rcases outcome with ⟨message, q⟩ | q
  · exact .inl ⟨message, q, rfl, rfl⟩
  · exact .inr ⟨q, rfl, rfl⟩

/-- An event makes no id known. -/
theorem known_of_event (frame : Json) {id : String} (h : (p.event frame).state.Known id) : p.Known id := by
  unfold event at h
  split at h
  · rename_i entry hanswered
    obtain ⟨hmem, -⟩ := answered_eq_some hanswered
    obtain ⟨hpending, hreplies, hsent, hnext, -⟩ := acknowledge_fields entry frame p
    rw [state_ok, Known, ledger_settle hpending hreplies hsent hnext] at h
    rcases h with h | h
    · obtain ⟨e, he, rfl⟩ := List.mem_map.mp h
      exact .inl (List.mem_map_of_mem (f := fun e => requestId e.2) (List.mem_filter.mp he).1)
    · rw [List.map_append, List.mem_append, List.map_singleton, List.mem_singleton] at h
      rcases h with h | rfl
      · exact .inr h
      · rw [known_iff]
        exact .inl (List.any_eq_true.mpr ⟨entry, hmem, by simp⟩)
  · split at h
    · rw [known_iff] at h ⊢
      exact h
    · split at h
      · rwa [Known, ledger_notification] at h
      · exact h

/-- What is delivered names the target that the outcome leaves. -/
abbrev ToTarget (outcome : StepOutcome) (request : SteeringRequest) : Prop :=
  outcome.state.target = some request.target

/-- What is accepted is confirmed by the frame that was received. -/
abbrev ByFrame (p : Protocol) (received : Received) (e : Nat × SteeringRequest) : Prop :=
  ∃ frame, received = .frame frame ∧ Confirms p frame e

theorem turnLoop_target {goalWait : Option Nat} (hwf : p.ledger.Wf requestId)
    (hfresh : ¬ p.Known env.newId) : (p.turnLoop env goalWait).state.target = p.target := by
  have hrefresh : Pass (fun _ => True) p (p.refreshCoordination env) :=
    pass_refreshCoordination hfresh fun _ _ => trivial
  have hread := (pass_readMailbox env (hrefresh.steps.wf hwf) fun _ _ => trivial).1
  have htarget := (hrefresh.trans hread).target
  unfold turnLoop
  dsimp only
  split
  · exact htarget
  · obtain ⟨phase, hstate⟩ := waitForEvent_state env goalWait
      ((p.refreshCoordination env).readMailbox env)
    rw [hstate]
    exact htarget

theorem drain_target {completed : String} (hwf : p.ledger.Wf requestId) :
    (p.drain env completed).target = p.target := by
  unfold drain
  split
  · rfl
  · have hread : Pass (fun _ => True) p (p.readMailbox env) :=
      (pass_readMailbox env hwf fun _ _ => trivial).1
    exact hread.target

theorem enters_event (frame : Json) (p : Protocol) :
    Enters Deliverable (ByFrame p (.frame frame)) p (p.event frame) :=
  (steps_event frame p).mono (fun _ hr => hr) fun _ he => ⟨frame, rfl, he⟩

theorem enters_turnLoop_target {goalWait : Option Nat} (hwf : p.ledger.Wf requestId)
    (hfresh : ¬ p.Known env.newId) :
    Enters (ToTarget (p.turnLoop env goalWait)) Acceptable p (p.turnLoop env goalWait) := by
  refine enters_turnLoop hwf hfresh fun r hr => ?_
  rw [ToTarget, turnLoop_target hwf hfresh]
  exact hr

theorem enters_drain_target {completed : String} (hwf : p.ledger.Wf requestId) :
    Enters (ToTarget (.ok (p.drain env completed))) Acceptable p (.ok (p.drain env completed)) := by
  refine enters_drain hwf fun r hr => ?_
  rw [ToTarget, state_ok, drain_target hwf]
  exact hr

theorem enters_rpc {method : String} {id : Nat} {received : Received}
    {next : Json → Protocol → StepOutcome}
    (hnext : ∀ result, Enters (ToTarget (next result p)) (ByFrame p received) p (next result p)) :
    Enters (ToTarget (p.rpc method id received next)) (ByFrame p received) p
      (p.rpc method id received next) := by
  rcases rpc_cases method id received next p with
    ⟨frame, result, -, -, h⟩ | ⟨frame, rfl, -, h⟩ | ⟨message, h, -⟩
  · rw [h]
    exact hnext result
  · rw [h]
    exact enters_event frame p
  · rw [h]
    exact Steps.of_eq rfl

/-- The entries of the work between two waits. -/
theorem enters_receive (received : Received) (hwf : p.ledger.Wf requestId)
    (hfresh : ¬ p.Known env.newId) :
    Enters (ToTarget (p.receive env received)) (ByFrame p received) p (p.receive env received) := by
  unfold receive
  split
  · refine enters_rpc fun result => ?_
    unfold afterInitialize
    dsimp only
    let q : Protocol := { p with sent := p.sent ++ [Sent.initialized] }
    have hledger : q.ledger = p.ledger := by simp [q, ledger, waiting, steering]
    exact (Steps.of_eq hledger).trans (enters_send (p := q) (fun _ => rfl) _)
  · refine enters_rpc fun result => ?_
    unfold afterThread
    dsimp only
    split
    · exact Steps.of_eq rfl
    · split
      · split
        · rename_i threadId _ _ _
          let q : Protocol := { p with
            threadId := threadId
            sessionId := ((result.field "thread").field "sessionId").asStr.getD threadId }
          exact enters_send (p := q) (fun _ => rfl) _
        · exact Steps.of_eq rfl
      · exact Steps.of_eq rfl
  · refine enters_rpc fun result => ?_
    unfold afterTurnStart
    split
    · split
      · rename_i turn _
        have hwf' : (p.startTurn turn).ledger.Wf requestId := by rwa [ledger_startTurn]
        have hfresh' : ¬ (p.startTurn turn).Known env.newId := by rwa [Known, ledger_startTurn]
        exact (Steps.of_eq (ledger_startTurn turn p)).trans (enters_turnLoop_target hwf' hfresh')
      · exact Steps.of_eq rfl
    · exact enters_turnLoop_target hwf hfresh
  · refine enters_rpc fun result => ?_
    unfold afterGoal
    split
    · split
      · exact enters_drain_target hwf
      · obtain ⟨phase, hstate⟩ := waitForEvent_state env (some env.now) p
        rw [Enters, hstate]
        exact Steps.of_eq rfl
    · obtain ⟨phase, hstate⟩ := waitForEvent_state env _ p
      rw [Enters, hstate]
      exact Steps.of_eq rfl
  · rename_i goalWait _
    cases received with
    | frame frame =>
      show Enters (ToTarget (p.event frame >>= turnLoop env goalWait)) _ p
        (p.event frame >>= turnLoop env goalWait)
      have hevent : Enters (ToTarget (p.event frame >>= turnLoop env goalWait)) _ p _ :=
        enters_event frame p
      rcases bind_cases (p.event frame) (turnLoop env goalWait) with
        ⟨message, q, hq, h⟩ | ⟨q, hq, h⟩
      · rw [h] at hevent ⊢
        rw [hq] at hevent
        exact hevent
      · rw [h] at hevent ⊢
        rw [hq] at hevent
        have hfresh' : ¬ q.Known env.newId := fun hknown =>
          hfresh (known_of_event frame (by rw [hq]; exact hknown))
        exact hevent.trans (enters_turnLoop_target (Ledger.Steps.wf hwf hevent) hfresh')
    | failed error => exact Steps.of_eq rfl
    | timeout => exact enters_turnLoop_target hwf hfresh
    | disconnected => exact Steps.of_eq rfl
  · rename_i completed _
    cases received with
    | frame frame =>
      let next : Protocol → StepOutcome := fun p => .ok (p.drain env completed)
      show Enters (ToTarget (p.event frame >>= next)) _ p (p.event frame >>= next)
      have hevent : Enters (ToTarget (p.event frame >>= next)) _ p _ := enters_event frame p
      rcases bind_cases (p.event frame) next with ⟨message, q, hq, h⟩ | ⟨q, hq, h⟩
      · rw [h] at hevent ⊢
        rw [hq] at hevent
        exact hevent
      · rw [h] at hevent ⊢
        rw [hq] at hevent
        exact hevent.trans (enters_drain_target (Ledger.Steps.wf hwf hevent))
    | failed error => exact Steps.of_eq rfl
    | timeout => exact enters_drain_target hwf
    | disconnected => exact Steps.of_eq rfl
  · exact Steps.of_eq rfl
  · exact Steps.of_eq rfl

/-! ## The end of the mailbox -/

theorem pending_giveUps (message : String) (entries : List Pending) (p : Protocol) :
    (entries.foldl (giveUp message) p).pending =
      p.pending.filter fun other => entries.all fun entry => other.id ≠ entry.id := by
  induction entries generalizing p with
  | nil => simp
  | cons entry entries ih =>
    rw [List.foldl_cons, ih]
    show (p.pending.filter fun other => other.id ≠ entry.id).filter _ = _
    rw [List.filter_filter]
    refine List.filter_congr fun other _ => ?_
    rw [List.all_cons, Bool.and_comm]

/-- Without an active target nothing is delivered. -/
theorem readRequest_closed (env : Environment) (file : RequestFile) (htarget : p.target = none) :
    (readRequest env p file).pending = p.pending ∧ (readRequest env p file).target = none := by
  unfold readRequest
  split
  · exact ⟨rfl, htarget⟩
  · split
    · split
      · split
        · rename_i hdeliver
          rw [(deliver_eq_ok hdeliver).1] at htarget
          cases htarget
        · exact ⟨rfl, htarget⟩
      · exact ⟨rfl, htarget⟩
    · exact ⟨rfl, htarget⟩

theorem readRequests_closed (env : Environment) (files : List RequestFile)
    (htarget : p.target = none) : (files.foldl (readRequest env) p).pending = p.pending := by
  induction files generalizing p with
  | nil => rfl
  | cons file files ih =>
    obtain ⟨hpending, hnone⟩ := readRequest_closed env file htarget
    rw [List.foldl_cons, ih hnone, hpending]

/-- Closing answers what waits and every request of the mailbox. -/
theorem pass_closeMailbox (env : Environment) (hwf : p.ledger.Wf requestId) :
    Steps (fun _ => False) (fun _ => False) p (p.closeMailbox env) ∧
      (p.closeMailbox env).view = { p.view with target := none, activeJson := none } ∧
      (p.closeMailbox env).pending = [] ∧
      ∀ file ∈ p.requests, isUuid file.id = true → (p.closeMailbox env).Known file.id := by
  let message :=
    "Delivery is unconfirmed: the Codex connection ended before acknowledging it. Check the " ++
      "agent output before retrying"
  let q : Protocol := { p with target := none, coordinationPending := none, activeJson := none }
  let r := p.pending.foldl (giveUp message) q
  have hgive : Pass (fun _ => False) q r :=
    pass_settleAll (fun _ _ => pass_giveUp) (fun _ _ => rfl) p.pending (numbers_nodup hwf)
      fun _ h => h
  have hr : r.pending = [] := by
    rw [pending_giveUps]
    refine List.filter_eq_nil_iff.mpr fun other hother hall => ?_
    have hself := List.all_eq_true.mp hall other hother
    simp at hself
  have htarget : r.target = none := hgive.target
  have hnone : ∀ request : SteeringRequest, r.target = some request.target → False := by
    intro request h
    rw [htarget] at h
    cases h
  have hwf' : r.ledger.Wf requestId := hgive.steps.wf hwf
  obtain ⟨hread, hknown⟩ := pass_readMailbox env hwf' hnone
  have hclosed := readRequests_closed env r.requests htarget
  have hrequests : r.requests = p.requests := congrArg View.requests hgive.view
  refine ⟨hgive.steps.trans hread.steps, hread.view.trans hgive.view, ?_, ?_⟩
  · show ((List.filter _ (r.requests.foldl (readRequest env) r).pending).foldl expire
      (r.requests.foldl (readRequest env) r)).pending = []
    rw [hclosed, hr]
    exact hclosed.trans hr
  · intro file hfile
    exact hknown file (hrequests ▸ hfile)

/-! ## Runs -/

/-- The id that a step draws is new. -/
def Fresh : Input → Protocol → Prop
  | .receive _ env, p => p.awaits env.newId = false ∧ p.replied env.newId = false
  | _, _ => True

/-- A step delivers to the target that it leaves, and accepts what its frame confirms. -/
theorem steps_step (op : Input) (hwf : p.ledger.Wf requestId) (hfresh : Fresh op p) :
    Steps (fun request => (step op p).target = some request.target)
      (fun e => ∃ frame env, op = .receive (.frame frame) env ∧ Confirms p frame e) p
      (step op p) := by
  cases op with
  | arrive requests =>
    show Steps _ _ p (if p.requests ⊆ requests then { p with requests } else p)
    split <;> exact Steps.of_eq rfl
  | receive received env =>
    have hunknown : ¬ p.Known env.newId := by
      rw [known_iff, not_or, Bool.not_eq_true, Bool.not_eq_true]
      exact hfresh
    have henters := enters_receive received hwf hunknown
    have hstate : (step (.receive received env) p).target =
          (p.receive env received).state.target ∧
        (step (.receive received env) p).ledger = (p.receive env received).state.ledger := by
      show (orReturned (p.receive env received)).target = _ ∧
        (orReturned (p.receive env received)).ledger = _
      rcases p.receive env received with ⟨message, q⟩ | q <;> exact ⟨rfl, rfl⟩
    rw [Steps, hstate.2, hstate.1]
    refine henters.mono (fun _ h => h) ?_
    rintro e ⟨frame, rfl, hconfirms⟩
    exact ⟨frame, env, rfl, hconfirms⟩
  | close env =>
    have hclose := (pass_closeMailbox env hwf).1
    cases hphase : p.phase with
    | returned result =>
      have hstep : step (.close env) p = { p.closeMailbox env with phase := .closed result } := by
        simp [step, hphase]
      rw [hstep]
      exact (hclose.mono (fun _ h => h.elim) fun _ h => h.elim).trans (Steps.of_eq rfl)
    | _ =>
      have hstep : step (.close env) p = p := by simp [step, hphase]
      rw [hstep]

/-- The steering requests that went through the pipe. -/
def steered (p : Protocol) : List (Nat × SteeringRequest) := p.sent.filterMap steering

/-- The receipts of the mailbox, and whether they accept. -/
def receipts (p : Protocol) : List (String × Bool) :=
  p.replies.map fun reply => (reply.1, reply.2.accepted)

theorem wf_start (spec : LaunchSpec) (now : Nat) : (start spec now).ledger.Wf requestId where
  numbers := List.nodup_nil
  below := nofun
  waiting := List.nodup_nil
  answered := List.nodup_nil
  apart := nofun
  once := List.nodup_nil
  known := nofun
  carried := nofun

end Protocol

end Clt
