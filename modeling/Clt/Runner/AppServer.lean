import Clt.Runner.Steering

/-!
# The app-server runner

The worker that owns the private app-server and its input pipe (`runner/app_server.rs`), as a
machine over what it receives. `run` waits for a frame at one place of each of its loops, so
the state between two waits is the `Protocol` with the `Phase` that says which wait it is; a
step is all the work up to the next wait. The pipe, the files of the mailbox and the output
are fields of the state, the clock and the stores are read from the `Environment` of a step.
Writing to the pipe and to the mailbox does not fail. Instants are milliseconds.
-/

namespace Clt

/-- `RPC_TIMEOUT`. -/
def rpcTimeout : Nat := 20000

/-- `LaunchSpec`, as far as the protocol reads it, and the id of its process. -/
structure LaunchSpec where
  params : Json
  prompt : String
  resume : Option String
  projectId : Int
  runToken : String
  mailbox : String
  childPid : Nat

/-- The calls that the runner makes. -/
inductive Call where
  | initializeServer
  | thread (method : String) (params : Json)
  | turnStart (threadId prompt : String)
  | goalGet (threadId : String)
  | turnSteer (threadId : String) (request : SteeringRequest)

/-- What the runner writes to the input pipe. -/
inductive Sent where
  | call (id : Nat) (call : Call)
  | initialized
  | refusal (id : Json)

/-- An entry of the `pending` table. -/
structure Pending where
  id : Nat
  request : SteeringRequest
  start : Nat

/-- Where `run` waits for the next frame. -/
inductive Phase where
  | initializing (id : Nat)
  | thread (id : Nat) (method : String)
  | turnStart (id : Nat)
  | running (goalWait : Option Nat)
  | goal (id : Nat) (completed : String) (usedTools : Bool) (turnCount : Nat)
      (goalWait : Option Nat)
  | draining (completed : String)
  | returned (result : Except Message Unit)
  | closed (result : Except Message Unit)

/-- `Protocol`, with what it has written outside. -/
structure Protocol where
  spec : LaunchSpec
  nextId : Nat
  target : Option SteeringTarget
  pending : List Pending
  threadId : String
  sessionId : String
  activeTurn : Option String
  completedTurn : Option String
  turnCount : Nat
  usedTools : Bool
  finalText : String
  coordinationContext : Option String
  coordinationPending : Option (Nat × String)
  coordinationChecked : Nat
  sent : List Sent
  requests : List RequestFile
  replies : List (String × SteeringReply)
  activeJson : Option SteeringTarget
  stdout : List String
  phase : Phase

/-- What a step reads of the clock, the stores and the id generator. `coordination` is the
board's context, where a Doing task of the board is the session's. -/
structure Environment where
  now : Nat
  store : Except String SteeringStore
  coordination : Option String
  newId : String

/-- A function that may fail, with the state that it leaves. -/
abbrev StepOutcome : Type := Except (Message × Protocol) Protocol

namespace Protocol

/-- `Protocol::send`: the number of the call. -/
def send (call : Call) (p : Protocol) : Nat × Protocol :=
  (p.nextId, { p with nextId := p.nextId + 1, sent := p.sent ++ [.call p.nextId call] })

/-- `Protocol::receipt`. -/
def receipt (id : String) (reply : SteeringReply) (p : Protocol) : Protocol :=
  { p with replies := p.replies ++ [(id, reply)] }

/-- The mailbox holds a receipt for the request. -/
def replied (p : Protocol) (id : String) : Bool := p.replies.any fun reply => reply.1 == id

/-- The request waits for its response. -/
def awaits (p : Protocol) (id : String) : Bool := p.pending.any fun entry => entry.request.id == id

/-- `Protocol::start_turn`. -/
def startTurn (id : String) (p : Protocol) : Protocol :=
  if p.activeTurn = some id then p
  else
    let target : SteeringTarget :=
      { projectId := p.spec.projectId, sessionId := p.sessionId, threadId := p.threadId
        runToken := p.spec.runToken, childPid := p.spec.childPid, turnId := id
        mailbox := p.spec.mailbox }
    { p with
      activeTurn := some id
      turnCount := p.turnCount + 1
      usedTools := false
      finalText := ""
      activeJson := some target
      target := some target }

/-! ## Events -/

/-- The pending entry that a frame answers. -/
def answered (p : Protocol) (frame : Json) : Option Pending :=
  match (frame.field "id").asU64 with
  | some id => p.pending.find? fun entry => entry.id = id
  | none => none

/-- The response accepts the request: it names the request's turn. -/
def accepts (request : SteeringRequest) (frame : Json) : Bool :=
  (frame.get "error").isNone &&
    ((frame.field "result").field "turnId").asStr = some request.target.turnId

/-- The text of a receipt for an answered request. -/
def acknowledgement (accepted : Bool) (frame : Json) : Message :=
  if accepted then { text := "Sent to the running agent" }
  else
    { text := "Codex did not confirm steering acceptance: "
      value := some ((frame.get "error").getD frame) }

/-- The first part of `Protocol::event`: a pending request is answered. -/
def acknowledge (entry : Pending) (frame : Json) (p : Protocol) : Protocol :=
  let accepted := accepts entry.request frame
  let p := { p with pending := p.pending.filter fun other => other.id ≠ entry.id }
  let p :=
    match p.coordinationPending with
    | some (pending, context) =>
      if pending = entry.id then
        { p with
          coordinationPending := none
          coordinationContext := if accepted then some context else p.coordinationContext }
      else p
    | none => p
  p.receipt entry.request.id { accepted, message := acknowledgement accepted frame }

/-- Items that are no tool call. -/
def isQuietItem (kind : String) : Bool :=
  ["agentMessage", "userMessage", "reasoning", "plan", "contextCompaction"].contains kind

/-- The last part of `Protocol::event`: a notification of the runner's thread. -/
def notification (frame : Json) (p : Protocol) : StepOutcome :=
  let params := frame.field "params"
  let method := (frame.field "method").asStr.getD ""
  if method = "turn/started" then
    match ((params.field "turn").field "id").asStr with
    | some id => .ok (p.startTurn id)
    | none => .error ({ text := "Missing turn ID" }, p)
  else if method = "turn/completed" then
    match ((params.field "turn").field "id").asStr with
    | none => .error ({ text := "Missing completed turn ID" }, p)
    | some id =>
      if p.activeTurn = some id then
        let p := { p with activeTurn := none, target := none, activeJson := none }
        if ((params.field "turn").field "status").asStr = some "completed" then
          .ok { p with completedTurn := some id }
        else
          .error ({ text := "Codex turn", value := some (params.field "turn") }, p)
      else .error ({ text := "Unexpected completed Codex turn" }, p)
  else if method = "item/started" ∨ method = "item/completed" then
    let item := params.field "item"
    let kind := (item.field "type").asStr.getD ""
    let p := if isQuietItem kind then p else { p with usedTools := true }
    match (item.field "text").asStr with
    | some text =>
      if method = "item/completed" ∧ kind = "agentMessage" then .ok { p with finalText := text }
      else .ok p
    | none => .ok p
  else .ok p

/-- `Protocol::event`. -/
def event (frame : Json) (p : Protocol) : StepOutcome :=
  match p.answered frame with
  | some entry => .ok (p.acknowledge entry frame)
  | none =>
    if (frame.get "method").isSome ∧ (frame.get "id").isSome then
      .error ({ text := "Codex requested unsupported interaction: "
                value := some (frame.field "method") },
        { p with sent := p.sent ++ [.refusal (frame.field "id")] })
    else if ((frame.field "params").field "threadId").asStr = some p.threadId then
      p.notification frame
    else .ok p

/-! ## The mailbox -/

/-- `Protocol::deliver`: the number of the call that carries the request. -/
def deliver (env : Environment) (request : SteeringRequest) (p : Protocol) :
    Except String (Nat × Protocol) := do
  if p.target = some request.target then
    if Text.trim request.text.toList ≠ [] ∧ request.text.utf8ByteSize ≤ maxMessageBytes then
      let store ← env.store
      let _ ← projectRoot store p.spec.projectId
      validateTarget store request.target
      .ok (p.send (.turnSteer p.threadId request))
    else .error "Steering text must contain 1–65536 bytes"
  else .error "The active run or turn changed; the message was not sent"

/-- The entry of the pending table for a delivered request. -/
def await (env : Environment) (request : SteeringRequest) (delivered : Nat × Protocol) :
    Protocol :=
  { delivered.2 with
    pending := delivered.2.pending ++ [{ id := delivered.1, request, start := env.now }] }

/-- One file of `Protocol::mailbox`. -/
def readRequest (env : Environment) (p : Protocol) (file : RequestFile) : Protocol :=
  if !isUuid file.id || p.replied file.id || p.awaits file.id then p
  else
    match file.content with
    | some request =>
      if request.id = file.id then
        match p.deliver env request with
        | .ok delivered => await env request delivered
        | .error message => p.receipt request.id { accepted := false, message := { text := message } }
      else
        p.receipt file.id
          { accepted := false
            message := { text := "Invalid steering request; nothing was sent" } }
    | none =>
      p.receipt file.id
        { accepted := false
          message := { text := "Invalid steering request; nothing was sent" } }

/-- A pending request is given up. -/
def giveUp (message : String) (p : Protocol) (entry : Pending) : Protocol :=
  { p with pending := p.pending.filter fun other => other.id ≠ entry.id }.receipt
    entry.request.id { accepted := false, message := { text := message } }

/-- One expired request of `Protocol::mailbox`. -/
def expire (p : Protocol) (entry : Pending) : Protocol :=
  let p :=
    match p.coordinationPending with
    | some (pending, _) => if pending = entry.id then { p with coordinationPending := none } else p
    | none => p
  p.giveUp ("Delivery is unconfirmed: Codex did not reply. Check the agent output before " ++
    "retrying") entry

/-- `Protocol::mailbox`. -/
def readMailbox (env : Environment) (p : Protocol) : Protocol :=
  let p := p.requests.foldl (readRequest env) p
  (p.pending.filter fun entry => rpcTimeout ≤ env.now - entry.start).foldl expire p

/-- The text of a coordination request. -/
def coordinationText (context : String) : String :=
  let text := "Coordination changed. Reassess before further edits; defer only incompatible " ++
    "work. Preserve this conversation and ownership.\n" ++ context
  if text.utf8ByteSize ≤ 60000 then text
  else
    -- The longest prefix that ends at a character and fits.
    let kept := (List.range (text.length + 1)).foldl (fun kept n =>
      if (String.ofList (text.toList.take n)).utf8ByteSize ≤ 60000 then n else kept) 0
    String.ofList (text.toList.take kept) ++
      "\nContext truncated; run clt context for the full board context."

/-- `Protocol::refresh_coordination`. -/
def refreshCoordination (env : Environment) (p : Protocol) : Protocol :=
  if env.now - p.coordinationChecked < 3000 ∨ p.coordinationPending.isSome then p
  else
    let p := { p with coordinationChecked := env.now }
    match p.target, (p.spec.params.field "cwd").asStr, env.coordination with
    | some target, some _, some context =>
      if p.coordinationContext = some context then p
      else
        let request : SteeringRequest :=
          { id := env.newId, target, text := coordinationText context }
        match p.deliver env request with
        | .ok delivered =>
          { await env request delivered with coordinationPending := some (delivered.1, context) }
        | .error _ => p
    | _, _, _ => p

/-- `Protocol::close_mailbox`. -/
def closeMailbox (env : Environment) (p : Protocol) : Protocol :=
  let p := { p with target := none, coordinationPending := none, activeJson := none }
  let p := p.pending.foldl (giveUp
    ("Delivery is unconfirmed: the Codex connection ended before acknowledging it. Check the " ++
      "agent output before retrying")) p
  p.readMailbox env

/-! ## The loops of `run` -/

/-- What `recv_timeout` gives. -/
inductive Received where
  | frame (frame : Json)
  | failed (error : Message)
  | timeout
  | disconnected

/-- A frame that `rpc` takes for its response. -/
def takesResponse (id : Nat) (frame : Json) : Bool := (frame.field "id").asU64 = some id

/-- The result that `rpc` reads from its response. -/
def rpcResult (method : String) (frame : Json) : Except Message Json :=
  match frame.get "error" with
  | some error => .error { text := "Codex " ++ method ++ ": ", value := some error }
  | none =>
    match frame.get "result" with
    | some result => .ok result
    | none => .error { text := "Missing Codex RPC result" }

/-- One wait of `Protocol::rpc`, and what follows its response. -/
def rpc (method : String) (id : Nat) (received : Received) (next : Json → Protocol → StepOutcome)
    (p : Protocol) : StepOutcome :=
  match received with
  | .frame frame =>
    if takesResponse id frame then
      match rpcResult method frame with
      | .ok result => next result p
      | .error message => .error (message, p)
    else p.event frame
  | .failed error => .error (error, p)
  | .timeout | .disconnected =>
    .error ({ text := "Codex " ++ method ++ " timed out or disconnected" }, p)

/-- The end of the turn loop's body, up to its wait. -/
def waitForEvent (env : Environment) (goalWait : Option Nat) (p : Protocol) : StepOutcome :=
  let goalWait := if p.activeTurn.isSome then none else goalWait
  if goalWait.any fun start => rpcTimeout ≤ env.now - start then
    .error ({ text := "Codex has an active goal but did not start its continuation; " ++
      "preserving the session for recovery" }, p)
  else .ok { p with phase := .running goalWait }

/-- The turn loop's body, up to its first wait. -/
def turnLoop (env : Environment) (goalWait : Option Nat) (p : Protocol) : StepOutcome :=
  let p := (p.refreshCoordination env).readMailbox env
  match p.completedTurn with
  | some completed =>
    let (id, p) := { p with completedTurn := none }.send (.goalGet p.threadId)
    .ok { p with phase := .goal id completed p.usedTools p.turnCount goalWait }
  | none => p.waitForEvent env goalWait

/-- The end of `run`. -/
def finish (p : Protocol) : Protocol :=
  { p with stdout := p.stdout ++ [p.finalText], phase := .returned (.ok ()) }

/-- The head of the loop that drains the pending table, up to its wait. -/
def drain (env : Environment) (completed : String) (p : Protocol) : Protocol :=
  if p.pending.isEmpty then p.finish
  else { p.readMailbox env with phase := .draining completed }

/-- What follows the answer to `thread/goal/get`. -/
def afterGoal (env : Environment) (completed : String) (usedTools : Bool) (turnCount : Nat)
    (goalWait : Option Nat) (goal : Json) (p : Protocol) : StepOutcome :=
  if p.activeTurn = none ∧ p.completedTurn = none then
    if ((goal.field "goal").field "status").asStr ≠ some "active" ∨
        (1 < turnCount ∧ usedTools = false) then
      .ok (p.drain env completed)
    else p.waitForEvent env (some env.now)
  else p.waitForEvent env goalWait

/-- What follows the answer to `initialize`. -/
def afterInitialize (_ : Json) (p : Protocol) : StepOutcome :=
  let p := { p with sent := p.sent ++ [Sent.initialized] }
  let (method, params) :=
    match p.spec.resume with
    | some session => ("thread/resume", p.spec.params.set "threadId" (.string session))
    | none => ("thread/start", p.spec.params)
  let (id, p) := p.send (.thread method params)
  .ok { p with phase := .thread id method }

/-- What follows the answer to `thread/start` or `thread/resume`. -/
def afterThread (response : Json) (p : Protocol) : StepOutcome :=
  let thread := response.field "thread"
  match (thread.field "id").asStr with
  | none => .error ({ text := "Missing Codex thread ID" }, p)
  | some threadId =>
    let p := { p with threadId, sessionId := (thread.field "sessionId").asStr.getD threadId }
    if isUuid p.sessionId then
      if p.spec.resume.all fun expected => p.sessionId = expected then
        let (id, p) := p.send (.turnStart p.threadId p.spec.prompt)
        .ok { p with phase := .turnStart id }
      else .error ({ text := "Codex resumed a different session" }, p)
    else .error ({ text := "Invalid Codex session ID" }, p)

/-- What follows the answer to `turn/start`. -/
def afterTurnStart (env : Environment) (result : Json) (p : Protocol) : StepOutcome :=
  if p.activeTurn = none ∧ p.completedTurn = none then
    match ((result.field "turn").field "id").asStr with
    | some id => (p.startTurn id).turnLoop env none
    | none => .error ({ text := "Missing Codex turn ID" }, p)
  else p.turnLoop env none

/-- The work between a wait and the next one. -/
def receive (env : Environment) (received : Received) (p : Protocol) : StepOutcome :=
  match p.phase with
  | .initializing id => p.rpc "initialize" id received afterInitialize
  | .thread id method => p.rpc method id received afterThread
  | .turnStart id => p.rpc "turn/start" id received (afterTurnStart env)
  | .goal id completed usedTools turnCount goalWait =>
    p.rpc "thread/goal/get" id received (afterGoal env completed usedTools turnCount goalWait)
  | .running goalWait =>
    match received with
    | .frame frame => p.event frame >>= turnLoop env goalWait
    | .failed error => .error (error, p)
    | .timeout => p.turnLoop env goalWait
    | .disconnected => .error ({ text := "Codex app-server disconnected before completion" }, p)
  | .draining completed =>
    match received with
    | .frame frame => p.event frame >>= fun p => .ok (p.drain env completed)
    | .failed error => .error (error, p)
    | .timeout => .ok (p.drain env completed)
    | .disconnected => .ok p.finish
  | .returned _ | .closed _ => .ok p

/-- What can happen to a runner: files arrive in its mailbox, a wait ends, and after `run` has
returned it closes its mailbox. -/
inductive Input where
  | arrive (requests : List RequestFile)
  | receive (received : Received) (env : Environment)
  | close (env : Environment)

/-- An error ends `run`. -/
def orReturned : StepOutcome → Protocol
  | .ok p => p
  | .error (message, p) => { p with phase := .returned (.error message) }

/-- A step of the runner. An arrival keeps the files that are there, in any order. -/
def step : Input → Protocol → Protocol
  | .arrive requests, p => if p.requests ⊆ requests then { p with requests } else p
  | .receive received env, p => orReturned (p.receive env received)
  | .close env, p =>
    match p.phase with
    | .returned result => { p.closeMailbox env with phase := .closed result }
    | _ => p

/-- `Protocol::new`, with the first call of `run`. -/
def start (spec : LaunchSpec) (now : Nat) : Protocol :=
  { spec
    nextId := 2
    target := none
    pending := []
    threadId := ""
    sessionId := ""
    activeTurn := none
    completedTurn := none
    turnCount := 0
    usedTools := false
    finalText := ""
    coordinationContext := none
    coordinationPending := none
    coordinationChecked := now
    sent := [.call 1 .initializeServer]
    requests := []
    replies := []
    activeJson := none
    stdout := []
    phase := .initializing 1 }

end Protocol

end Clt
