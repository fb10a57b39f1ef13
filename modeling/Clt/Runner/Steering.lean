import Clt.Registry.Schema
import Clt.Runner.Frame
import Clt.Task.Status
import Clt.Text.Basic

/-!
# The steering mailbox

The requests and receipts of a run's mailbox, and the check of a target against the registry
and the board (`session_control/steering.rs`).
-/

namespace Clt

/-- `SteeringTarget`. -/
structure SteeringTarget where
  projectId : Int
  sessionId : String
  threadId : String
  runToken : String
  childPid : Nat
  turnId : String
  mailbox : String
  deriving DecidableEq

/-- `SteeringRequest`. -/
structure SteeringRequest where
  id : String
  target : SteeringTarget
  text : String
  deriving DecidableEq

/-- `SteeringReply`. -/
structure SteeringReply where
  accepted : Bool
  message : Message

/-- A `{id}.request.json` of the mailbox, with what it parses as. -/
structure RequestFile where
  id : String
  content : Option SteeringRequest
  deriving DecidableEq

/-- `MAX_MESSAGE_BYTES`. -/
def maxMessageBytes : Nat := 64 * 1024

/-- `Path::with_extension`, of a path that ends in a file name. -/
def withExtension (path extension : String) : String :=
  let name := (path.toList.reverse.takeWhile (· != '/')).reverse
  let directory := path.toList.take (path.toList.length - name.length)
  let stem := (name.reverse.dropWhile (· != '.')).drop 1 |>.reverse
  String.ofList (directory ++ (if stem.isEmpty then name else stem)) ++ "." ++ extension

/-- `mailbox_for_log`. -/
def mailboxForLog (stderrPath : String) : String := withExtension stderrPath "steering"

def isHexDigit (c : Char) : Bool := c.isDigit || ('a' ≤ c && c ≤ 'f') || ('A' ≤ c && c ≤ 'F')

/-- The hyphenated form of a UUID. -/
def isHyphenated (t : Text) : Bool :=
  t.length = 36 && (t.zipIdx.all fun (c, i) =>
    if i = 8 ∨ i = 13 ∨ i = 18 ∨ i = 23 then c = '-' else isHexDigit c)

/-- `uuid::Uuid::parse_str` succeeds: the simple, hyphenated, URN and braced forms. -/
def isUuid (text : String) : Bool :=
  let t := text.toList
  (t.length = 32 && t.all isHexDigit) || isHyphenated t ||
    (t.take 9 = "urn:uuid:".toList && isHyphenated (t.drop 9)) ||
    (t.head? = some '{' && t.getLast? = some '}' && isHyphenated (t.drop 1).dropLast)

/-- A task that names a session, as `collect_codex_session_tasks_in_board` finds it. -/
structure SessionTask where
  status : TaskStatus
  stopped : Bool
  manual : Bool

/-- What a runner reads of the registry and of the board of a project's root. -/
structure SteeringStore where
  projects : List (Int × String)
  sessionControl : Int → String → Option SessionControl
  sessionTasks : String → String → List SessionTask

/-- `project_root`. -/
def projectRoot (store : SteeringStore) (projectId : Int) : Except String String :=
  match store.projects.find? fun project => project.1 = projectId with
  | some project => .ok project.2
  | none => .error "The selected project is no longer registered"

/-- `validate_target`. -/
def validateTarget (store : SteeringStore) (target : SteeringTarget) : Except String Unit :=
  match store.sessionControl target.projectId target.sessionId with
  | none => .error "The selected Codex session has ended"
  | some control =>
    if control.state = .running ∧ control.childPid = some target.childPid ∧
        control.runToken = some target.runToken ∧ control.interactiveHolder = none ∧
        control.interactiveLaunchToken = none ∧
        control.stderrPath.map mailboxForLog = some target.mailbox then
      match projectRoot store target.projectId with
      | .error message => .error message
      | .ok root =>
        match store.sessionTasks root target.sessionId with
        | [task] =>
          if task.status = .doing ∧ task.stopped = false ∧ task.manual = false then .ok ()
          else .error "The selected session no longer belongs to one running Doing task"
        | _ => .error "The selected session no longer belongs to one running Doing task"
    else .error "The selected Codex run stopped or changed; the message was not sent"

/-- `request_message`, where the mailbox's `active.json` holds `active` and the id that is
drawn is `id`: the request that it publishes. -/
def requestMessage (store : Except String SteeringStore) (active : Option SteeringTarget)
    (target : SteeringTarget) (text id : String) : Except String SteeringRequest :=
  if Text.trim text.toList = [] then .error "Steering text cannot be empty"
  else if maxMessageBytes < text.utf8ByteSize then .error "Steering text exceeds 64 KiB"
  else do
    let store ← store
    let _ ← projectRoot store target.projectId
    validateTarget store target
    match active with
    | none => .error "The running agent is no longer accepting steering"
    | some current =>
      if current = target then .ok { id, target, text }
      else .error "The active turn changed; reopen the steering prompt"

end Clt
