import Clt.Interleave.Program

/-!
# Control of an orphaned run

A run that lost its supervisor is controlled through the processes of its group
(`OrphanProcess`). Nothing that the kernel says holds for longer than a moment: a process may
exit, and its number and the number of its group may be given to others. Each call of the kernel
sees the moment at which it is made.
-/

namespace Clt

open Interleave

/-- The bytes of an environment, or of a string in it. -/
abbrev Bytes : Type := List UInt8

/-- `str::as_bytes`. -/
def asBytes (s : String) : Bytes := s.toUTF8.data.toList

/-! ## The kernel -/

/-- A live process: its generation is the identity that is never given to another. -/
structure KernelProcess where
  generation : Nat
  group : Int
  environment : Bytes

/-- What the kernel would answer at a moment. Any call may fail, a capture may come to nothing,
and the listing of a group may miss its members or name others. -/
structure Kernel where
  process? : Int → Option KernelProcess
  members : Int → Except String (List Int)
  groupExists : Int → Except String Bool
  refuses : Int → Option String
  escapes : Int → Bool

/-- `native::Process`: a process number, with the generation and group that it had. -/
structure NativeProcess where
  pid : Int
  processGroup : Int
  generation : Nat
  deriving DecidableEq, Repr

namespace Kernel

/-- The process is that generation, in that group. -/
def has (k : Kernel) (process : NativeProcess) : Bool :=
  (k.process? process.pid).any fun found =>
    found.generation == process.generation && found.group == process.processGroup

theorem generation_of_has {k : Kernel} {process : NativeProcess} (h : k.has process = true) :
    (k.process? process.pid).map KernelProcess.generation = some process.generation := by
  obtain ⟨found, hfound, hsame⟩ := (Option.any_eq_true _ _).mp h
  rw [hfound, Option.map_some, eq_of_beq (Bool.and_eq_true_iff.mp hsame).1]

/-- The answer, unless the kernel refuses it. -/
def answers {α : Type} (k : Kernel) (pid : Int) (answer : Except String α) : Except String α :=
  match k.refuses pid with
  | some error => .error error
  | none => answer

/-- `native::Process::capture`. -/
def capture (k : Kernel) (pid : Int) : Except String (Option NativeProcess) :=
  k.answers pid (.ok (if k.escapes pid then none else
    (k.process? pid).map fun found => ⟨pid, found.group, found.generation⟩))

/-- `native::Process::is_current`. -/
def isCurrent (k : Kernel) (process : NativeProcess) : Except String Bool :=
  k.answers process.pid (.ok (k.has process))

/-- `native::Process::environment`: of whichever process has the number now. -/
def environment (k : Kernel) (process : NativeProcess) : Except String Bytes :=
  k.answers process.pid
    (match k.process? process.pid with
    | some found => .ok found.environment
    | none => .error "Cannot inspect orphan run environment")

/-- A signal to the process is delivered: it is allowed, and the generation that was captured
has the number. -/
def reaches (k : Kernel) (process : NativeProcess) : Bool :=
  (k.refuses process.pid).isNone &&
    (k.process? process.pid).any fun found => found.generation == process.generation

end Kernel

/-! ## The run -/

/-- The run that an `OrphanProcess` controls. -/
structure OrphanRun where
  processGroup : Int
  projectId : Int
  runToken : String

/-- What the program did or saw. -/
inductive OrphanEvent where
  | inspected (process : NativeProcess) (environment : Bytes)
  | signalled (moment : Nat) (process : NativeProcess)
  deriving DecidableEq

/-- The kernel at a moment, and the members that the `OrphanProcess` keeps. -/
structure Machine where
  moment : Nat
  kernel : Kernel
  members : List NativeProcess

/-- A program that controls an orphan. -/
abbrev Orphan (α : Type) : Type := Program Machine OrphanEvent String α

namespace Orphan

open Program

/-- One call of the kernel. -/
def call {α : Type} (f : Kernel → Except String α) : Orphan α := ask fun w => f w.kernel

/-- A call whose error is looked at later. -/
def attempt {α : Type} (f : Kernel → Except String α) : Orphan (Except String α) :=
  call fun k => .ok (f k)

def note (event : OrphanEvent) : Orphan Unit := step fun w => (.ok (), w, [event])

def keptMembers : Orphan (List NativeProcess) := ask fun w => .ok w.members

def keepMembers (members : List NativeProcess) : Orphan Unit :=
  step fun w => (.ok (), { w with members := members }, [])

/-- `native::Process::signal`: only the captured generation gets it. -/
def deliver (process : NativeProcess) : Orphan Unit := step fun w =>
  (w.kernel.answers process.pid (.ok ()), w,
    if w.kernel.reaches process then [.signalled w.moment process] else [])

/-! ## The context of a process -/

/-- The fields of an environment. -/
def fields (environment : Bytes) : List Bytes := environment.splitOn 0

def projectPrefix : Bytes := asBytes "CLT_AGENT_PROJECT_ID="

def tokenPrefix : Bytes := asBytes "CLT_AGENT_RUN_TOKEN="

/-- `has_context`. -/
def hasContext (environment : Bytes) : Bool :=
  (fields environment).any fun field =>
    projectPrefix.isPrefixOf field || tokenPrefix.isPrefixOf field

/-- The test of `verify_context`: each variable stands once, with the value of the run. -/
def carriesContext (run : OrphanRun) (environment : Bytes) : Bool :=
  (fields environment).filter projectPrefix.isPrefixOf ==
      [asBytes ("CLT_AGENT_PROJECT_ID=" ++ toString run.projectId)] &&
    (fields environment).filter tokenPrefix.isPrefixOf ==
      [asBytes ("CLT_AGENT_RUN_TOKEN=" ++ run.runToken)]

/-- `verify_context`, with the context of its caller. -/
def verifyContext (run : OrphanRun) (environment : Bytes) (context : String) :
    Except String Unit :=
  if carriesContext run environment then .ok ()
  else .error (context ++ ": Process does not carry the exact automated project and run context")

/-! ## Members of the group -/

/-- What both loops over the members of the group begin with: the process, captured in the group
and current after its environment was read; `none` goes on with the next member. -/
def captureMember (run : OrphanRun) (pid : Int) : Orphan (Option (NativeProcess × Bytes)) := do
  match ← call (·.capture pid) with
  | none => pure none
  | some process =>
    if process.processGroup ≠ run.processGroup then pure none
    else do
      let environment ← attempt (·.environment process)
      if ← call (·.isCurrent process) then do
        let environment ← ofExcept environment
        note (.inspected process environment)
        pure (some (process, environment))
      else pure none

/-- The loop of `verified_anchor`. -/
def firstAnchor (run : OrphanRun) : List Int → Orphan (Option NativeProcess)
  | [] => pure none
  | pid :: rest => do
    match ← captureMember run pid with
    | none => firstAnchor run rest
    | some (process, environment) =>
      if hasContext environment then do
        ofExcept (verifyContext run environment ("Cannot adopt orphan process " ++ toString pid))
        -- `check_signal_permission`
        call fun k => k.answers process.pid (.ok ())
        if ← call (·.isCurrent process) then pure (some process) else firstAnchor run rest
      else firstAnchor run rest

/-- `verified_anchor`. -/
def verifiedAnchor (run : OrphanRun) : Orphan (Option NativeProcess) := do
  let pids ← call (·.members run.processGroup)
  firstAnchor run pids

/-- The loop of `refresh_members` over the members of the group. -/
def verifyMembers (run : OrphanRun) : List Int → Orphan (List NativeProcess)
  | [] => pure []
  | pid :: rest => do
    match ← captureMember run pid with
    | none => verifyMembers run rest
    | some (process, environment) => do
      ofExcept (if hasContext environment then
        verifyContext run environment ("Cannot control unverified member " ++ toString pid ++
          " of orphan group " ++ toString run.processGroup)
      else .ok ())
      let verified ← verifyMembers run rest
      pure (process :: verified)

/-- The loop of `refresh_members` over the anchors; `none` when none of them holds. -/
def tryAnchors (run : OrphanRun) : List NativeProcess → Orphan (Option (List NativeProcess))
  | [] => pure none
  | anchor :: anchors => do
    if ← call (·.isCurrent anchor) then do
      let pids ← call (·.members run.processGroup)
      let verified ← verifyMembers run pids
      if ← call (·.isCurrent anchor) then pure (some verified) else tryAnchors run anchors
    else tryAnchors run anchors

/-- The first attempt of `refresh_members`, or the second. -/
def attemptRefresh (run : OrphanRun) : Orphan Bool := do
  let members ← keptMembers
  match ← tryAnchors run members with
  | some verified => do
    keepMembers verified
    pure true
  | none => pure false

/-- `OrphanProcess::refresh_members`. -/
def refreshMembers (run : OrphanRun) : Orphan Unit := do
  let unanchored : Orphan Unit :=
    fail ("No verified live process anchors orphan group " ++ toString run.processGroup)
  if ← attemptRefresh run then pure ()
  else do
    match ← verifiedAnchor run with
    | none => unanchored
    | some anchor => do
      keepMembers [anchor]
      if ← attemptRefresh run then pure () else unanchored

/-! ## The calls -/

/-- `OrphanProcess::is_running`. -/
def isRunning (run : OrphanRun) : Orphan Bool := call (·.groupExists run.processGroup)

/-- The loop of `OrphanProcess::signal`. -/
def signalMembers : List NativeProcess → Orphan Unit
  | [] => pure ()
  | process :: rest => do
    if ← call (·.isCurrent process) then do
      deliver process
      signalMembers rest
    else signalMembers rest

/-- `OrphanProcess::signal`: one sweep of `stop` or `kill`. -/
def signal (run : OrphanRun) : Orphan Unit := do
  if ← isRunning run then do
    refreshMembers run
    let members ← keptMembers
    signalMembers members
  else pure ()

/-- `OrphanProcess::attach`; `false` is `None`. -/
def attach (run : OrphanRun) : Orphan Bool := do
  if 2147483647 < run.processGroup then
    fail "Invalid orphan process PID: out of range integral type conversion attempted"
  else if 1 < run.processGroup ∧ 0 < run.projectId ∧ run.runToken ≠ "" then do
    match ← verifiedAnchor run with
    | none => do
      if ← isRunning run then
        fail ("No live member of orphan group " ++ toString run.processGroup ++
          " proves the exact automated run context")
      else pure false
    | some anchor => do
      keepMembers [anchor]
      refreshMembers run
      pure true
  else fail "Invalid orphan run identity"

end Orphan

/-- What a caller does with an orphan that it attached. -/
inductive OrphanCall where
  | isRunning
  | stop
  | kill

/-- One call; its error leaves the `OrphanProcess` as it is by then. -/
def OrphanCall.program (run : OrphanRun) : OrphanCall → Orphan Unit
  | isRunning => Orphan.isRunning run >>= fun _ => pure ()
  | stop => Orphan.signal run
  | kill => Orphan.signal run

end Clt
