import Clt.Task.Status

/-!
# The coordination snapshot

The tasks of a board with their coordination metadata, as `coordination.rs` loads them, the
search over `depends_on` that admits a task, and the update that `clt coordinate` makes. The
metadata that an update writes into a task is the one that the next snapshot reads from it.
-/

namespace Clt

/-- `Scope`. -/
structure Scope where
  intent : String
  files : List String
  modules : List String
  interfaces : List String
  resources : List String
  behavior : List (String × String)
  deriving DecidableEq

/-- `Review`. -/
structure Review where
  other : String
  evidence : String
  compatible : Bool
  reason : String
  deriving DecidableEq

/-- `Metadata`. -/
structure Metadata where
  id : String
  dependsOn : List String
  scope : Scope
  reviews : List Review
  deriving DecidableEq

/-- `Task`. -/
structure Task where
  board : String
  status : TaskStatus
  index : Nat
  content : Text
  metadata : Metadata
  error : Option String
  completionWait : Option String
  deriving DecidableEq

/-- `same_task`. -/
def sameTask (a b : Task) : Bool :=
  a.board == b.board && a.status == b.status && a.index == b.index

/-- `Snapshot`. -/
structure Snapshot where
  tasks : List Task
  changedFiles : List String

/-- `anyhow::ensure!`. -/
def ensure (c : Prop) [Decidable c] (message : String) : Except String Unit :=
  if c then .ok () else .error message

/-- Why a search over dependencies ends without a result. -/
inductive VisitError where
  | outOfFuel
  | message (text : String)

/-- `Update`. -/
structure Update where
  dependsOn : List String
  removeDependency : List String
  scope : Option Scope
  review : Option (String × Bool × String)

namespace Snapshot

/-- The tasks that an id names; the empty id names none. -/
def named (s : Snapshot) (id : String) : List Task :=
  s.tasks.filter fun t => t.metadata.id == id && id != ""

/-- `Snapshot::referenced`. -/
def referenced (s : Snapshot) (id : String) : Except String Task :=
  match s.named id with
  | [] => .error ("Missing prerequisite " ++ id ++ "; restore the task or remove this " ++
      "dependency with clt coordinate --remove-dependency")
  | [task] => .ok task
  | _ => .error ("Duplicate task ID " ++ id ++ "; repair the duplicate before using this " ++
      "reference")

/-- `Snapshot::visit`, over the ids of the path that leads to the task and the ids that are
done. The path is an argument: a call that returns has popped what it pushed. -/
def visit (s : Snapshot) : Nat → Task → List String → List String →
    Except VisitError (List String)
  | 0, _, _, _ => .error .outOfFuel
  | fuel + 1, task, path, done =>
    if task.metadata.id = "" then
      task.metadata.dependsOn.foldlM (fun done id => do
        let dependency ← (s.referenced id).mapError .message
        visit s fuel dependency path done) done
    else do
      let _ ← (s.referenced task.metadata.id).mapError .message
      if path.contains task.metadata.id then
        .error (.message ("Dependency cycle: " ++ " -> ".intercalate path ++ " -> " ++
          task.metadata.id))
      else if done.contains task.metadata.id then .ok done
      else do
        let done ← task.metadata.dependsOn.foldlM (fun done id => do
          let dependency ← (s.referenced id).mapError .message
          visit s fuel dependency (path ++ [task.metadata.id]) done) done
        .ok (task.metadata.id :: done)

/-- More calls than a search over the snapshot can nest. -/
def searchDepth (s : Snapshot) : Nat := s.tasks.length + 2

/-- `Snapshot::selected`. -/
def selected (s : Snapshot) (board : String) (status : TaskStatus) (index : Nat) :
    Except String Task :=
  if index = 0 then .error "Task indexes start at 1"
  else
    match s.tasks.find? fun t => t.board == board && t.status == status && t.index == index with
    | some task => .ok task
    | none => .error "Task changed; list tasks and select its current index"

/-- The tasks with the metadata of the first one that is `selected` replaced. -/
def setMetadata (selected : Task) (metadata : Metadata) : List Task → List Task
  | [] => []
  | t :: ts =>
    if sameTask t selected then { t with metadata := metadata } :: ts
    else t :: setMetadata selected metadata ts

end Snapshot

/-- `metadata::read` of a loaded task: the snapshot keeps what it read, or the error. -/
def Task.readMetadata (t : Task) : Except String Metadata :=
  match t.error with
  | some error => .error error
  | none => .ok t.metadata

/-- The dependencies that an update asks for, after those that are there. -/
def addDependencies (s : Snapshot) (metadata : Metadata) (ids : List String) :
    Except String Metadata :=
  ids.foldlM (fun metadata id => do
    ensure (id ≠ metadata.id) "A task cannot depend on itself"
    let _ ← s.referenced id
    if metadata.dependsOn.contains id then .ok metadata
    else .ok { metadata with dependsOn := metadata.dependsOn ++ [id] }) metadata

/-- The metadata with the assessment that an update records. -/
def recordReview (evidence : Task → Task → String) (s : Snapshot) (updated : Task)
    (metadata : Metadata) : Option (String × Bool × String) → Except String Metadata
  | none => .ok metadata
  | some (other, compatible, reason) => do
    ensure (Text.trim reason.toList ≠ []) "An assessment needs concrete evidence and a reason"
    let peer ← s.referenced other
    ensure (sameTask updated peer = false) "A task cannot assess itself"
    .ok { metadata with
      reviews := metadata.reviews.filter (fun review => review.other != other) ++
        [{ other := other, compatible := compatible, reason := reason,
           evidence := evidence updated peer }] }

/-- One call of `update`: the task it selects, its request, the id that it draws for a task
without one, and the verdict of `ensure_managed_git_task_mutation_allowed`. -/
structure Coordinate where
  board : String
  status : TaskStatus
  index : Nat
  update : Update
  newId : String
  allowed : Except String Unit

/-- `update`: the snapshot that is loaded after it. `evidence` stamps an assessment. -/
def coordinate (evidence : Task → Task → String) (c : Coordinate) (s : Snapshot) :
    Except String Snapshot := do
  let selected ← s.selected c.board c.status c.index
  ensure (selected.completionWait = none) "Provisional tasks cannot change coordination metadata"
  ensure (c.status ≠ .done ∨ (c.update.dependsOn = [] ∧ c.update.removeDependency = [] ∧
      c.update.scope = none ∧ c.update.review = none))
    "Completed tasks can only receive a stable ID"
  let metadata ← selected.readMetadata
  let metadata := if metadata.id = "" then { metadata with id := c.newId } else metadata
  let metadata ← addDependencies s metadata c.update.dependsOn
  let metadata := { metadata with
    dependsOn := metadata.dependsOn.filter fun id => !c.update.removeDependency.contains id
    scope := c.update.scope.getD metadata.scope }
  let updated := { selected with metadata := metadata }
  let edited : Snapshot := { s with tasks := Snapshot.setMetadata selected metadata s.tasks }
  match edited.visit edited.searchDepth updated [] [] with
  | .error .outOfFuel => .error ""
  | .error (.message text) => .error text
  | .ok _ => do
    let metadata ← recordReview evidence edited updated metadata c.update.review
    c.allowed
    .ok { s with tasks := Snapshot.setMetadata selected metadata s.tasks }

end Clt
