import Clt.Task.Content

/-!
# Task statuses
-/

namespace Clt

/-- `TaskStatus`. -/
inductive TaskStatus where
  | todo
  | doing
  | done
  | backlog
  deriving DecidableEq, Repr

/-- `TaskStatus::as_str`. -/
def TaskStatus.asStr : TaskStatus → String
  | todo => "todo"
  | doing => "doing"
  | done => "done"
  | backlog => "backlog"

/-- `TaskStatus::ALL`. -/
def TaskStatus.all : List TaskStatus := [.todo, .doing, .done, .backlog]

end Clt
