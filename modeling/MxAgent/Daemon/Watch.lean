import Mathlib.Data.List.Sort
import MxAgent.Foundations.KeyedDiff
import MxAgent.Protocol.Equality

/-! Changes between two snapshots of the tasks of a room, as a watcher reports them. -/
namespace MxAgent.Daemon

open Protocol Std KeyedDiff

/-- A change between two task snapshots: `Added`, `Removed` or `Updated`. Its `task_id` is that of
the task, the current one of two. -/
abbrev TaskChange := Change TaskState

/-- A snapshot as a map. Of several entries with one id the last stays. -/
def tasksById (tasks : List TaskState) : ExtTreeMap String TaskState :=
  .ofList (tasks.map fun task => (task.taskId, task))

def addedOrUpdated (prevById : ExtTreeMap String TaskState) :
    String × TaskState → Option TaskChange
  | (id, curr) =>
    match prevById[id]? with
    | none => some (.added curr)
    | some prev =>
      if prev.unsignedZero = curr.unsignedZero then none else some (.updated prev curr)

def removed (currById : ExtTreeMap String TaskState) : String × TaskState → Option TaskChange
  | (id, prev) => if id ∈ currById then none else some (.removed prev)

def diffTasks (previous current : List TaskState) : List TaskChange :=
  let prevById := tasksById previous
  let currById := tasksById current
  let changes := currById.toList.filterMap (addedOrUpdated prevById) ++
    prevById.toList.filterMap (removed currById)
  changes.insertionSort fun a b => a.keyOf TaskState.taskId ≤ b.keyOf TaskState.taskId

end MxAgent.Daemon
