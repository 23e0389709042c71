import MxAgent.Foundations.DepthFirst
import MxAgent.Protocol.Schema

/-! The dependency graph of the tasks of a room: which tasks depend on no task that is there,
which dependencies run in a circle, and the text in which the graph is shown, a tree for each
root and a line for each cycle. -/
namespace MxAgent.Daemon

open Protocol Std

structure GraphNode where
  taskId : String
  state : String
  dependsOn : List String
  deriving DecidableEq

/-- `GraphEdge`: `toTask` depends on `fromTask`. -/
structure GraphEdge where
  fromTask : String
  toTask : String
  deriving DecidableEq

/-- The derived order of edges: by the first field, then by the second. -/
def GraphEdge.Le (a b : GraphEdge) : Prop :=
  a.fromTask < b.fromTask ∨ a.fromTask = b.fromTask ∧ a.toTask ≤ b.toTask

instance : DecidableRel GraphEdge.Le := fun _ _ => inferInstanceAs (Decidable (_ ∨ _ ∧ _))

/-- `TaskGraph`, without the diagnostics that are attached later. -/
structure TaskGraph where
  nodes : List GraphNode
  edges : List GraphEdge
  roots : List String
  cycles : List (List String)
  deriving DecidableEq

def presentIds (tasks : List TaskState) : List String := tasks.map TaskState.taskId

def presentDeps (tasks : List TaskState) (task : TaskState) : List String :=
  task.dependsOn.filter fun dep => (presentIds tasks).contains dep

/-- The adjacency of `detect_cycles`, for tasks with one id together. -/
def dependencyMap (tasks : List TaskState) : ExtTreeMap String (List String) :=
  tasks.foldl (fun deps task =>
    deps.alter task.taskId fun known => some (known.getD [] ++ presentDeps tasks task)) ∅

/-- The graph that is searched: from each task to its dependencies. -/
def dependencyGraph (tasks : List TaskState) : FirstPath.OrderedGraph String where
  starts := (dependencyMap tasks).keys
  next id := ((dependencyMap tasks)[id]?).getD []

def detectCycles (fuel : Nat) (tasks : List TaskState) : Option (List (List String)) :=
  (DepthFirst.search (dependencyGraph tasks) fuel).map DepthFirst.Search.cycles

def fromTasks (fuel : Nat) (tasks : List TaskState) : Option TaskGraph := do
  let nodes := (tasks.map fun task => ⟨task.taskId, task.state, task.dependsOn⟩).insertionSort
    fun a b : GraphNode => a.taskId ≤ b.taskId
  let edges := tasks.flatMap fun task =>
    (presentDeps tasks task).map fun dep => ⟨dep, task.taskId⟩
  let roots := (tasks.filter fun task => (presentDeps tasks task).isEmpty).map TaskState.taskId
  let cycles ← detectCycles fuel tasks
  some ⟨nodes, edges.dedup.insertionSort GraphEdge.Le, (roots.insertionSort (· ≤ ·)).dedup, cycles⟩

section Rendering

inductive Line where
  | task (depth : Nat) (id state : String)
  | cycle (ids : List String)
  deriving DecidableEq

def Line.text : Line → String
  | .task 0 id state => id ++ "  " ++ state ++ "\n"
  | .task (depth + 1) id state =>
    String.ofList (.replicate (4 * (depth + 1) - 2) ' ') ++ "└─ " ++ id ++ "  " ++ state ++ "\n"
  | .cycle ids => "cycle detected: " ++ " -> ".intercalate ids ++ "\n"

/-- The state of each task. Of several nodes with one id the last counts. -/
def TaskGraph.states (graph : TaskGraph) : ExtTreeMap String String :=
  .ofList (graph.nodes.map fun node => (node.taskId, node.state))

def TaskGraph.children (graph : TaskGraph) (id : String) : List String :=
  (graph.edges.filter fun edge => edge.fromTask = id).map GraphEdge.toTask

/-- `render_node`. A task that is on the path already is not expanded again. -/
def renderNode (graph : TaskGraph) : Nat → List String → Nat → String → Option (List Line)
  | 0, _, _, _ => none
  | fuel + 1, path, depth, id =>
    let line := Line.task depth id (graph.states.getD id "")
    if path.contains id then some [line]
    else do
      let subtrees ← (graph.children id).mapM (renderNode graph fuel (id :: path) (depth + 1))
      some (line :: subtrees.flatten)

def renderLines (fuel : Nat) (graph : TaskGraph) : Option (List Line) := do
  let trees ← graph.roots.mapM (renderNode graph fuel [] 0)
  some (trees.flatten ++ graph.cycles.map .cycle)

def renderText (fuel : Nat) (graph : TaskGraph) : Option String :=
  (renderLines fuel graph).map fun lines => String.join (lines.map Line.text)

end Rendering

end MxAgent.Daemon
