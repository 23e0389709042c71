import MxAgent.Foundations.Fallible
import MxAgent.Foundations.GuardedWalk
import MxAgent.System.TaskCycles

/-! Which tasks the rendered graph shows. The trees show the tasks that depend, at any
remove, on a root; the lines after them show the tasks of the reported cycles. A task that
depends on a cycle only and is not on a reported one is shown nowhere. -/
namespace MxAgent.System.TaskRendering

open Protocol Daemon System.TaskCycles FirstPath DepthFirst GuardedWalk

def taskLine (graph : TaskGraph) (depth : Nat) (id : String) : Line :=
  .task depth id (graph.states.getD id "")

/-- The task has a line in a tree, or in a cycle's line. -/
def Shown (lines : List Line) (id : String) : Prop :=
  (∃ depth state, Line.task depth id state ∈ lines) ∨ ∃ ids, Line.cycle ids ∈ lines ∧ id ∈ ids

/-- Some task event that depends on no present task has the task's id or one it depends on. -/
def UnderRoot (tasks : List TaskState) (id : String) : Prop :=
  ∃ root ∈ tasks, (∀ dep ∈ root.dependsOn, dep ∉ presentIds tasks) ∧
    Relation.ReflTransGen (DependsOn tasks) id root.taskId

structure Drawn (graph : TaskGraph) (path : List String) (id : String) (lines : List Line) :
    Prop where
  sound : ∀ line ∈ lines,
    ∃ depth v, line = taskLine graph depth v ∧ Visits graph.children path id v
  complete : ∀ v, Visits graph.children path id v → ∃ depth, taskLine graph depth v ∈ lines

section Tree

variable {graph : TaskGraph} {ids path : List String} {depth : Nat} {id : String}

/-- A task that is on the path has its line, and nothing below it. -/
theorem exists_drawn_of_mem (h : id ∈ path) (room : Nat) :
    ∃ lines, Drawn graph path id lines ∧
      ∀ fuel ≥ room + 1, renderNode graph fuel path depth id = some lines := by
  refine ⟨[taskLine graph depth id], ⟨fun line hLine => ?_, fun v hVisits => ?_⟩,
    fun fuel hFuel => ?_⟩
  · obtain rfl := List.mem_singleton.mp hLine
    exact ⟨depth, id, rfl, .here⟩
  · obtain rfl := (visits_of_mem h).mp hVisits
    exact ⟨depth, List.mem_singleton_self _⟩
  · obtain ⟨fuel, rfl⟩ := Nat.exists_eq_succ_of_ne_zero (Nat.ne_zero_of_lt hFuel)
    rw [renderNode, if_pos (List.contains_iff_mem.mpr h)]
    rfl

theorem renderNode_of_notMem (h : id ∉ path) {fuel : Nat} {subtrees : List (List Line)}
    (hSubtrees : (graph.children id).mapM (renderNode graph fuel (id :: path) (depth + 1)) =
      some subtrees) :
    renderNode graph (fuel + 1) path depth id =
      some (taskLine graph depth id :: subtrees.flatten) := by
  rw [renderNode, if_neg (mt List.contains_iff_mem.mp h), hSubtrees]
  rfl

theorem drawn_of_notMem (h : id ∉ path) {subtrees : List (List Line)}
    (hSound : ∀ lines ∈ subtrees, ∃ u ∈ graph.children id, Drawn graph (id :: path) u lines)
    (hComplete : ∀ u ∈ graph.children id, ∃ lines ∈ subtrees, Drawn graph (id :: path) u lines) :
    Drawn graph path id (taskLine graph depth id :: subtrees.flatten) where
  sound line hLine := by
    rcases List.mem_cons.mp hLine with rfl | hBelow
    · exact ⟨depth, id, rfl, .here⟩
    · obtain ⟨lines, hLines, hIn⟩ := List.mem_flatten.mp hBelow
      obtain ⟨u, hChild, hDrawn⟩ := hSound lines hLines
      obtain ⟨level, v, hEq, hVisits⟩ := hDrawn.sound line hIn
      exact ⟨level, v, hEq, .child h hChild hVisits⟩
  complete v hVisits := by
    rcases (visits_of_notMem h).mp hVisits with rfl | ⟨u, hChild, hRest⟩
    · exact ⟨depth, List.mem_cons_self⟩
    · obtain ⟨lines, hLines, hDrawn⟩ := hComplete u hChild
      obtain ⟨level, hIn⟩ := hDrawn.complete v hRest
      exact ⟨level, List.mem_cons_of_mem _ (List.mem_flatten.mpr ⟨lines, hLines, hIn⟩)⟩

/-- The path holds each task once, which bounds the tree. -/
theorem renderNode_drawn (hChildren : ∀ a, ∀ b ∈ graph.children a, b ∈ ids) {room : Nat}
    (hNodup : path.Nodup) (hPath : path ⊆ ids) (hId : id ∈ ids)
    (hRoom : ids.length ≤ path.length + room) :
    ∃ lines, Drawn graph path id lines ∧
      ∀ fuel ≥ room + 1, renderNode graph fuel path depth id = some lines := by
  induction room generalizing path depth id with
  | zero =>
    have hFull : path.Perm ids := (hNodup.subperm hPath).perm_of_length_le hRoom
    have hOn : id ∈ path := hFull.mem_iff.mpr hId
    exact exists_drawn_of_mem hOn 0
  | succ room ih =>
    by_cases hOn : id ∈ path
    · exact exists_drawn_of_mem hOn (room + 1)
    · obtain ⟨subtrees, hMap, hSound, hComplete⟩ := Fallible.exists_mapM fun u hU =>
        @ih (id :: path) (depth + 1) u (List.nodup_cons.mpr ⟨hOn, hNodup⟩)
          (List.cons_subset.mpr ⟨hId, hPath⟩) (hChildren id u hU)
          (by rw [List.length_cons]; omega)
      refine ⟨taskLine graph depth id :: subtrees.flatten,
        drawn_of_notMem hOn hSound hComplete, fun fuel hFuel => ?_⟩
      obtain ⟨fuel, rfl⟩ := Nat.exists_eq_succ_of_ne_zero (Nat.ne_zero_of_lt hFuel)
      exact renderNode_of_notMem hOn (hMap fuel (Nat.le_of_succ_le_succ hFuel))

end Tree

section Results

variable {tasks : List TaskState} {graph : TaskGraph}

theorem mem_children (hBuilt : Built tasks graph) {a b : String} :
    b ∈ graph.children a ↔ DependsOn tasks b a := by
  rw [← hBuilt.edges, TaskGraph.children]
  constructor
  · intro h
    obtain ⟨⟨source, target⟩, hEdge, rfl⟩ := List.mem_map.mp h
    obtain ⟨hMem, hFrom⟩ := List.mem_filter.mp hEdge
    obtain rfl : source = a := of_decide_eq_true hFrom
    exact hMem
  · intro h
    exact List.mem_map.mpr ⟨⟨a, b⟩, List.mem_filter.mpr ⟨h, decide_eq_true rfl⟩, rfl⟩

/-- What is visited from a root are the tasks that depend on it. -/
theorem visits_iff (hBuilt : Built tasks graph) {root id : String} :
    Visits graph.children [] root id ↔ Relation.ReflTransGen (DependsOn tasks) id root := by
  have hSwap : (fun a b => b ∈ graph.children a) = Function.swap (DependsOn tasks) := by
    funext a b
    exact propext (mem_children hBuilt)
  rw [visits_iff_reachable, hSwap, Relation.reflTransGen_swap]

theorem underRoot_iff (hBuilt : Built tasks graph) {id : String} :
    UnderRoot tasks id ↔ ∃ root ∈ graph.roots, Visits graph.children [] root id := by
  constructor
  · rintro ⟨root, hTask, hFree, hUnder⟩
    exact ⟨root.taskId, (hBuilt.roots _).mpr ⟨root, hTask, rfl, hFree⟩,
      (visits_iff hBuilt).mpr hUnder⟩
  · rintro ⟨_, hRoot, hVisits⟩
    obtain ⟨root, hTask, rfl, hFree⟩ := (hBuilt.roots _).mp hRoot
    exact ⟨root, hTask, hFree, (visits_iff hBuilt).mp hVisits⟩

/-- The trees of the roots show the tasks under them. -/
theorem exists_trees (hBuilt : Built tasks graph) : ∃ trees,
    (∀ fuel ≥ tasks.length + 1, graph.roots.mapM (renderNode graph fuel [] 0) = some trees) ∧
    (∀ line ∈ trees.flatten, ∃ depth id, line = taskLine graph depth id ∧ UnderRoot tasks id) ∧
    ∀ id, UnderRoot tasks id → ∃ depth, taskLine graph depth id ∈ trees.flatten := by
  have hChildren : ∀ a, ∀ b ∈ graph.children a, b ∈ presentIds tasks := by
    intro a b hB
    exact ((mem_children hBuilt).mp hB).present.1
  have hRoots : ∀ root ∈ graph.roots, root ∈ presentIds tasks := by
    intro root hRoot
    obtain ⟨task, hTask, rfl, -⟩ := (hBuilt.roots root).mp hRoot
    exact List.mem_map_of_mem hTask
  obtain ⟨trees, hMap, hSound, hComplete⟩ := Fallible.exists_mapM fun root hRoot =>
    @renderNode_drawn graph (presentIds tasks) [] 0 root hChildren tasks.length .nil
      (List.nil_subset _) (hRoots root hRoot) (by simp [presentIds])
  refine ⟨trees, hMap, fun line hLine => ?_, fun id hUnder => ?_⟩
  · obtain ⟨lines, hTree, hIn⟩ := List.mem_flatten.mp hLine
    obtain ⟨root, hRoot, hDrawn⟩ := hSound lines hTree
    obtain ⟨depth, id, hEq, hVisits⟩ := hDrawn.sound line hIn
    exact ⟨depth, id, hEq, (underRoot_iff hBuilt).mpr ⟨root, hRoot, hVisits⟩⟩
  · obtain ⟨root, hRoot, hVisits⟩ := (underRoot_iff hBuilt).mp hUnder
    obtain ⟨lines, hTree, hDrawn⟩ := hComplete root hRoot
    obtain ⟨depth, hIn⟩ := hDrawn.complete id hVisits
    exact ⟨depth, List.mem_flatten.mpr ⟨lines, hTree, hIn⟩⟩

/-- The rendering ends, with the tasks under roots and on cycles. -/
theorem renderLines_spec (hBuilt : Built tasks graph) : ∃ lines,
    (∀ fuel ≥ tasks.length + 1, renderLines fuel graph = some lines) ∧
    ∀ id, Shown lines id ↔ UnderRoot tasks id ∨ OnFirstLoop tasks id := by
  obtain ⟨trees, hMap, hSound, hComplete⟩ := exists_trees hBuilt
  refine ⟨trees.flatten ++ graph.cycles.map .cycle, fun fuel hFuel => ?_, fun id => ⟨?_, ?_⟩⟩
  · rw [renderLines, hMap fuel hFuel]
    rfl
  · rintro (⟨depth, state, hLine⟩ | ⟨ids, hLine, hId⟩)
    · rcases List.mem_append.mp hLine with hTree | hCycle
      · obtain ⟨_, _, hEq, hUnder⟩ := hSound _ hTree
        cases hEq
        exact .inl hUnder
      · obtain ⟨_, -, hEq⟩ := List.mem_map.mp hCycle
        cases hEq
    · rcases List.mem_append.mp hLine with hTree | hCycle
      · obtain ⟨_, _, hEq, -⟩ := hSound _ hTree
        cases hEq
      · obtain ⟨_, hMem, hEq⟩ := List.mem_map.mp hCycle
        cases hEq
        exact .inr ((hBuilt.reported id).mp ⟨ids, hMem, hId⟩)
  · rintro (hUnder | hLoop)
    · obtain ⟨depth, hLine⟩ := hComplete id hUnder
      exact .inl ⟨depth, _, List.mem_append_left _ hLine⟩
    · obtain ⟨cycle, hMem, hId⟩ := (hBuilt.reported id).mpr hLoop
      exact .inr ⟨cycle, List.mem_append_right _ (List.mem_map_of_mem hMem), hId⟩

/-- The graph is built and rendered, and no task is left out exactly if each depends on a root or
lies on a loop that the first dependency chain to some task closes. -/
theorem renderText_shows_iff (tasks : List TaskState) : ∃ graph lines,
    (∀ fuel ≥ allTurns (dependencies tasks), fromTasks fuel tasks = some graph) ∧
    (∀ fuel ≥ tasks.length + 1, renderLines fuel graph = some lines ∧
      renderText fuel graph = some (String.join (lines.map Line.text))) ∧
    ((∀ id ∈ presentIds tasks, Shown lines id) ↔
      ∀ id ∈ presentIds tasks, UnderRoot tasks id ∨ OnFirstLoop tasks id) := by
  obtain ⟨graph, hBuilt, hGraph⟩ := fromTasks_spec tasks
  obtain ⟨lines, hLines, hShown⟩ := renderLines_spec hBuilt
  refine ⟨graph, lines, hGraph, fun fuel hFuel => ⟨hLines fuel hFuel, ?_⟩, ?_⟩
  · rw [renderText, hLines fuel hFuel, Option.map_some]
  · exact forall₂_congr fun id _ => hShown id

def diamondTop : List TaskState :=
  [pending "task-b" ["task-a"], pending "task-a" [], pending "task-c" ["task-b", "task-a"]]

theorem diamondTop_shown : ∃ graph lines, fromTasks 20 diamondTop = some graph ∧
    renderText 20 graph = some (String.join (lines.map Line.text)) ∧
    ∀ id ∈ presentIds diamondTop, Shown lines id := by
  obtain ⟨graph, lines, hGraph, hLines, hIff⟩ := renderText_shows_iff diamondTop
  refine ⟨graph, lines, hGraph 20 (by decide +kernel), (hLines 20 (by decide)).2,
    hIff.mpr fun id hId => .inl ?_⟩
  have hB : DependsOn diamondTop "task-b" "task-a" := by decide +kernel
  have hC : DependsOn diamondTop "task-c" "task-a" := by decide +kernel
  refine ⟨pending "task-a" [], by simp [diamondTop], by simp [pending], ?_⟩
  simp only [presentIds, diamondTop, List.map_cons, List.map_nil, List.mem_cons, pending,
    List.not_mem_nil, or_false] at hId
  rcases hId with rfl | rfl | rfl
  · exact .single hB
  · exact .refl
  · exact .single hC

/-- A third task depends on one of two that depend on each other. -/
def behindCycle : List TaskState :=
  [pending "task-a" ["task-b"], pending "task-b" ["task-a"], pending "task-c" ["task-a"]]

/-- `task-c` stands in no line. -/
theorem behindCycle_dropped : "task-c" ∈ presentIds behindCycle ∧
    (fromTasks 20 behindCycle).bind (renderLines 20) =
      some [.cycle ["task-a", "task-b", "task-a"]] ∧
    (fromTasks 20 behindCycle).bind (renderText 20) =
      some "cycle detected: task-a -> task-b -> task-a\n" ∧
    ¬ Shown [.cycle ["task-a", "task-b", "task-a"]] "task-c" :=
  ⟨by decide, by decide +kernel, by decide +kernel, by simp [Shown]⟩

end Results

end MxAgent.System.TaskRendering
