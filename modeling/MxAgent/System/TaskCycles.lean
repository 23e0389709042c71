import MxAgent.Daemon.TaskGraph

/-! The dependency cycles of the tasks of a room. The search always ends, each cycle it
reports is one, and it reports none only if there is none. It does not report every task that
is on a cycle: a task is reported if it lies on a way back into the first dependency chain to
some task. -/
namespace MxAgent.System.TaskCycles

open Protocol Daemon FirstPath DepthFirst
open Std (ExtTreeMap ReflCmp)

def DependsOn (tasks : List TaskState) (a b : String) : Prop :=
  ∃ task ∈ tasks, task.taskId = a ∧ b ∈ task.dependsOn ∧ b ∈ presentIds tasks

def dependencies (tasks : List TaskState) : OrderedGraph String where
  starts := (presentIds tasks).dedup.insertionSort (· ≤ ·)
  next id := (tasks.filter fun task => task.taskId = id).flatMap (presentDeps tasks)

section Adjacency

variable {tasks : List TaskState}

theorem mem_presentDeps {task : TaskState} {dep : String} :
    dep ∈ presentDeps tasks task ↔ dep ∈ task.dependsOn ∧ dep ∈ presentIds tasks := by
  rw [presentDeps, List.mem_filter, List.contains_iff_mem]

theorem mem_starts_dependencies {id : String} :
    id ∈ (dependencies tasks).starts ↔ id ∈ presentIds tasks := by
  rw [dependencies, (List.perm_insertionSort _ _).mem_iff, List.mem_dedup]

theorem mem_next_dependencies {a b : String} :
    b ∈ (dependencies tasks).next a ↔ DependsOn tasks a b := by
  simp [dependencies, DependsOn, mem_presentDeps, and_assoc]

theorem DependsOn.present {a b : String} (h : DependsOn tasks a b) :
    a ∈ presentIds tasks ∧ b ∈ presentIds tasks := by
  obtain ⟨task, hTask, rfl, -, hB⟩ := h
  exact ⟨List.mem_map_of_mem hTask, hB⟩

theorem edge_dependencies : Edge (dependencies tasks) = DependsOn tasks := by
  funext a b
  refine propext ⟨fun h => mem_next_dependencies.mp h.2, fun h => ?_⟩
  exact ⟨mem_starts_dependencies.mpr h.present.1, mem_next_dependencies.mpr h⟩

theorem whole_dependencies : Whole (dependencies tasks) where
  nodup := (List.perm_insertionSort _ _).nodup_iff.mpr (List.nodup_dedup _)
  closed _ _ _ hX := mem_starts_dependencies.mpr (mem_next_dependencies.mp hX).present.2

theorem getElem?_foldl_alter (f : TaskState → List String) (deps : ExtTreeMap String (List String))
    (id : String) :
    (tasks.foldl (fun deps task =>
      deps.alter task.taskId fun known => some (known.getD [] ++ f task)) deps)[id]? =
    if id ∈ presentIds tasks then
      some (deps[id]?.getD [] ++ (tasks.filter fun task => task.taskId = id).flatMap f)
    else deps[id]? := by
  induction tasks generalizing deps with
  | nil => rfl
  | cons task tasks ih =>
    rw [List.foldl_cons, ih, ExtTreeMap.getElem?_alter]
    by_cases hTask : task.taskId = id
    · subst hTask
      have hNone : task.taskId ∉ presentIds tasks →
          (tasks.filter fun other => other.taskId = task.taskId) = [] := by
        intro hLast
        refine List.filter_eq_nil_iff.mpr fun other hOther hEq => hLast ?_
        exact of_decide_eq_true hEq ▸ List.mem_map_of_mem hOther
      have hHere : task.taskId ∈ presentIds (task :: tasks) := List.mem_cons_self
      rw [if_pos ReflCmp.compare_self, if_pos hHere, List.filter_cons_of_pos (by simp),
        List.flatMap_cons]
      split
      · simp
      · rename_i hLast
        simp [hNone hLast]
    · have hMem : id ∈ presentIds (task :: tasks) ↔ id ∈ presentIds tasks :=
        List.mem_cons.trans (or_iff_right (Ne.symm hTask))
      rw [if_neg (mt compare_eq_iff_eq.mp hTask), if_congr hMem rfl rfl,
        List.filter_cons_of_neg (by simpa using hTask)]

theorem getElem?_dependencyMap (id : String) :
    (dependencyMap tasks)[id]? =
      if id ∈ presentIds tasks then some ((dependencies tasks).next id) else none := by
  rw [dependencyMap, getElem?_foldl_alter]
  rfl

theorem keys_dependencyMap : (dependencyMap tasks).keys = (dependencies tasks).starts := by
  have hMem : ∀ id, id ∈ (dependencyMap tasks).keys ↔ id ∈ (dependencies tasks).starts := by
    intro id
    rw [ExtTreeMap.mem_keys, mem_starts_dependencies, ExtTreeMap.mem_iff_isSome_getElem?,
      getElem?_dependencyMap]
    split
    · rename_i hPresent
      exact iff_of_true Option.isSome_some hPresent
    · rename_i hAbsent
      exact iff_of_false (by simp) hAbsent
  have hSorted : (dependencyMap tasks).keys.Pairwise (· ≤ ·) :=
    ExtTreeMap.ordered_keys.imp fun h => (compare_lt_iff_lt.mp h).le
  have hPerm : (dependencyMap tasks).keys.Perm (dependencies tasks).starts :=
    (List.perm_ext_iff_of_nodup ExtTreeMap.nodup_keys whole_dependencies.nodup).mpr hMem
  exact hPerm.eq_of_pairwise (fun _ _ _ _ => le_antisymm) hSorted
    (List.pairwise_insertionSort _ _)

/-- The searched graph is the one of the dependencies. -/
theorem dependencyGraph_eq : dependencyGraph tasks = dependencies tasks := by
  refine OrderedGraph.mk.injEq .. |>.mpr ⟨keys_dependencyMap, funext fun id => ?_⟩
  rw [getElem?_dependencyMap]
  split
  · rfl
  · rename_i hAbsent
    refine (List.eq_nil_iff_forall_not_mem.mpr fun dep hDep => ?_).symm
    exact hAbsent (mem_next_dependencies.mp hDep).present.1

end Adjacency

/-- The task lies on a loop that the first dependency chain to some task closes, by going back into
it. -/
def OnFirstLoop (tasks : List TaskState) (id : String) : Prop :=
  ∃ last below entry above rest, IsFirst (dependencies tasks) (last :: below) ∧
    DependsOn tasks last entry ∧ last :: below = above ++ entry :: rest ∧ id ∈ above ++ [entry]

/-- What a graph holds of its tasks. -/
structure Built (tasks : List TaskState) (graph : TaskGraph) : Prop where
  edges : ∀ a b, ⟨a, b⟩ ∈ graph.edges ↔ DependsOn tasks b a
  roots : ∀ id, id ∈ graph.roots ↔
    ∃ task ∈ tasks, task.taskId = id ∧ ∀ dep ∈ task.dependsOn, dep ∉ presentIds tasks
  sound : ∀ cycle ∈ graph.cycles,
    IsCycle (DependsOn tasks) cycle ∧ ∀ id ∈ cycle, id ∈ presentIds tasks
  reported : ∀ id, (∃ cycle ∈ graph.cycles, id ∈ cycle) ↔ OnFirstLoop tasks id
  acyclic : graph.cycles = [] ↔ ∀ id, ¬ Relation.TransGen (DependsOn tasks) id id

section Results

variable {tasks : List TaskState}

theorem present_of_isCycle {cycle : List String} (h : IsCycle (DependsOn tasks) cycle) {id : String}
    (hId : id ∈ cycle) : id ∈ presentIds tasks := by
  obtain ⟨other, hTo | hFrom⟩ := h.related hId
  · exact hTo.present.1
  · exact hFrom.present.2

theorem detectCycles_spec (tasks : List TaskState) : ∃ cycles,
    (∀ fuel ≥ allTurns (dependencies tasks), detectCycles fuel tasks = some cycles) ∧
    (∀ cycle ∈ cycles, IsCycle (DependsOn tasks) cycle) ∧
    (∀ id, (∃ cycle ∈ cycles, id ∈ cycle) ↔ OnFirstLoop tasks id) ∧
    (cycles = [] ↔ ∀ id, ¬ Relation.TransGen (DependsOn tasks) id id) := by
  obtain ⟨finish, hSearch, hCycles, hNone⟩ :=
    search_spec (whole_dependencies : Whole (dependencies tasks))
  rw [edge_dependencies] at hNone
  have hSound : ∀ cycle ∈ finish.cycles, IsCycle (DependsOn tasks) cycle := by
    intro cycle hCycle
    obtain ⟨last, below, entry, hFirst, hNext, hMem, rfl⟩ := (hCycles cycle).mp hCycle
    exact edge_dependencies ▸ isCycle_cycleTo whole_dependencies hFirst.simple hNext hMem
  refine ⟨finish.cycles, fun fuel hFuel => ?_, hSound, fun id => ⟨?_, ?_⟩, hNone,
    fun hAcyclic => ?_⟩
  · rw [detectCycles, dependencyGraph_eq, hSearch fuel hFuel, Option.map_some]
  · rintro ⟨cycle, hCycle, hId⟩
    obtain ⟨last, below, entry, hFirst, hNext, hMem, rfl⟩ := (hCycles cycle).mp hCycle
    obtain ⟨above, rest, hSplit, hOn⟩ := (mem_cycleTo hMem hFirst.simple.nodup).mp hId
    exact ⟨last, below, entry, above, rest, hFirst, mem_next_dependencies.mp hNext, hSplit, hOn⟩
  · rintro ⟨last, below, entry, above, rest, hFirst, hDepends, hSplit, hOn⟩
    have hMem : entry ∈ last :: below := by
      rw [hSplit]
      exact List.mem_append_right _ List.mem_cons_self
    have hNext := mem_next_dependencies.mpr hDepends
    exact ⟨_, (hCycles _).mpr ⟨last, below, entry, hFirst, hNext, hMem, rfl⟩,
      (mem_cycleTo hMem hFirst.simple.nodup).mpr ⟨above, rest, hSplit, hOn⟩⟩
  · refine List.eq_nil_iff_forall_not_mem.mpr fun cycle hCycle => ?_
    obtain ⟨id, hLoop⟩ := (hSound cycle hCycle).exists_transGen
    exact hAcyclic id hLoop

/-- With enough fuel the graph is built, always the same one. -/
theorem fromTasks_spec (tasks : List TaskState) : ∃ graph, Built tasks graph ∧
    ∀ fuel ≥ allTurns (dependencies tasks), fromTasks fuel tasks = some graph := by
  obtain ⟨cycles, hDetect, hSound, hReported, hAcyclic⟩ := detectCycles_spec tasks
  refine ⟨⟨_, _, _, cycles⟩, ⟨fun a b => ?_, fun id => ?_, ?_, hReported, hAcyclic⟩,
    fun fuel hFuel => by rw [fromTasks, hDetect fuel hFuel]; rfl⟩
  · rw [(List.perm_insertionSort _ _).mem_iff, List.mem_dedup]
    simp [DependsOn, mem_presentDeps, and_comm]
  · rw [List.mem_dedup, (List.perm_insertionSort _ _).mem_iff]
    simp [presentDeps, and_assoc, and_comm (a := _ = id)]
  · intro cycle hCycle
    exact ⟨hSound cycle hCycle, fun id => present_of_isCycle (hSound cycle hCycle)⟩

/-- The search ends, every cycle it reports is one of present tasks, and it reports none exactly if
there is none between present tasks. -/
theorem fromTasks_cycles (tasks : List TaskState) : ∃ graph,
    (∀ fuel ≥ allTurns (dependencies tasks), fromTasks fuel tasks = some graph) ∧
    (∀ cycle ∈ graph.cycles,
      IsCycle (DependsOn tasks) cycle ∧ ∀ id ∈ cycle, id ∈ presentIds tasks) ∧
    (graph.cycles = [] ↔ ∀ id, ¬ Relation.TransGen (DependsOn tasks) id id) := by
  obtain ⟨graph, hBuilt, hFuel⟩ := fromTasks_spec tasks
  exact ⟨graph, hFuel, hBuilt.sound, hBuilt.acyclic⟩

def pending (taskId : String) (dependsOn : List String) : TaskState :=
  ⟨taskId, "", "", "pending", "", "", dependsOn, [], none, "", "", 0, none, none, none, ∅⟩

/-- Two tasks that depend on each other, and one there twice with an unknown dependency. -/
def mutualPair : List TaskState :=
  [pending "task-b" ["task-a"], pending "task-a" ["task-b", "task-x"], pending "task-b" ["task-b"]]

theorem mutualPair_cycles : ∃ graph, fromTasks 20 mutualPair = some graph ∧
    (∀ cycle ∈ graph.cycles, IsCycle (DependsOn mutualPair) cycle) ∧
    ¬ ∀ id, ¬ Relation.TransGen (DependsOn mutualPair) id id := by
  obtain ⟨graph, hFuel, hSound, hAcyclic⟩ := fromTasks_cycles mutualPair
  have hGraph := hFuel 20 (by decide +kernel)
  refine ⟨graph, hGraph, fun cycle hCycle => (hSound cycle hCycle).1, fun hNone => ?_⟩
  have hCycles : (fromTasks 20 mutualPair).map TaskGraph.cycles ≠ some [] := by decide +kernel
  exact hCycles (by rw [hGraph, Option.map_some, hAcyclic.mpr hNone])

/-- Every task on a cycle is reported exactly if each lies on a loop that the first dependency chain
to some task closes. -/
theorem fromTasks_reports_iff (tasks : List TaskState) : ∃ graph,
    (∀ fuel ≥ allTurns (dependencies tasks), fromTasks fuel tasks = some graph) ∧
    ((∀ id, Relation.TransGen (DependsOn tasks) id id → ∃ cycle ∈ graph.cycles, id ∈ cycle) ↔
      ∀ id, Relation.TransGen (DependsOn tasks) id id → OnFirstLoop tasks id) := by
  obtain ⟨graph, hBuilt, hFuel⟩ := fromTasks_spec tasks
  exact ⟨graph, hFuel, forall_congr' fun id => imp_congr_right fun _ => hBuilt.reported id⟩

theorem mutualPair_onFirstLoop :
    (fromTasks 20 mutualPair).map TaskGraph.cycles =
        some [["task-a", "task-b", "task-a"], ["task-b", "task-b"]] ∧
      ∀ id, Relation.TransGen (DependsOn mutualPair) id id → OnFirstLoop mutualPair id := by
  obtain ⟨graph, hFuel, hIff⟩ := fromTasks_reports_iff mutualPair
  have hGraph := hFuel 20 (by decide +kernel)
  have hCycles : (fromTasks 20 mutualPair).map TaskGraph.cycles =
      some [["task-a", "task-b", "task-a"], ["task-b", "task-b"]] := by decide +kernel
  refine ⟨hCycles, hIff.mp fun id hLoop => ?_⟩
  rw [hGraph, Option.map_some, Option.some_inj] at hCycles
  obtain ⟨other, hDepends, -⟩ := Relation.TransGen.head'_iff.mp hLoop
  have hAll : ∀ id ∈ presentIds mutualPair,
      id ∈ ["task-a", "task-b", "task-a"] := by decide +kernel
  exact ⟨_, hCycles ▸ List.mem_cons_self, hAll id hDepends.present.1⟩

/-- Two cycles that share a task; `task-b` is left before `task-c`. -/
def sharedCycles : List TaskState :=
  [pending "task-a" ["task-b", "task-c"], pending "task-b" ["task-a"], pending "task-c" ["task-b"]]

instance (tasks : List TaskState) : DecidableRel (DependsOn tasks) :=
  fun _ _ => inferInstanceAs (Decidable (∃ task ∈ tasks, _))

/-- `task-c` is on the cycle from `task-a` through `task-c` and `task-b`, which is not reported. -/
theorem sharedCycles_unreported : Relation.TransGen (DependsOn sharedCycles) "task-c" "task-c" ∧
    (fromTasks 20 sharedCycles).map TaskGraph.cycles = some [["task-a", "task-b", "task-a"]] := by
  have hToB : DependsOn sharedCycles "task-c" "task-b" := by decide +kernel
  have hToA : DependsOn sharedCycles "task-b" "task-a" := by decide +kernel
  have hToC : DependsOn sharedCycles "task-a" "task-c" := by decide +kernel
  exact ⟨.tail (.tail (.single hToB) hToA) hToC, by decide +kernel⟩

end Results

end MxAgent.System.TaskCycles
