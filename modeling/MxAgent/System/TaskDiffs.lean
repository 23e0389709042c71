import MxAgent.Daemon.Watch
import MxAgent.Foundations.Ranking

/-! The changes between two snapshots are an exact patch. The walk over the current snapshot, the
walk over the previous one and the sort together give the difference of the two maps at every id,
in the order of the ids; the laws of such lists are general. -/
namespace MxAgent.System.TaskDiffs

open Protocol Daemon KeyedDiff
open Std (ExtTreeMap)

def taskMap (tasks : List TaskState) : String → Option TaskState :=
  fun id => (tasksById tasks)[id]?

abbrev SameTasks (previous current : String → Option TaskState) : Prop :=
  Same TaskState.unsignedZero previous current

variable {id : String} {change : TaskChange}

section Snapshots

variable {previous current tasks : List TaskState}

/-- Collecting a snapshot keeps every task under its own id. -/
theorem keyed_insertMany {map : ExtTreeMap String TaskState}
    (h : Keyed TaskState.taskId fun id => map[id]?) :
    Keyed TaskState.taskId
      fun id => (map.insertMany (tasks.map fun task => (task.taskId, task)))[id]? := by
  induction tasks generalizing map with
  | nil => exact h
  | cons task tasks ih =>
    rw [List.map_cons, ExtTreeMap.insertMany_cons]
    refine ih fun id other hOther => ?_
    simp only [ExtTreeMap.getElem?_insert] at hOther
    split at hOther
    · rename_i hId
      rw [← Option.some.inj hOther]
      exact compare_eq_iff_eq.mp hId
    · exact h id other hOther

theorem keyed_taskMap (tasks : List TaskState) : Keyed TaskState.taskId (taskMap tasks) := by
  unfold taskMap tasksById
  rw [ExtTreeMap.ofList_eq_insertMany_empty]
  exact keyed_insertMany fun id task hTask => by simp at hTask

theorem mem_tasksById_iff : id ∈ tasksById tasks ↔ taskMap tasks id ≠ none := by
  rw [StringMap.mem_iff_exists, Option.ne_none_iff_exists']
  rfl

/-- The walk over the current snapshot finds each difference. -/
theorem addedOrUpdated_eq {curr : TaskState} (hCurr : taskMap current id = some curr) :
    addedOrUpdated (tasksById previous) (id, curr) =
      between TaskState.unsignedZero (taskMap previous id) (taskMap current id) := by
  rw [hCurr, taskMap, addedOrUpdated]
  rcases (tasksById previous)[id]? with _ | prev <;> rfl

/-- The walk over the previous snapshot finds what is gone. -/
theorem removed_eq_some_iff {prev : TaskState} (hPrev : taskMap previous id = some prev) :
    removed (tasksById current) (id, prev) = some change ↔
      taskMap current id = none ∧
        between TaskState.unsignedZero (taskMap previous id) (taskMap current id) =
          some change := by
  simp only [removed, mem_tasksById_iff, hPrev]
  rcases taskMap current id with _ | curr <;> simp [between]

theorem mem_walks_iff :
    change ∈ (tasksById current).toList.filterMap (addedOrUpdated (tasksById previous)) ++
        (tasksById previous).toList.filterMap (removed (tasksById current)) ↔
      ∃ id, between TaskState.unsignedZero (taskMap previous id) (taskMap current id) =
        some change := by
  rw [List.mem_append, List.mem_filterMap, List.mem_filterMap]
  constructor
  · rintro (⟨⟨id, curr⟩, hCurr, hChange⟩ | ⟨⟨id, prev⟩, hPrev, hChange⟩)
    · rw [ExtTreeMap.mem_toList_iff_getElem?_eq_some] at hCurr
      exact ⟨id, (addedOrUpdated_eq hCurr).symm.trans hChange⟩
    · rw [ExtTreeMap.mem_toList_iff_getElem?_eq_some] at hPrev
      exact ⟨id, ((removed_eq_some_iff hPrev).mp hChange).2⟩
  · rintro ⟨id, hChange⟩
    rcases hCurr : taskMap current id with _ | curr
    · rcases hPrev : taskMap previous id with _ | prev
      · rw [hCurr, hPrev] at hChange
        simp [between] at hChange
      · exact .inr ⟨(id, prev), ExtTreeMap.mem_toList_iff_getElem?_eq_some.mpr hPrev,
          (removed_eq_some_iff hPrev).mpr ⟨hCurr, hChange⟩⟩
    · exact .inl ⟨(id, curr), ExtTreeMap.mem_toList_iff_getElem?_eq_some.mpr hCurr,
        (addedOrUpdated_eq hCurr).trans hChange⟩

theorem pairwise_walk {report : String × TaskState → Option TaskChange}
    (hReport : ∀ id task change, taskMap tasks id = some task → report (id, task) = some change →
      change.keyOf TaskState.taskId = id) :
    ((tasksById tasks).toList.filterMap report).Pairwise
      fun a b => a.keyOf TaskState.taskId ≠ b.keyOf TaskState.taskId := by
  rw [List.pairwise_filterMap]
  refine ExtTreeMap.distinct_keys_toList.imp_of_mem ?_
  rintro ⟨id, task⟩ ⟨otherId, other⟩ hTask hOther hIds change hChange otherChange hOtherChange hEq
  rw [ExtTreeMap.mem_toList_iff_getElem?_eq_some] at hTask hOther
  rw [hReport id task change hTask hChange,
    hReport otherId other otherChange hOther hOtherChange] at hEq
  exact hIds (compare_eq_iff_eq.mpr hEq)

theorem keyOf_addedOrUpdated {curr : TaskState} (hCurr : taskMap current id = some curr)
    (hChange : addedOrUpdated (tasksById previous) (id, curr) = some change) :
    change.keyOf TaskState.taskId = id :=
  keyOf_of_between (keyed_taskMap previous) (keyed_taskMap current)
    ((addedOrUpdated_eq hCurr).symm.trans hChange)

theorem keyOf_removed {prev : TaskState} (hPrev : taskMap previous id = some prev)
    (hChange : removed (tasksById current) (id, prev) = some change) :
    change.keyOf TaskState.taskId = id :=
  keyOf_of_between (keyed_taskMap previous) (keyed_taskMap current)
    ((removed_eq_some_iff hPrev).mp hChange).2

/-- The two walks report no id twice. -/
theorem pairwise_walks :
    ((tasksById current).toList.filterMap (addedOrUpdated (tasksById previous)) ++
        (tasksById previous).toList.filterMap (removed (tasksById current))).Pairwise
      fun a b => a.keyOf TaskState.taskId ≠ b.keyOf TaskState.taskId := by
  refine List.pairwise_append.mpr ⟨pairwise_walk fun id task change => keyOf_addedOrUpdated,
    pairwise_walk fun id task change => keyOf_removed, ?_⟩
  intro kept hKept gone hGone hEq
  obtain ⟨⟨id, curr⟩, hCurr, hChange⟩ := List.mem_filterMap.mp hKept
  obtain ⟨⟨goneId, prev⟩, hPrev, hGoneChange⟩ := List.mem_filterMap.mp hGone
  rw [ExtTreeMap.mem_toList_iff_getElem?_eq_some] at hCurr hPrev
  rw [keyOf_addedOrUpdated hCurr hChange, keyOf_removed hPrev hGoneChange] at hEq
  have hNone := ((removed_eq_some_iff hPrev).mp hGoneChange).1
  rw [← hEq, taskMap, hCurr] at hNone
  exact absurd hNone (by simp)

/-- `diff_tasks` computes the difference of the two maps. -/
theorem isDiff_diffTasks (previous current : List TaskState) :
    IsDiff TaskState.taskId TaskState.unsignedZero (taskMap previous) (taskMap current)
      (diffTasks previous current) := by
  refine ⟨Ranking.pairwise_lt_insertionSort pairwise_walks, fun change => ?_⟩
  rw [diffTasks, List.mem_insertionSort, mem_walks_iff]
  constructor
  · rintro ⟨id, hChange⟩
    rwa [keyOf_of_between (keyed_taskMap previous) (keyed_taskMap current) hChange]
  · intro hChange
    exact ⟨_, hChange⟩

/-- The changes between two snapshots lead from one's map to the other's, strictly increasing in
their ids, so at most one for an id; there are none exactly when the maps are equal; and the changes
the other way are their inverses. Tasks are compared as the source does. -/
theorem diffTasks_exact_patch (previous current : List TaskState) :
    SameTasks (patch TaskState.taskId (taskMap previous) (diffTasks previous current))
        (taskMap current) ∧
      (diffTasks previous current).Pairwise
        (fun a b => a.keyOf TaskState.taskId < b.keyOf TaskState.taskId) ∧
      (diffTasks previous current = [] ↔ SameTasks (taskMap previous) (taskMap current)) ∧
      diffTasks current previous = (diffTasks previous current).map Change.inverse := by
  have hDiff := isDiff_diffTasks previous current
  have hPrevious := keyed_taskMap previous
  have hCurrent := keyed_taskMap current
  exact ⟨hDiff.same_patch hPrevious hCurrent, hDiff.ordered, hDiff.eq_nil_iff hPrevious hCurrent,
    (isDiff_diffTasks current previous).unique (hDiff.inverse hPrevious hCurrent)⟩

end Snapshots

end MxAgent.System.TaskDiffs
