import MxAgent.System.SchedulerAgreement
import MxAgent.System.SchedulerRooms

/-! What the work of others costs an agent. A tick counts every executing task of the
snapshot against the capacity, also those of other agents. They take slots away: the tick
hands over the same tasks only as long as every task it would hand over still has a place. -/
namespace MxAgent.System.ForeignTasks

open Protocol Daemon TaskOrchestrator ClaimedInvocations SchedulerRooms
  SchedulerAgreement

/-- Executing tasks of other agents, that are no tasks of the snapshot. -/
structure Foreign (agentId : String) (snapshot foreign : List TaskState) : Prop where
  executing : ∀ task ∈ foreign, task.state = stateExecuting
  others : ∀ task ∈ foreign, task.assignedTo ≠ agentId
  apart : ∀ task ∈ foreign, task.taskId ∉ snapshot.map TaskState.taskId

def runningCount (snapshot : List TaskState) : Nat :=
  (snapshot.filter fun task => task.state == stateExecuting).length

/-! ## What the foreign tasks do not change -/

variable {taskId : String}

section Snapshot

variable {agentId : String} {snapshot foreign : List TaskState}

theorem succeededIds_append (h : Foreign agentId snapshot foreign) :
    succeededIds (snapshot ++ foreign) = succeededIds snapshot := by
  have hNone : (foreign.filter fun task => task.state == stateSucceeded) = [] := by
    rw [List.filter_eq_nil_iff]
    intro task hTask
    rw [h.executing task hTask]
    decide
  rw [succeededIds, List.filter_append, hNone, List.append_nil, succeededIds]

theorem runningCount_append (h : Foreign agentId snapshot foreign) :
    runningCount (snapshot ++ foreign) = runningCount snapshot + foreign.length := by
  have hAll : (foreign.filter fun task => task.state == stateExecuting) = foreign := by
    rw [List.filter_eq_self]
    intro task hTask
    rw [h.executing task hTask]
    decide
  rw [runningCount, List.filter_append, hAll, List.length_append, runningCount]

theorem isReady_append (scheduler : TaskScheduler) (h : Foreign agentId snapshot foreign)
    (task : TaskState) :
    isReady scheduler (snapshot ++ foreign) task = isReady scheduler snapshot task := by
  rw [isReady, isReady, TaskScheduler.evaluate, TaskScheduler.evaluate, succeededIds_append h]

theorem readyTasks_append (scheduler : TaskScheduler) (h : Foreign agentId snapshot foreign) :
    readyTasks scheduler (snapshot ++ foreign) = readyTasks scheduler snapshot := by
  have hNone : foreign.filter (isReady scheduler snapshot) = [] := by
    rw [List.filter_eq_nil_iff]
    intro task hTask hReady
    obtain ⟨hRunnable, -⟩ := isReady_iff.mp hReady
    rw [h.executing task hTask] at hRunnable
    revert hRunnable
    decide
  rw [readyTasks, funext (isReady_append scheduler h), List.filter_append, hNone, List.append_nil,
    readyTasks]

theorem exists_taskWith (hId : taskId ∈ snapshot.map TaskState.taskId) :
    ∃ found, taskWith snapshot taskId = some found := by
  obtain ⟨task, hTask, rfl⟩ := List.mem_map.mp hId
  rw [← Option.isSome_iff_exists, taskWith, List.find?_isSome]
  exact ⟨task, hTask, by simp⟩

theorem taskWith_append (hId : taskId ∈ snapshot.map TaskState.taskId) :
    taskWith (snapshot ++ foreign) taskId = taskWith snapshot taskId := by
  obtain ⟨found, hFound⟩ := exists_taskWith hId
  rw [taskWith, List.find?_append, ← taskWith, hFound, Option.some_or]

end Snapshot

/-! ## The runnable ids -/

variable {foreign : List TaskState}

section Ids

variable {scheduler : TaskScheduler} {snapshot : List TaskState}

def slotIds (scheduler : TaskScheduler) (snapshot : List TaskState) (slots : Nat) : List String :=
  ((readyTasks scheduler snapshot).take slots).map TaskState.taskId

def ahead (scheduler : TaskScheduler) (snapshot : List TaskState) (taskId : String) : Nat :=
  snapshot.countP fun other => isReady scheduler snapshot other && decide (other.taskId < taskId)

theorem mem_slotIds_iff {slots : Nat} :
    taskId ∈ slotIds scheduler snapshot slots ↔
      (∃ task ∈ snapshot, isReady scheduler snapshot task ∧ task.taskId = taskId) ∧
        ahead scheduler snapshot taskId < slots := by
  have hSorted : (readyTasks scheduler snapshot).Pairwise fun left right =>
      left.taskId ≤ right.taskId := List.pairwise_insertionSort _ _
  have hCount : ((readyTasks scheduler snapshot).countP fun task => task.taskId < taskId) =
      ahead scheduler snapshot taskId := by
    rw [readyTasks, byTaskId, (List.perm_insertionSort _ _).countP_eq, List.countP_filter, ahead]
    simp only [Bool.and_comm]
  rw [slotIds, Ranking.mem_map_take_iff hSorted, hCount, List.mem_map]
  simp only [mem_readyTasks, and_assoc]

theorem slotIds_subset {slots : Nat}
    (h : taskId ∈ slotIds scheduler snapshot slots) : taskId ∈ snapshot.map TaskState.taskId := by
  obtain ⟨⟨task, hTask, -, hId⟩, -⟩ := mem_slotIds_iff.mp h
  exact List.mem_map.mpr ⟨task, hTask, hId⟩

theorem runnableIds_eq (scheduler : TaskScheduler) (snapshot : List TaskState) :
    runnableIds scheduler snapshot =
      (snapshot.map TaskState.taskId).filter fun taskId =>
        taskId ∈ slotIds scheduler snapshot (scheduler.maxInvocations - runningCount snapshot) := by
  rw [List.filter_map, runnableIds, TaskScheduler.runnable]
  congr 1
  refine List.filter_congr fun task _ => Bool.eq_iff_iff.mpr ?_
  rw [List.contains_iff_mem, runnable_mem_decide_iff]
  simp [slotIds, runningCount]

theorem mem_runnableIds_iff :
    taskId ∈ runnableIds scheduler snapshot ↔
      taskId ∈ slotIds scheduler snapshot (scheduler.maxInvocations - runningCount snapshot) := by
  rw [runnableIds_eq, List.mem_filter, decide_eq_true_iff]
  exact ⟨And.right, fun h => ⟨slotIds_subset h, h⟩⟩

/-- With the foreign tasks, the loop goes through the ids that still get a slot. -/
theorem runnableIds_append {agentId : String} (h : Foreign agentId snapshot foreign) :
    runnableIds scheduler (snapshot ++ foreign) =
      (runnableIds scheduler snapshot).filter fun taskId => taskId ∈ slotIds scheduler snapshot
        (scheduler.maxInvocations - (runningCount snapshot + foreign.length)) := by
  have hSlots : slotIds scheduler (snapshot ++ foreign) = slotIds scheduler snapshot := by
    funext slots
    rw [slotIds, readyTasks_append scheduler h, slotIds]
  have hNone : ((foreign.map TaskState.taskId).filter fun taskId => taskId ∈ slotIds scheduler
      snapshot (scheduler.maxInvocations - (runningCount snapshot + foreign.length))) = [] := by
    rw [List.filter_eq_nil_iff]
    intro taskId hId hSlot
    obtain ⟨task, hTask, rfl⟩ := List.mem_map.mp hId
    exact h.apart task hTask (slotIds_subset (of_decide_eq_true hSlot))
  rw [runnableIds_eq, runnableIds_eq, hSlots, runningCount_append h, List.map_append,
    List.filter_append, hNone, List.append_nil, List.filter_filter]
  refine List.filter_congr fun taskId _ => Bool.eq_iff_iff.mpr ?_
  simp only [decide_eq_true_eq, Bool.and_eq_true]
  refine ⟨fun hSlot => ⟨hSlot, ?_⟩, And.left⟩
  rw [mem_slotIds_iff] at hSlot ⊢
  exact ⟨hSlot.1, by omega⟩

end Ids

/-! ## The loop -/

variable {taskIds : List String}

section Loop

variable {Key σ δ γ : Type} {crypto : Crypto Key} {regexNew : RegexNew} {order : EvictionOrder}
  {orchestrator : TaskOrchestrator Key γ} {store : TaskStore σ} {dispatcher : TaskDispatcher δ}
  {agentId : String} {snapshot foreign : List TaskState}

theorem attemptTask_append (h : Foreign agentId snapshot foreign) (env : ProcessEnv)
    (task : TaskState) (t : TickState σ δ γ) :
    attemptTask crypto regexNew order orchestrator store dispatcher (snapshot ++ foreign) env task
        t =
      attemptTask crypto regexNew order orchestrator store dispatcher snapshot env task t := by
  have hProcess : processOne crypto regexNew order orchestrator store dispatcher env task
      (snapshot ++ foreign) t.world = processOne crypto regexNew order orchestrator store dispatcher
        env task snapshot t.world := by
    unfold processOne clearTask
    rw [succeededIds_append h]
  unfold attemptTask
  rw [hProcess]

theorem attemptLoop_append (h : Foreign agentId snapshot foreign) (process : Nat → ProcessEnv)
    (turn : Nat) (hIds : ∀ taskId ∈ taskIds, taskId ∈ snapshot.map TaskState.taskId)
    (t : TickState σ δ γ) :
    attemptLoop crypto regexNew order orchestrator store dispatcher (snapshot ++ foreign) process
        turn taskIds t =
      attemptLoop crypto regexNew order orchestrator store dispatcher snapshot process turn taskIds
        t := by
  have hAttempt : (fun turn => attemptTask crypto regexNew order orchestrator store dispatcher
      (snapshot ++ foreign) (process turn)) = fun turn => attemptTask crypto regexNew order
        orchestrator store dispatcher snapshot (process turn) := by
    funext turn task t
    exact attemptTask_append h (process turn) task t
  rw [attemptLoop, attemptLoop, hAttempt]
  induction taskIds generalizing turn t with
  | nil => rfl
  | cons taskId rest ih =>
    obtain ⟨hId, hRest⟩ := List.forall_mem_cons.mp hIds
    rw [attemptEach, attemptEach, taskWith_append hId]
    split
    · exact ih (turn + 1) hRest t
    · simp only [ih (turn + 1) hRest]

/-- The recovery reports foreign tasks and leaves them alone. -/
theorem reconcileLoop_foreign (h : ∀ task ∈ foreign, task.assignedTo ≠ orchestrator.agentId)
    (completedAt : Nat → String) (liveInvocations : Finset String)
    (invocations : Std.ExtTreeMap String InvocationState) (turn : Nat) (own : List TaskState)
    (w : World σ δ γ) :
    (reconcileLoop orchestrator store completedAt liveInvocations invocations turn (own ++ foreign)
        w).2 =
      (reconcileLoop orchestrator store completedAt liveInvocations invocations turn own w).2 := by
  induction own generalizing turn w with
  | nil =>
    rw [List.nil_append]
    induction foreign generalizing turn with
    | nil => rfl
    | cons task rest ih =>
      obtain ⟨hTask, hRest⟩ := List.forall_mem_cons.mp h
      simp only [reconcileLoop, reconcileTask, if_pos hTask]
      exact ih hRest (turn + 1)
  | cons task rest ih => exact ih (turn + 1) _

section Run

variable {process : Nat → ProcessEnv} {turn : Nat} {t last : TickState σ δ γ}
  {handed : List HandOver}
  (h : Loop crypto regexNew order orchestrator store dispatcher snapshot process turn taskIds t
    handed last)

include h

theorem taskId_of_handOver {handOver : HandOver} (hMem : handOver ∈ handed) :
    handOver.task.taskId ∈ taskIds := by
  induction h with
  | nil => cases hMem
  | passed _ _ ih => exact List.mem_cons_of_mem _ (ih hMem)
  | handed hTask _ _ _ _ ih =>
    rcases List.mem_cons.mp hMem with rfl | hLater
    · exact taskId_of_taskWith hTask ▸ List.mem_cons_self ..
    · exact List.mem_cons_of_mem _ (ih hLater)

/-- A task whose revision was not attempted before the loop is handed over in it. -/
theorem handed_of_fresh {task : TaskState} (hId : taskId ∈ taskIds)
    (hTask : taskWith snapshot taskId = some task) (hFresh : revisionOf task ∉ t.attempted) :
    task ∈ handed.map HandOver.task := by
  induction h with
  | nil => cases hId
  | passed hPassed _ ih =>
    rcases List.mem_cons.mp hId with rfl | hRest
    · exact absurd (hPassed task hTask) hFresh
    · exact ih hRest hFresh
  | @handed _ first _ _ other _ _ _ _ hOther _ _ hAfter _ ih =>
    rw [List.map_cons, List.mem_cons]
    by_cases hFirst : taskId = first
    · subst hFirst
      exact .inl (Option.some.inj (hTask.symm.trans hOther))
    · refine .inr (ih ((List.mem_cons.mp hId).resolve_left hFirst) fun hMem => ?_)
      -- another id is another revision
      refine ((hAfter _).mp hMem).elim hFresh fun ⟨_, hSame⟩ => hFirst ?_
      rw [← taskId_of_taskWith hTask, ← taskId_of_taskWith hOther]
      exact congrArg Prod.fst hSame

end Run

/-- Two loops make their calls in the same environments. -/
def SameCalls (first : List HandOver) (process : Nat → ProcessEnv) (second : List HandOver)
    (process' : Nat → ProcessEnv) : Prop :=
  ∀ (index : Nat) (handOver handOver' : HandOver), first[index]? = some handOver →
    second[index]? = some handOver' → process handOver.turn = process' handOver'.turn

/-- Ids that are passed over can be left out of the loop. -/
theorem handed_filter {keep : String → Bool} {process process' : Nat → ProcessEnv}
    {turn turn' : Nat} {t last last' : TickState σ δ γ} {handed handed' : List HandOver}
    (h : Loop crypto regexNew order orchestrator store dispatcher snapshot process turn taskIds t
      handed last)
    (h' : Loop crypto regexNew order orchestrator store dispatcher snapshot process' turn'
      (taskIds.filter keep) t handed' last')
    (hSkipped : ∀ taskId ∈ taskIds, keep taskId = false → PassedOver snapshot t.attempted taskId)
    (hCalls : SameCalls handed process handed' process') :
    handed.map HandOver.task = handed'.map HandOver.task := by
  induction h generalizing turn' handed' with
  | nil =>
    cases h'
    rfl
  | @passed _ taskId _ _ _ _ hPassed _ ih =>
    obtain ⟨-, hRest⟩ := List.forall_mem_cons.mp hSkipped
    cases hKeep : keep taskId with
    | false =>
      rw [List.filter_cons_of_neg (by simp [hKeep])] at h'
      exact ih h' hRest hCalls
    | true =>
      rw [List.filter_cons_of_pos hKeep] at h'
      cases h' with
      | passed _ hLoop' => exact ih hLoop' hRest hCalls
      | handed hTask hFresh => exact absurd (hPassed _ hTask) hFresh
  | @handed _ taskId _ _ _ _ _ _ _ hTask hFresh hAttempt hAfter _ ih =>
    obtain ⟨hFirst, hRest⟩ := List.forall_mem_cons.mp hSkipped
    have hKeep : keep taskId := by
      by_contra hDrop
      exact hFresh (hFirst (Bool.not_eq_true _ ▸ hDrop) _ hTask)
    rw [List.filter_cons_of_pos hKeep] at h'
    cases h' with
    | passed hPassed => exact absurd (hPassed _ hTask) hFresh
    | handed hTask' _ hAttempt' _ hLoop' =>
      cases hTask.symm.trans hTask'
      have hEnv : process _ = process' _ := hCalls 0 _ _ rfl rfl
      cases hAttempt.symm.trans (hEnv ▸ hAttempt')
      refine congrArg (_ :: ·) (ih hLoop' (fun other hOther hDrop found hFound => ?_)
        fun index first second hLeft hRight => hCalls (index + 1) first second hLeft hRight)
      exact (hAfter _).mpr (.inl (hRest other hOther hDrop found hFound))

end Loop

/-! ## Two ticks -/

section Ticks

variable {Key σ δ γ : Type}

def extended (tick : Tick Key σ δ γ) (foreign : List TaskState) (process : Nat → ProcessEnv) :
    Tick Key σ δ γ :=
  { tick with input := { tick.input with snapshot := tick.input.snapshot ++ foreign, process } }

/-- Every ready task with a place and not attempted keeps it when some slots are taken. -/
def KeepsPlaces (scheduler : TaskScheduler) (snapshot : List TaskState)
    (attempted : Finset Revision) (taken : Nat) : Prop :=
  ∀ task ∈ snapshot, isReady scheduler snapshot task →
    (∀ found ∈ taskWith snapshot task.taskId, revisionOf found ∉ attempted) →
    ahead scheduler snapshot task.taskId + runningCount snapshot < scheduler.maxInvocations →
    ahead scheduler snapshot task.taskId + runningCount snapshot + taken < scheduler.maxInvocations

theorem keepsPlaces_iff {scheduler : TaskScheduler} {snapshot : List TaskState}
    {attempted : Finset Revision} {taken : Nat} :
    KeepsPlaces scheduler snapshot attempted taken ↔
      ∀ taskId ∈ runnableIds scheduler snapshot,
        taskId ∉ slotIds scheduler snapshot
          (scheduler.maxInvocations - (runningCount snapshot + taken)) →
        ∀ task, taskWith snapshot taskId = some task → revisionOf task ∈ attempted := by
  constructor
  · intro h taskId hId hDropped task hTask
    by_contra hFresh
    obtain ⟨⟨ready, hMem, hReady, rfl⟩, hAhead⟩ := mem_slotIds_iff.mp (mem_runnableIds_iff.mp hId)
    have hPlace := h ready hMem hReady (fun found hFound => by
      obtain rfl : task = found := Option.some.inj (hTask.symm.trans hFound)
      exact hFresh) (by omega)
    exact hDropped (mem_slotIds_iff.mpr ⟨⟨ready, hMem, hReady, rfl⟩, by omega⟩)
  · intro h task hMem hReady hFresh hPlace
    by_contra hTaken
    obtain ⟨found, hFound⟩ := exists_taskWith (List.mem_map_of_mem hMem)
    refine hFresh found hFound (h task.taskId ?_ ?_ found hFound)
    · exact mem_runnableIds_iff.mpr (mem_slotIds_iff.mpr ⟨⟨task, hMem, hReady, rfl⟩, by omega⟩)
    · intro hSlot
      obtain ⟨-, hAhead⟩ := mem_slotIds_iff.mp hSlot
      omega

theorem recovery_extended {t : TickState σ δ γ} {tick : Tick Key σ δ γ}
    (h : ∀ task ∈ foreign, task.assignedTo ≠ tick.orchestrator.agentId)
    (process : Nat → ProcessEnv) :
    (recovery t (extended tick foreign process)).2 = (recovery t tick).2 := by
  unfold recovery reconcileExecutingTasks
  simp only [extended, List.filter_append]
  exact reconcileLoop_foreign (fun task hTask => h task (List.mem_of_mem_filter hTask)) ..

/-- The extended tick is the tick over the ids that still get a slot. -/
theorem tickHandOvers_extended {crypto : Crypto Key} {regexNew : RegexNew} {order : EvictionOrder}
    {t : TickState σ δ γ} {tick : Tick Key σ δ γ}
    (h : Foreign tick.orchestrator.agentId tick.input.snapshot foreign)
    (process : Nat → ProcessEnv) :
    tickHandOvers crypto regexNew order t (extended tick foreign process) =
      (attemptLoop crypto regexNew order tick.orchestrator tick.store tick.dispatcher
        tick.input.snapshot process 0
        ((runnableIds tick.scheduler tick.input.snapshot).filter fun taskId =>
          taskId ∈ slotIds tick.scheduler tick.input.snapshot (tick.scheduler.maxInvocations -
            (runningCount tick.input.snapshot + foreign.length)))
        { prepared t tick with world := (recovery t tick).2 }).1 := by
  rw [tickHandOvers, recovery_extended h.others]
  change (attemptLoop crypto regexNew order tick.orchestrator tick.store tick.dispatcher
    (tick.input.snapshot ++ foreign) process 0
    (runnableIds tick.scheduler (tick.input.snapshot ++ foreign)) _).1 = _
  rw [runnableIds_append h]
  refine congrArg Prod.fst (attemptLoop_append h process 0 (fun taskId hId => ?_) _)
  exact slotIds_subset (mem_runnableIds_iff.mp (List.mem_of_mem_filter hId))

end Ticks

/-- Executing tasks of other agents leave what a tick hands over unchanged exactly when every ready
task with a place, not attempted yet, keeps it. -/
theorem foreign_tasks_spend_capacity {Key σ δ γ : Type} (crypto : Crypto Key) (regexNew : RegexNew)
    (order : EvictionOrder) (t : TickState σ δ γ) (tick : Tick Key σ δ γ)
    (foreign : List TaskState) (process : Nat → ProcessEnv)
    (hForeign : Foreign tick.orchestrator.agentId tick.input.snapshot foreign)
    (hCalls : SameCalls (tickHandOvers crypto regexNew order t tick) tick.input.process
      (tickHandOvers crypto regexNew order t (extended tick foreign process)) process) :
    (tickHandOvers crypto regexNew order t tick).map HandOver.task =
        (tickHandOvers crypto regexNew order t (extended tick foreign process)).map HandOver.task ↔
      KeepsPlaces tick.scheduler tick.input.snapshot t.attempted foreign.length := by
  rw [tickHandOvers_extended hForeign] at hCalls ⊢
  rw [keepsPlaces_iff]
  constructor
  · intro hSame taskId hId hDropped task hTask
    by_contra hFresh
    have hHanded : task ∈ (tickHandOvers crypto regexNew order t tick).map HandOver.task :=
      handed_of_fresh (tick_loop t tick) hId hTask hFresh
    rw [hSame] at hHanded
    obtain ⟨handOver, hMem, rfl⟩ := List.mem_map.mp hHanded
    have hListed := taskId_of_handOver (loop ..) hMem
    rw [taskId_of_taskWith hTask, List.mem_filter, decide_eq_true_iff] at hListed
    exact hDropped hListed.2
  · intro hSkipped
    refine handed_filter (tick_loop t tick) (loop ..) (fun taskId hId hDropped => ?_) hCalls
    exact hSkipped taskId hId (of_decide_eq_false hDropped)

def sampleEnv : ProcessEnv :=
  ⟨"inv-1", "2026-06-01T00:00:00Z", 0, .ok (), 0, .ok (), .ok (), .ok ()⟩

def builderTick (slots : Nat) : Tick Unit Unit Unit Unit where
  scheduler := ⟨"@builder", slots, false⟩
  orchestrator := builder
  store := refusingStore
  dispatcher := failingDispatcher
  storeState := ()
  dispatcherState := ()
  gateState := ()
  replay := none
  input := ⟨[toolTask "a"], ∅, fun _ => "2026-06-01T00:00:00Z", fun _ => sampleEnv⟩

def testerTask : TaskState :=
  { toolTask "z" with
    state := stateExecuting
    assignedTo := "@tester" }

def idle : TickState Unit Unit Unit := ⟨⟨(), (), (), none, []⟩, ∅, ∅⟩

def handedAlone (slots : Nat) : List TaskState :=
  (tickHandOvers noCrypto (fun _ => none) .byNonce idle (builderTick slots)).map HandOver.task

def handedNext (slots : Nat) : List TaskState :=
  (tickHandOvers noCrypto (fun _ => none) .byNonce idle
    (extended (builderTick slots) [testerTask] fun _ => sampleEnv)).map HandOver.task

theorem tester_is_foreign (slots : Nat) :
    Foreign (builderTick slots).orchestrator.agentId (builderTick slots).input.snapshot
      [testerTask] := by
  constructor <;> simp [testerTask, builderTick, toolTask, buildNewTask, builder]

/-- With two slots there is one for the builder. -/
theorem two_slots_suffice : handedAlone 2 = [toolTask "a"] ∧ handedAlone 2 = handedNext 2 := by
  refine ⟨by decide +kernel, ?_⟩
  refine (foreign_tasks_spend_capacity noCrypto (fun _ => none) .byNonce idle (builderTick 2)
    [testerTask] (fun _ => sampleEnv) (tester_is_foreign 2) fun _ _ _ _ _ => rfl).mpr ?_
  unfold KeepsPlaces
  decide +kernel

/-- With one slot the other agent's task takes it. -/
theorem one_slot_is_spent :
    Foreign (builderTick 1).orchestrator.agentId (builderTick 1).input.snapshot [testerTask] ∧
      handedAlone 1 = [toolTask "a"] ∧ handedNext 1 = [] :=
  ⟨tester_is_foreign 1, by decide +kernel⟩

end MxAgent.System.ForeignTasks
