import MxAgent.Daemon.TaskGates
import MxAgent.Daemon.TaskSession
import MxAgent.Foundations.Ranking

/-! The scheduler and the orchestrator test on their own whether a task can run. They agree:
the scheduler picks, up to its capacity, just the tasks that the orchestrator would run. -/
namespace MxAgent.System.SchedulerAgreement

open Protocol Daemon TaskOrchestrator
open TaskScheduler (evaluate_taskId decideFrom_cons_other decideFrom_cons_full decideFrom_cons_slot)

/-! ## The decisions of the scheduler -/

variable {task : TaskState}

section Scheduler

variable (scheduler : TaskScheduler) (tasks : List TaskState)

def isReady (task : TaskState) : Bool := (scheduler.evaluate task tasks).isRunnable

def isAtCapacity : ScheduleDecision → Bool
  | .atCapacity _ => true
  | _ => false

variable {scheduler tasks}

/-- The four tests of `evaluate`. A terminal state is not a runnable one. -/
theorem isReady_iff :
    isReady scheduler tasks task ↔
      isRunnable task.state ∧ scheduler.isClaimable task ∧
        unmetDependencies task (succeededIds tasks) = [] ∧ (actionFromTask task).isOk := by
  have hTerminal (h : isTerminal task.state) : isRunnable task.state = false := by
    simp only [isTerminal, Bool.or_eq_true, beq_iff_eq, or_assoc] at h
    rcases h with hState | hState | hState | hState <;> simp [isRunnable, hState] <;> decide
  unfold isReady TaskScheduler.evaluate
  split
  · rename_i hState
    simp [ScheduleDecision.isRunnable, hTerminal hState]
  split
  · rename_i hState
    simp [ScheduleDecision.isRunnable, (Bool.not_eq_true' _).mp hState]
  split
  · rename_i hClaim
    simp [ScheduleDecision.isRunnable, (Bool.not_eq_true' _).mp hClaim]
  rename_i hState hClaim
  split
  · rename_i hWaiting
    simp [ScheduleDecision.isRunnable, hWaiting]
  · rename_i hWaiting
    cases hAction : actionFromTask task with
    | error error => simp [ScheduleDecision.isRunnable, Except.isOk, Except.toBool]
    | ok action =>
      have hState : isRunnable task.state := by simpa using hState
      have hClaim : scheduler.isClaimable task := by simpa using hClaim
      simp [ScheduleDecision.isRunnable, hWaiting, Except.isOk, Except.toBool, hState, hClaim]

theorem evaluate_of_isReady (h : isReady scheduler tasks task) :
    scheduler.evaluate task tasks = .runnable task.taskId := by
  have hId : (scheduler.evaluate task tasks).taskId = task.taskId := evaluate_taskId task
  unfold isReady at h
  cases hDecision : scheduler.evaluate task tasks <;> rw [hDecision] at h hId <;> cases h
  exact congrArg _ hId

theorem not_isAtCapacity_evaluate (task : TaskState) :
    isAtCapacity (scheduler.evaluate task tasks) = false := by
  unfold TaskScheduler.evaluate
  split_ifs <;> try rfl
  split
  · rfl
  split <;> rfl

theorem decideFrom_taskId (remaining : Nat) (listed : List TaskState) :
    (scheduler.decideFrom tasks remaining listed).map ScheduleDecision.taskId =
      listed.map TaskState.taskId := by
  induction listed generalizing remaining with
  | nil => rfl
  | cons task rest ih =>
    rw [List.map_cons, ← ih remaining]
    cases hReady : isReady scheduler tasks task with
    | false => rw [decideFrom_cons_other hReady, List.map_cons, evaluate_taskId]
    | true =>
      cases remaining with
      | zero =>
        rw [decideFrom_cons_full (evaluate_of_isReady hReady), List.map_cons,
          ScheduleDecision.taskId]
      | succ slots =>
        rw [decideFrom_cons_slot (evaluate_of_isReady hReady), List.map_cons,
          ScheduleDecision.taskId, ih, ih]

/-- The ready tasks get the slots in their order; those left are told there is no capacity. -/
theorem decideFrom_filter {p : ScheduleDecision → Bool}
    (hOther : ∀ task, isReady scheduler tasks task = false →
      p (scheduler.evaluate task tasks) = false) (remaining : Nat) (listed : List TaskState) :
    (scheduler.decideFrom tasks remaining listed).filter p =
      (((listed.filter (isReady scheduler tasks)).take remaining).map
        fun task => .runnable task.taskId).filter p ++
      (((listed.filter (isReady scheduler tasks)).drop remaining).map
        fun task => .atCapacity task.taskId).filter p := by
  induction listed generalizing remaining with
  | nil => simp [TaskScheduler.decideFrom]
  | cons task rest ih =>
    cases hReady : isReady scheduler tasks task with
    | false =>
      rw [decideFrom_cons_other hReady, List.filter_cons_of_neg (by simp [hOther task hReady]),
        List.filter_cons_of_neg (by simp [hReady]), ih]
    | true =>
      rw [List.filter_cons_of_pos hReady]
      cases remaining with
      | zero =>
        rw [decideFrom_cons_full (evaluate_of_isReady hReady), List.filter_cons, ih]
        simp [List.filter_cons]
      | succ slots =>
        rw [decideFrom_cons_slot (evaluate_of_isReady hReady), List.filter_cons, ih]
        simp only [List.take_succ_cons, List.drop_succ_cons, List.map_cons, List.filter_cons]
        split <;> rfl

def byTaskId (tasks : List TaskState) : List TaskState :=
  tasks.insertionSort fun left right => left.taskId ≤ right.taskId

def readyTasks (scheduler : TaskScheduler) (tasks : List TaskState) : List TaskState :=
  byTaskId (tasks.filter (isReady scheduler tasks))

instance : Std.Total fun left right : TaskState => left.taskId ≤ right.taskId :=
  ⟨fun left right => le_total left.taskId right.taskId⟩

instance : IsTrans TaskState fun left right => left.taskId ≤ right.taskId :=
  ⟨fun _ _ _ => le_trans⟩

theorem filter_byTaskId (p : TaskState → Bool) (tasks : List TaskState) :
    (byTaskId tasks).filter p = byTaskId (tasks.filter p) :=
  Ranking.filter_insertionSort p tasks

theorem decide_runnable (running : Nat) :
    (scheduler.decide tasks running).filter ScheduleDecision.isRunnable =
      ((readyTasks scheduler tasks).take (scheduler.maxInvocations - running)).map
        fun task => .runnable task.taskId := by
  rw [readyTasks, ← filter_byTaskId]
  refine (decideFrom_filter (fun _ h => h) _ _).trans ?_
  simp only [List.filter_map, Function.comp_def, ScheduleDecision.isRunnable, List.filter_true,
    List.filter_false, List.map_nil, List.append_nil, byTaskId]

theorem decide_atCapacity (running : Nat) :
    (scheduler.decide tasks running).filter isAtCapacity =
      ((readyTasks scheduler tasks).drop (scheduler.maxInvocations - running)).map
        fun task => .atCapacity task.taskId := by
  rw [readyTasks, ← filter_byTaskId]
  refine (decideFrom_filter (fun task _ => not_isAtCapacity_evaluate task) _ _).trans ?_
  simp only [List.filter_map, Function.comp_def, isAtCapacity, List.filter_true,
    List.filter_false, List.map_nil, List.nil_append, byTaskId]

theorem runnable_mem_decide_iff {running : Nat} {taskId : String} :
    .runnable taskId ∈ scheduler.decide tasks running ↔
      taskId ∈ ((readyTasks scheduler tasks).take (scheduler.maxInvocations - running)).map
        TaskState.taskId := by
  have hMem : .runnable taskId ∈ scheduler.decide tasks running ↔
      .runnable taskId ∈ (scheduler.decide tasks running).filter ScheduleDecision.isRunnable := by
    simp [ScheduleDecision.isRunnable]
  rw [hMem, decide_runnable]
  simp only [List.mem_map, ScheduleDecision.runnable.injEq]

theorem atCapacity_mem_decide_iff {running : Nat} {taskId : String} :
    .atCapacity taskId ∈ scheduler.decide tasks running ↔
      taskId ∈ ((readyTasks scheduler tasks).drop (scheduler.maxInvocations - running)).map
        TaskState.taskId := by
  have hMem : .atCapacity taskId ∈ scheduler.decide tasks running ↔
      .atCapacity taskId ∈ (scheduler.decide tasks running).filter isAtCapacity := by
    simp [isAtCapacity]
  rw [hMem, decide_atCapacity]
  simp only [List.mem_map, ScheduleDecision.atCapacity.injEq]

theorem mem_readyTasks :
    task ∈ readyTasks scheduler tasks ↔ task ∈ tasks ∧ isReady scheduler tasks task := by
  rw [readyTasks, byTaskId, List.mem_insertionSort, List.mem_filter]

/-- Where ids are distinct, a decision for the id of a task is about the task. -/
theorem isReady_of_runnable_mem {running : Nat} (hDistinct : (tasks.map TaskState.taskId).Nodup)
    (hTask : task ∈ tasks) (h : .runnable task.taskId ∈ scheduler.decide tasks running) :
    isReady scheduler tasks task := by
  obtain ⟨other, hOther, hId⟩ := List.mem_map.mp (runnable_mem_decide_iff.mp h)
  obtain ⟨hListed, hReady⟩ := mem_readyTasks.mp (List.mem_of_mem_take hOther)
  rwa [← List.inj_on_of_nodup_map hDistinct hListed hTask hId]

/-- A ready task is decided to run, or to wait for capacity. -/
theorem mem_decide_of_isReady (running : Nat) (hTask : task ∈ tasks)
    (h : isReady scheduler tasks task) :
    .runnable task.taskId ∈ scheduler.decide tasks running ∨
      .atCapacity task.taskId ∈ scheduler.decide tasks running := by
  have hMem : task ∈ readyTasks scheduler tasks := mem_readyTasks.mpr ⟨hTask, h⟩
  rw [← List.take_append_drop (scheduler.maxInvocations - running) (readyTasks scheduler tasks),
    List.mem_append] at hMem
  rw [runnable_mem_decide_iff, atCapacity_mem_decide_iff]
  exact hMem.imp List.mem_map_of_mem List.mem_map_of_mem

end Scheduler

/-! ## What the orchestrator does with a task -/

section Orchestrator

variable {Key σ δ γ : Type} {crypto : Crypto Key} {regexNew : RegexNew} {order : EvictionOrder}
  {orchestrator : TaskOrchestrator Key γ} {store : TaskStore σ} {dispatcher : TaskDispatcher δ}
  {env : ProcessEnv} {task : TaskState} {tasks : List TaskState}

/-- The tasks the orchestrator finds runnable, whose action parses. -/
def eligibleTasks (orchestrator : TaskOrchestrator Key γ) (tasks : List TaskState) :
    List TaskState :=
  (orchestrator.runnableTasks tasks).filter fun task => (actionFromTask task).isOk

/-- A task was turned away before anything was asked about its action. -/
def isTurnedAway : OrchestrationOutcome → Bool
  | .notAssigned _ | .notRunnableState .. | .blocked .. | .malformedAction .. => true
  | _ => false

/-- A gate that refuses an action gives another reason. -/
theorem isTurnedAway_of_isRefusal {outcome : OrchestrationOutcome} (h : IsRefusal outcome) :
    isTurnedAway outcome = false := by
  cases outcome <;> first | rfl | exact h.elim

theorem claimAndDispatch_outcome (action : TaskAction) (allowance : Allowance) (w : World σ δ γ) :
    isTurnedAway (claimAndDispatch orchestrator store dispatcher env task action allowance w).1 =
      false := by
  unfold claimAndDispatch dispatchClaimed
  split
  · dsimp only
    split
    · split <;> rfl
    · rfl
  · rfl
  · rfl

/-- A task is turned away exactly when not eligible, with no effect. -/
theorem processOne_turnedAway (w : World σ δ γ) :
    (Eligible orchestrator task tasks → (actionFromTask task).isOk →
      isTurnedAway (processOne crypto regexNew order orchestrator store dispatcher env task tasks
        w).1 = false) ∧
    (¬(Eligible orchestrator task tasks ∧ (actionFromTask task).isOk) →
      (processOne crypto regexNew order orchestrator store dispatcher env task tasks w).2 = w) := by
  rcases processOne_eligible tasks w with ⟨action, hEligible, hAction, hHeld, hLet⟩ | ⟨hNot, hSame⟩
  · refine ⟨fun _ _ => ?_, fun h => absurd ⟨hEligible, by simp [hAction, Except.isOk,
      Except.toBool]⟩ h⟩
    rcases gateAction_cases action w with
      ⟨-, outcome, after, hGates, hRefusal, -⟩ | ⟨allowance, -, hGates⟩
    · rw [hHeld outcome after hGates]
      exact isTurnedAway_of_isRefusal hRefusal
    · rw [hLet allowance _ hGates]
      exact claimAndDispatch_outcome ..
  · refine ⟨fun hEligible hOk => ?_, fun _ => hSame⟩
    obtain ⟨action, hAction⟩ := Fallible.isOk_iff.mp hOk
    exact absurd hAction (hNot hEligible action)

/-- Both tests are the same for an agent that claims nothing by itself. -/
theorem filter_isReady {scheduler : TaskScheduler}
    (hAgent : scheduler.agentId = orchestrator.agentId) (hClaim : scheduler.autoClaim = false) :
    tasks.filter (isReady scheduler tasks) = eligibleTasks orchestrator tasks := by
  rw [eligibleTasks, runnableTasks, List.filter_filter, List.filter_filter, List.filter_filter]
  refine List.filter_congr fun task _ => Bool.eq_iff_iff.mpr ?_
  rw [isReady_iff]
  simp only [TaskScheduler.isClaimable, hAgent, hClaim, Bool.false_or, Bool.and_eq_true,
    List.isEmpty_iff]
  tauto

theorem isReady_iff_eligible {scheduler : TaskScheduler}
    (hAgent : scheduler.agentId = orchestrator.agentId) (hClaim : scheduler.autoClaim = false) :
    isReady scheduler tasks task ↔
      Eligible orchestrator task tasks ∧ (actionFromTask task).isOk := by
  rw [isReady_iff, unmetDependencies_eq_nil_iff]
  simp only [TaskScheduler.isClaimable, hAgent, hClaim, Bool.false_or, beq_iff_eq]
  constructor
  · rintro ⟨hState, hAssigned, hDeps, hAction⟩
    exact ⟨⟨hAssigned, hState, hDeps⟩, hAction⟩
  · rintro ⟨hEligible, hAction⟩
    exact ⟨hEligible.runnable, hEligible.assigned, hEligible.dependencies, hAction⟩

end Orchestrator

/-- The decisions come one for each task in the order of ids; the slots go to the first tasks the
orchestrator finds runnable and whose action parses, and the others of these are told there is no
capacity. A runnable task is not turned away, and one neither runnable nor waiting for capacity is
left alone. -/
theorem scheduler_agrees {Key σ δ γ : Type} (crypto : Crypto Key) (regexNew : RegexNew)
    (order : EvictionOrder) (orchestrator : TaskOrchestrator Key γ) (store : TaskStore σ)
    (dispatcher : TaskDispatcher δ) (scheduler : TaskScheduler)
    (hAgent : scheduler.agentId = orchestrator.agentId) (hClaim : scheduler.autoClaim = false)
    (tasks : List TaskState) (hDistinct : (tasks.map TaskState.taskId).Nodup) (running : Nat) :
    ((scheduler.decide tasks running).map ScheduleDecision.taskId).Perm
        (tasks.map TaskState.taskId) ∧
    ((scheduler.decide tasks running).map ScheduleDecision.taskId).Pairwise (· < ·) ∧
    ((scheduler.decide tasks running).filter ScheduleDecision.isRunnable).map
        ScheduleDecision.taskId =
      ((byTaskId (eligibleTasks orchestrator tasks)).take
        (scheduler.maxInvocations - running)).map TaskState.taskId ∧
    ((scheduler.decide tasks running).filter isAtCapacity).map ScheduleDecision.taskId =
      ((byTaskId (eligibleTasks orchestrator tasks)).drop
        (scheduler.maxInvocations - running)).map TaskState.taskId ∧
    ∀ task ∈ tasks, ∀ (env : ProcessEnv) (w : World σ δ γ),
      (.runnable task.taskId ∈ scheduler.decide tasks running →
        isTurnedAway (processOne crypto regexNew order orchestrator store dispatcher env task tasks
          w).1 = false) ∧
      (.runnable task.taskId ∉ scheduler.decide tasks running →
        .atCapacity task.taskId ∉ scheduler.decide tasks running →
        (processOne crypto regexNew order orchestrator store dispatcher env task tasks
          w).2 = w) := by
  have hReady : readyTasks scheduler tasks = byTaskId (eligibleTasks orchestrator tasks) :=
    congrArg byTaskId (filter_isReady hAgent hClaim)
  have hIds : (scheduler.decide tasks running).map ScheduleDecision.taskId =
      (byTaskId tasks).map TaskState.taskId := decideFrom_taskId _ _
  have hPerm : ((byTaskId tasks).map TaskState.taskId).Perm (tasks.map TaskState.taskId) :=
    (List.perm_insertionSort _ tasks).map _
  refine ⟨hIds ▸ hPerm, ?_, ?_, ?_, ?_⟩
  · rw [hIds]
    have hLe : ((byTaskId tasks).map TaskState.taskId).Pairwise (· ≤ ·) :=
      List.pairwise_map.mpr (List.pairwise_insertionSort _ tasks)
    exact (hLe.and (hPerm.nodup_iff.mpr hDistinct)).imp fun h => lt_of_le_of_ne h.1 h.2
  · rw [decide_runnable, hReady, List.map_map]
    rfl
  · rw [decide_atCapacity, hReady, List.map_map]
    rfl
  · intro task hTask env w
    have hEligible : isReady scheduler tasks task ↔
        Eligible orchestrator task tasks ∧ (actionFromTask task).isOk :=
      isReady_iff_eligible hAgent hClaim
    constructor
    · intro hRunnable
      obtain ⟨hFound, hOk⟩ := hEligible.mp (isReady_of_runnable_mem hDistinct hTask hRunnable)
      exact (processOne_turnedAway w).1 hFound hOk
    · intro hNotRunnable hNotWaiting
      refine (processOne_turnedAway w).2 fun hBoth => ?_
      exact (mem_decide_of_isReady running hTask (hEligible.mpr hBoth)).elim hNotRunnable
        hNotWaiting

def toolTask (taskId : String) : TaskState :=
  buildNewTask ⟨some taskId, "", "", none, "@builder", none, [], [],
    some (.tool "run_tests" .null none)⟩ taskId "@operator:host" "2026-06-01T00:00:00Z"

def builder : TaskOrchestrator Unit Unit := ⟨"@builder", none, none, none, ∅, none⟩

def noCrypto : Crypto Unit := ⟨fun _ _ _ => none, fun _ => none, fun _ => ""⟩

def refusingStore : TaskStore Unit where
  claim store _ := (.error (.other "offline"), store)
  finalize store _ := (.error (.other "offline"), store)

def failingDispatcher : TaskDispatcher Unit where
  dispatch dispatcher _ _ _ _ := (.error (.failed "offline"), dispatcher)

def oneSlot : TaskScheduler := ⟨"@builder", 1, false⟩

/-- Of two tasks the one with the smaller id gets the slot. -/
theorem one_slot_agrees :
    oneSlot.decide [toolTask "b", toolTask "a"] 0 = [.runnable "a", .atCapacity "b"] ∧
    (byTaskId (eligibleTasks builder [toolTask "b", toolTask "a"])).map TaskState.taskId =
      ["a", "b"] ∧
    ((oneSlot.decide [toolTask "b", toolTask "a"] 0).filter ScheduleDecision.isRunnable).map
        ScheduleDecision.taskId =
      ((byTaskId (eligibleTasks builder [toolTask "b", toolTask "a"])).take 1).map
        TaskState.taskId := by
  refine ⟨by decide +kernel, by decide +kernel, ?_⟩
  exact (scheduler_agrees noCrypto (fun _ => none) .byNonce builder refusingStore failingDispatcher
    oneSlot rfl rfl [toolTask "b", toolTask "a"] (by decide +kernel) 0).2.2.1

end MxAgent.System.SchedulerAgreement
