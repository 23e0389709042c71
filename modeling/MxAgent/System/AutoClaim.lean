import MxAgent.System.SchedulerAgreement

/-! An agent with auto-claim is meant to take up work that is assigned to nobody, and no other
agent's. The scheduler and the orchestrator read the assignment differently: with the flag set,
the scheduler no longer looks at it, while the orchestrator still runs only what is assigned to
its own agent. -/
namespace MxAgent.System.AutoClaim

open Protocol Daemon TaskOrchestrator SchedulerAgreement

/-- A new task for anyone to take, with nothing left to wait for. -/
structure IsOpen (tasks : List TaskState) (task : TaskState) : Prop where
  unassigned : task.assignedTo = ""
  pending : task.state = statePending
  dependencies : ∀ dep ∈ task.dependsOn,
    ∃ other ∈ tasks, other.taskId = dep ∧ other.state = stateSucceeded
  action : (actionFromTask task).isOk

def AcceptsWrites {σ : Type} (store : TaskStore σ) : Prop :=
  ∀ state options, (store.claim state options).1.isOk ∧
    (store.finalize state options).1.isOk

/-- Any orchestrator of the agent claims and dispatches the task, if every gate lets it through and
writes are accepted. -/
def IsTakenUp (agentId : String) (tasks : List TaskState) (task : TaskState) : Prop :=
  ∀ (Key σ δ γ : Type) (crypto : Crypto Key) (regexNew : RegexNew) (order : EvictionOrder)
    (orchestrator : TaskOrchestrator Key γ) (store : TaskStore σ) (dispatcher : TaskDispatcher δ)
    (env : ProcessEnv) (w : World σ δ γ) (action : TaskAction) (allowance : Allowance),
    orchestrator.agentId = agentId → actionFromTask task = .ok action →
    Passed crypto regexNew order orchestrator env task action allowance w → AcceptsWrites store →
    ∃ marks claimed rest,
      (processOne crypto regexNew order orchestrator store dispatcher env task tasks w).2.log =
        w.log ++ marks ++ [.claimed (claimOptions orchestrator env task) (.ok claimed),
          .dispatched claimed action env.invocationId allowance] ++ rest

structure TakesOpenWorkOnly (scheduler : TaskScheduler) (tasks : List TaskState)
    (running : Nat) : Prop where
  only : ∀ task ∈ tasks, .runnable task.taskId ∈ scheduler.decide tasks running →
    task.assignedTo = scheduler.agentId ∨ task.assignedTo = ""
  takes : ∀ task ∈ tasks, IsOpen tasks task →
    .runnable task.taskId ∈ scheduler.decide tasks running ∧
      IsTakenUp scheduler.agentId tasks task

/-! ## The orchestrator -/

variable {task : TaskState}

/-- A task that is the agent's own, and could run, is taken up. -/
theorem isTakenUp_of_assigned {agentId : String} {tasks : List TaskState}
    (hAssigned : task.assignedTo = agentId) (hState : isRunnable task.state)
    (hDeps : ∀ dep ∈ task.dependsOn,
      ∃ other ∈ tasks, other.taskId = dep ∧ other.state = stateSucceeded) :
    IsTakenUp agentId tasks task := by
  intro Key σ δ γ crypto regexNew order orchestrator store dispatcher env w action allowance
    hAgent hAction hPassed hStore
  have hEligible : Eligible orchestrator task tasks := ⟨hAssigned.trans hAgent.symm, hState, hDeps⟩
  obtain ⟨marks, hCleared, -⟩ := hPassed.cleared_log
  rcases @processOne_eligible _ _ _ _ crypto regexNew order orchestrator store dispatcher env task
      tasks w with ⟨parsed, -, hParsed, -, hLet⟩ | ⟨hNot, -⟩
  · obtain rfl : parsed = action := by
      rw [hParsed] at hAction
      exact Except.ok.inj hAction
    rw [hLet allowance _ hPassed.gateAction_eq]
    rcases claimAndDispatch_cases rfl with
      ⟨claimed, terminal, result, written, hLog, -⟩ | ⟨error, hLog, -⟩
    · refine ⟨marks, claimed, [.finalized (finalOptions task claimed terminal result) written], ?_⟩
      rw [hLog, hCleared, List.append_assoc (w.log ++ marks)]
      rfl
    · -- a store that accepts writes has not refused the claim
      have hAccepts := (hStore (cleared order orchestrator env task parsed allowance w).store
        (claimOptions orchestrator env task)).1
      have hEntry := List.append_cancel_left hLog
      simp only [List.cons.injEq, TaskEffect.claimed.injEq, true_and, and_true] at hEntry
      rw [hEntry] at hAccepts
      cases hAccepts
  · exact absurd hAction (hNot hEligible action)

def bareOrchestrator (agentId : String) : TaskOrchestrator Unit Unit :=
  ⟨agentId, none, none, none, ∅, none⟩

def acceptingStore (task : TaskState) : TaskStore Unit where
  claim store _ := (.ok task, store)
  finalize store _ := (.ok task, store)

def freshWorld : World Unit Unit Unit := ⟨(), (), (), none, []⟩

def sampleEnv : ProcessEnv :=
  ⟨"inv-1", "2026-06-01T00:00:00Z", 0, .ok (), 0, .ok (), .ok (), .ok ()⟩

theorem passed_bareOrchestrator (agentId : String) (task : TaskState) (action : TaskAction) :
    Passed noCrypto (fun _ => none) .byNonce (bareOrchestrator agentId) sampleEnv task action
      Allowance.empty freshWorld where
  verified := rfl
  granted := rfl
  approved hApproval := nomatch hApproval
  admitted _ hReplay := nomatch hReplay

/-- A task of someone else, or of nobody, is turned away whatever the gates say. -/
theorem not_isTakenUp {agentId : String} {tasks : List TaskState}
    (hAssigned : task.assignedTo ≠ agentId) (hAction : (actionFromTask task).isOk) :
    ¬ IsTakenUp agentId tasks task := by
  intro hTaken
  obtain ⟨action, hParsed⟩ := Fallible.isOk_iff.mp hAction
  obtain ⟨marks, claimed, rest, hLog⟩ := hTaken Unit Unit Unit Unit noCrypto (fun _ => none)
    .byNonce (bareOrchestrator agentId) (acceptingStore task) failingDispatcher sampleEnv
    freshWorld action Allowance.empty rfl hParsed (passed_bareOrchestrator agentId task action)
    (fun _ _ => ⟨rfl, rfl⟩)
  have hAway : task.assignedTo ≠ (bareOrchestrator agentId).agentId := hAssigned
  simp [processOne, clearTask, hAway, freshWorld] at hLog

/-! ## The scheduler -/

section Scheduler

variable {scheduler : TaskScheduler} {tasks : List TaskState} {running : Nat}

/-- With auto-claim, a task is ready whoever it is assigned to. -/
theorem isReady_autoClaim (hAuto : scheduler.autoClaim) :
    isReady scheduler tasks task ↔ isRunnable task.state ∧
      (∀ dep ∈ task.dependsOn, ∃ other ∈ tasks, other.taskId = dep ∧ other.state = stateSucceeded) ∧
      (actionFromTask task).isOk := by
  rw [isReady_iff, unmetDependencies_eq_nil_iff]
  simp [TaskScheduler.isClaimable, hAuto]

/-- With a slot for every ready task, those are the ones to run. -/
theorem runnable_mem_decide_iff_isReady (hDistinct : (tasks.map TaskState.taskId).Nodup)
    (hCapacity : (readyTasks scheduler tasks).length + running ≤ scheduler.maxInvocations)
    (hTask : task ∈ tasks) :
    .runnable task.taskId ∈ scheduler.decide tasks running ↔
      isReady scheduler tasks task := by
  constructor
  · exact isReady_of_runnable_mem hDistinct hTask
  · intro hReady
    rw [runnable_mem_decide_iff, List.take_of_length_le (by omega)]
    exact List.mem_map_of_mem (mem_readyTasks.mpr ⟨hTask, hReady⟩)

end Scheduler

/-! ## Together -/

/-- With auto-claim and capacity, the open work alone is taken up exactly if every task that could
run is the agent's own, or nobody's and no longer pending. -/
theorem takesOpenWorkOnly_iff {scheduler : TaskScheduler} (hAuto : scheduler.autoClaim)
    {tasks : List TaskState} (hDistinct : (tasks.map TaskState.taskId).Nodup) {running : Nat}
    (hCapacity : (readyTasks scheduler tasks).length + running ≤ scheduler.maxInvocations) :
    TakesOpenWorkOnly scheduler tasks running ↔
      ∀ task ∈ tasks, isRunnable task.state →
        (∀ dep ∈ task.dependsOn,
          ∃ other ∈ tasks, other.taskId = dep ∧ other.state = stateSucceeded) →
        (actionFromTask task).isOk →
        task.assignedTo = scheduler.agentId ∨
          task.assignedTo = "" ∧ task.state ≠ statePending := by
  constructor
  · intro hLaw task hTask hState hDeps hAction
    have hReady : isReady scheduler tasks task :=
      (isReady_autoClaim hAuto).mpr ⟨hState, hDeps, hAction⟩
    have hRuns := (runnable_mem_decide_iff_isReady hDistinct hCapacity hTask).mpr hReady
    by_cases hOwn : task.assignedTo = scheduler.agentId
    · exact .inl hOwn
    · right
      have hNobody := (hLaw.only task hTask hRuns).resolve_left hOwn
      refine ⟨hNobody, fun hPending => ?_⟩
      exact not_isTakenUp hOwn hAction (hLaw.takes task hTask ⟨hNobody, hPending, hDeps, hAction⟩).2
  · intro hWhen
    constructor
    · intro task hTask hRuns
      obtain ⟨hState, hDeps, hAction⟩ := (isReady_autoClaim hAuto).mp
        ((runnable_mem_decide_iff_isReady hDistinct hCapacity hTask).mp hRuns)
      exact (hWhen task hTask hState hDeps hAction).imp_right And.left
    · intro task hTask hOpen
      have hState : isRunnable task.state := by rw [hOpen.pending]; rfl
      have hReady := (isReady_autoClaim hAuto).mpr ⟨hState, hOpen.dependencies, hOpen.action⟩
      refine ⟨(runnable_mem_decide_iff_isReady hDistinct hCapacity hTask).mpr hReady, ?_⟩
      -- an open task that is the agent's own: the agent has the empty name
      have hOwn := (hWhen task hTask hState hOpen.dependencies hOpen.action).resolve_right
        fun hOther => hOther.2 hOpen.pending
      exact isTakenUp_of_assigned hOwn hState hOpen.dependencies

def claimingBuilder : TaskScheduler := ⟨"@builder", 4, true⟩

/-- The builder's own work is scheduled and taken up. -/
theorem own_task_is_taken : TakesOpenWorkOnly claimingBuilder [toolTask "a"] 0 :=
  (takesOpenWorkOnly_iff rfl (by decide +kernel) (by decide +kernel)).mpr (by
    intro task hTask _ _ _
    rw [List.mem_singleton.mp hTask]
    exact .inl rfl)

def testersTask : TaskState := { toolTask "a" with assignedTo := "@tester" }

def openTask : TaskState := { toolTask "b" with state := statePending, assignedTo := "" }

/-- The builder's scheduler picks the tester's task, and its orchestrator turns away the open
one. -/
theorem open_work_is_turned_away :
    claimingBuilder.decide [testersTask, openTask] 0 = [.runnable "a", .runnable "b"] ∧
      (processOne noCrypto (fun _ => none) .byNonce (bareOrchestrator "@builder")
        (acceptingStore openTask) failingDispatcher sampleEnv openTask [testersTask, openTask]
        freshWorld).1 = .notAssigned "b" ∧
      ¬ TakesOpenWorkOnly claimingBuilder [testersTask] 0 ∧
      ¬ TakesOpenWorkOnly claimingBuilder [openTask] 0 := by
  refine ⟨by decide +kernel, by decide +kernel, fun hLaw => ?_, fun hLaw => ?_⟩
  · have hOnly := hLaw.only testersTask (List.mem_singleton_self _) (by decide +kernel)
    revert hOnly
    decide +kernel
  · have hOpen : IsOpen [openTask] openTask :=
      ⟨rfl, rfl, fun _ hDep => absurd hDep List.not_mem_nil, by decide +kernel⟩
    exact not_isTakenUp (by decide +kernel) (by decide +kernel)
      (hLaw.takes openTask (List.mem_singleton_self _) hOpen).2

end MxAgent.System.AutoClaim
