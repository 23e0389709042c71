import MxAgent.Daemon.SchedulerLoop

/-! Reconciliation after a restart. Every executing task of a snapshot gets one turn, in
the order of the snapshot. A turn writes at most once, and only an executing task of the
agent itself whose invocation is not live: with the outcome of the invocation if that has
ended, and as failed if nothing is known of it. -/
namespace MxAgent.System.RestartReconciliation

open Protocol Daemon TaskOrchestrator Std

def entry (invocations : ExtTreeMap String InvocationState) (task : TaskState) :
    Option InvocationState :=
  task.invocationId.bind (invocations[·]?)

/-- The state an executing task has to be given, if any: not a task of another agent, or with a live
or unfinished invocation. -/
def writtenState (agentId : String) (liveInvocations : Finset String)
    (invocations : ExtTreeMap String InvocationState) (task : TaskState) : Option String :=
  if task.assignedTo = agentId ∧ ∀ invocationId ∈ task.invocationId, invocationId ∉ liveInvocations
  then match entry invocations task with
    | some invocation => taskStateForInvocation invocation.state
    | none => some stateFailed
  else none

def leftAs (agentId : String) (liveInvocations : Finset String) (task : TaskState) :
    OrchestrationOutcome :=
  if task.assignedTo ≠ agentId then .staleRemoteExecuting task.taskId task.assignedTo
  else if isLive task liveInvocations then .notRunnableState task.taskId task.state
  else .stillRunningInvocation task.taskId

/-- The outcome of a task that is written, by the answer of the store. -/
def answeredAs (invocations : ExtTreeMap String InvocationState) (task : TaskState) :
    Except TaskStoreError TaskState → OrchestrationOutcome
  | .error error => .storeError task.taskId error
  | .ok finalized =>
    if (entry invocations task).isSome then .reconciledInvocation finalized.taskId finalized.state
    else .recoveredStale finalized.taskId

/-- A turn: the outcome for its task and the calls it makes. -/
def Reconciled (agentId : String) (liveInvocations : Finset String)
    (invocations : ExtTreeMap String InvocationState) (task : TaskState)
    (turn : OrchestrationOutcome × List TaskEffect) : Prop :=
  match writtenState agentId liveInvocations invocations task with
  | none => turn = (leftAs agentId liveInvocations task, [])
  | some state =>
    ∃ (options : UpdateTaskOptions) (answer : Except TaskStoreError TaskState),
      turn = (answeredAs invocations task answer, [.finalized options answer]) ∧
      options.taskId = task.taskId ∧ options.state = some state ∧
      options.expectedStateRev = some task.stateRev

def OnlyStored {σ δ γ : Type} (before after : World σ δ γ) : Prop :=
  after.dispatcher = before.dispatcher ∧ after.gate = before.gate ∧ after.replay = before.replay

variable {Key σ δ γ : Type} {orchestrator : TaskOrchestrator Key γ} {store : TaskStore σ}
  {liveInvocations : Finset String} {invocations : ExtTreeMap String InvocationState}
  {task : TaskState}

theorem OnlyStored.trans {first second third : World σ δ γ} (h : OnlyStored first second)
    (hNext : OnlyStored second third) : OnlyStored first third :=
  ⟨hNext.1.trans h.1, hNext.2.1.trans h.2.1, hNext.2.2.trans h.2.2⟩

theorem isLive_eq_false_iff :
    isLive task liveInvocations = false ↔
      ∀ invocationId ∈ task.invocationId, invocationId ∉ liveInvocations := by
  unfold isLive
  cases task.invocationId <;> simp

/-- The states that end an invocation are the ones that have a task state. -/
theorem invocationIsTerminal_eq (state : String) :
    invocationIsTerminal state = (taskStateForInvocation state).isSome := by
  unfold invocationIsTerminal taskStateForInvocation
  by_cases hSucceeded : state = stateSucceeded
  · simp [hSucceeded]
  by_cases hFailed : state = stateFailed
  · rw [if_neg hSucceeded, if_pos hFailed]
    simp [hFailed]
  by_cases hCancelled : state = stateCancelled
  · rw [if_neg hSucceeded, if_neg hFailed, if_pos hCancelled]
    simp [hCancelled]
  · simp [hSucceeded, hFailed, hCancelled]

/-- A call that is a task's turn: its calls are added to the log, and nothing else changes. -/
def TurnOf (agentId : String) (liveInvocations : Finset String)
    (invocations : ExtTreeMap String InvocationState) (task : TaskState) (w : World σ δ γ)
    (call : OrchestrationOutcome × World σ δ γ) : Prop :=
  ∃ calls, call.2.log = w.log ++ calls ∧
    Reconciled agentId liveInvocations invocations task (call.1, calls) ∧ OnlyStored w call.2

theorem turnOf_left {agentId : String} {w : World σ δ γ}
    (h : writtenState agentId liveInvocations invocations task = none) :
    TurnOf agentId liveInvocations invocations task w
      (leftAs agentId liveInvocations task, w) := by
  refine ⟨[], (List.append_nil _).symm, ?_, rfl, rfl, rfl⟩
  rw [Reconciled, h]

/-- Both recoveries name what the store has written in a way of their own. -/
theorem turnOf_written {agentId state : String} {w : World σ δ γ} {result : Value}
    {named : TaskState → OrchestrationOutcome}
    (h : writtenState agentId liveInvocations invocations task = some state)
    (hNamed : ∀ finalized, answeredAs invocations task (.ok finalized) = named finalized) :
    TurnOf agentId liveInvocations invocations task w
      (match finalizeTask store (recoveryOptions task state result) w with
        | (.ok finalized, w) => (named finalized, w)
        | (.error error, w) => (.storeError task.taskId error, w)) := by
  have hCall : (match finalizeTask store (recoveryOptions task state result) w with
      | (.ok finalized, w) => (named finalized, w)
      | (.error error, w) => (.storeError task.taskId error, w)) =
        (answeredAs invocations task (finalizeTask store (recoveryOptions task state result) w).1,
          (finalizeTask store (recoveryOptions task state result) w).2) := by
    split
    · rename_i hFinal
      rw [hFinal, hNamed]
    · rename_i hFinal
      rw [hFinal]
      rfl
  rw [hCall]
  refine ⟨_, rfl, ?_, rfl, rfl, rfl⟩
  rw [Reconciled, h]
  exact ⟨_, _, rfl, rfl, rfl, rfl⟩

theorem reconcileTask_dead (store : TaskStore σ) (completedAt : String)
    (hExecuting : task.state = stateExecuting) (hOwned : task.assignedTo = orchestrator.agentId)
    (hLive : isLive task liveInvocations = false) (w : World σ δ γ) :
    TurnOf orchestrator.agentId liveInvocations invocations task w
      (reconcileTask orchestrator store completedAt task liveInvocations invocations w) := by
  have hWritten : writtenState orchestrator.agentId liveInvocations invocations task = _ :=
    if_pos ⟨hOwned, isLive_eq_false_iff.mp hLive⟩
  unfold reconcileTask
  rw [if_neg (not_not.mpr hOwned), if_neg (by simp [hLive])]
  change TurnOf _ _ _ _ _ (match entry invocations task with | some _ => _ | none => _)
  cases hEntry : entry invocations task with
  | none =>
    rw [hEntry] at hWritten
    simp only [recoverStaleExecuting, hOwned, hExecuting, hLive, ne_eq, not_true_eq_false,
      or_self, if_false, Bool.false_eq_true]
    exact turnOf_written hWritten fun _ => by simp [answeredAs, hEntry]
  | some invocation =>
    rw [hEntry] at hWritten
    dsimp only at hWritten ⊢
    rw [invocationIsTerminal_eq]
    cases hState : taskStateForInvocation invocation.state with
    | none =>
      rw [hState] at hWritten
      have hLeft : OrchestrationOutcome.stillRunningInvocation task.taskId =
          leftAs orchestrator.agentId liveInvocations task := by
        simp [leftAs, hOwned, hLive]
      rw [if_neg (by simp), hLeft]
      exact turnOf_left hWritten
    | some state =>
      rw [hState] at hWritten
      simp only [Option.isSome_some, if_true, reconcileTerminalInvocation, hState,
        Option.getD_some]
      exact turnOf_written hWritten fun _ => by simp [answeredAs, hEntry]

theorem reconcileTask_turnOf (store : TaskStore σ) (completedAt : String)
    (hExecuting : task.state = stateExecuting) (w : World σ δ γ) :
    TurnOf orchestrator.agentId liveInvocations invocations task w
      (reconcileTask orchestrator store completedAt task liveInvocations invocations w) := by
  by_cases hDead : task.assignedTo = orchestrator.agentId ∧ isLive task liveInvocations = false
  · exact reconcileTask_dead store completedAt hExecuting hDead.1 hDead.2 w
  · have hCall : reconcileTask orchestrator store completedAt task liveInvocations invocations w =
        (leftAs orchestrator.agentId liveInvocations task, w) := by
      by_cases hOwned : task.assignedTo = orchestrator.agentId
      · have hLive : isLive task liveInvocations := by
          simpa [hOwned] using hDead
        simp [reconcileTask, leftAs, hOwned, hLive]
      · simp [reconcileTask, leftAs, hOwned]
    rw [hCall]
    exact turnOf_left (if_neg fun h => hDead ⟨h.1, isLive_eq_false_iff.mpr h.2⟩)

theorem reconcileLoop_turns (completedAt : Nat → String) (turn : Nat) {tasks : List TaskState}
    (hExecuting : ∀ task ∈ tasks, task.state = stateExecuting) (w : World σ δ γ) :
    let call := reconcileLoop orchestrator store completedAt liveInvocations invocations
      turn tasks w
    ∃ turns : List (OrchestrationOutcome × List TaskEffect),
      call.1 = turns.map Prod.fst ∧ call.2.log = w.log ++ (turns.map Prod.snd).flatten ∧
      List.Forall₂ (Reconciled orchestrator.agentId liveInvocations invocations) tasks turns ∧
      OnlyStored w call.2 := by
  induction tasks generalizing turn w with
  | nil => exact ⟨[], rfl, by simp [reconcileLoop], .nil, rfl, rfl, rfl⟩
  | cons task rest ih =>
    obtain ⟨hTask, hRest⟩ := List.forall_mem_cons.mp hExecuting
    obtain ⟨calls, hLog, hReconciled, hStored⟩ :=
      reconcileTask_turnOf store (completedAt turn) hTask w
    obtain ⟨turns, hOutcomes, hLater, hTurns, hLaterStored⟩ := ih (turn + 1) hRest
      (reconcileTask orchestrator store (completedAt turn) task liveInvocations invocations w).2
    refine ⟨(_, calls) :: turns, ?_, ?_, .cons hReconciled hTurns, hStored.trans hLaterStored⟩
    · rw [List.map_cons, ← hOutcomes]
      rfl
    · rw [List.map_cons, List.flatten_cons, ← List.append_assoc, ← hLog]
      exact hLater

end MxAgent.System.RestartReconciliation
