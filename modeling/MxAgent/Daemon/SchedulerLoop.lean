import Mathlib.Data.Finset.Insert
import MxAgent.Daemon.ApprovalGate

/-! The scheduler loop: one tick over a snapshot of tasks. -/
namespace MxAgent.Daemon

open Protocol Std

def OrchestrationOutcome.claimedInvocationId : OrchestrationOutcome → Option String
  | .completed _ invocationId _ | .denied _ invocationId => some invocationId
  | _ => none

def OrchestrationOutcome.isAwaitingApproval : OrchestrationOutcome → Bool
  | .awaitingApproval .. => true
  | _ => false

namespace TaskOrchestrator

variable {Key σ δ γ : Type} (crypto : Crypto Key) (regexNew : RegexNew) (order : EvictionOrder)
  (orchestrator : TaskOrchestrator Key γ) (store : TaskStore σ) (dispatcher : TaskDispatcher δ)

def recoveryOptions (task : TaskState) (state : String) (result : Value) : UpdateTaskOptions where
  taskId := task.taskId
  state := some state
  assignedTo := none
  invocationId := none
  result := some result
  expectedStateRev := some task.stateRev

def isLive (task : TaskState) (liveInvocations : Finset String) : Bool :=
  match task.invocationId with
  | some invocationId => decide (invocationId ∈ liveInvocations)
  | none => false

def recoverStaleExecuting (completedAt : String) (task : TaskState)
    (liveInvocations : Finset String) (w : World σ δ γ) : OrchestrationOutcome × World σ δ γ :=
  if task.assignedTo ≠ orchestrator.agentId ∨ task.state ≠ stateExecuting then
    (.notRunnableState task.taskId task.state, w)
  else if isLive task liveInvocations then (.notRunnableState task.taskId task.state, w)
  else
    let result := failureResult orchestrator.agentId task.invocationId none
      "recovered_stale_invocation"
      (some "daemon restart found executing task without live local invocation") completedAt
    match finalizeTask store (recoveryOptions task stateFailed result) w with
    | (.ok finalized, w) => (.recoveredStale finalized.taskId, w)
    | (.error error, w) => (.storeError task.taskId error, w)

def reconcileTerminalInvocation (completedAt : String) (task : TaskState)
    (invocation : InvocationState) (w : World σ δ γ) : OrchestrationOutcome × World σ δ γ :=
  let state := (taskStateForInvocation invocation.state).getD stateFailed
  let result := taskResultFromInvocation invocation orchestrator.agentId completedAt
  match finalizeTask store (recoveryOptions task state result.intoValue) w with
  | (.ok finalized, w) => (.reconciledInvocation finalized.taskId finalized.state, w)
  | (.error error, w) => (.storeError task.taskId error, w)

def reconcileTask (completedAt : String) (task : TaskState) (liveInvocations : Finset String)
    (invocations : ExtTreeMap String InvocationState) (w : World σ δ γ) :
    OrchestrationOutcome × World σ δ γ :=
  if task.assignedTo ≠ orchestrator.agentId then
    (.staleRemoteExecuting task.taskId task.assignedTo, w)
  else if isLive task liveInvocations then (.notRunnableState task.taskId task.state, w)
  else match task.invocationId.bind (invocations[·]?) with
    | some invocation =>
      if invocationIsTerminal invocation.state then
        reconcileTerminalInvocation orchestrator store completedAt task invocation w
      else (.stillRunningInvocation task.taskId, w)
    | none => recoverStaleExecuting orchestrator store completedAt task liveInvocations w

/-- The loop of `reconcile_executing_tasks`, each turn with its stamp. -/
def reconcileLoop (completedAt : Nat → String) (liveInvocations : Finset String)
    (invocations : ExtTreeMap String InvocationState) :
    Nat → List TaskState → World σ δ γ → List OrchestrationOutcome × World σ δ γ
  | _, [], w => ([], w)
  | turn, task :: rest, w =>
    let (outcome, w) := reconcileTask orchestrator store (completedAt turn) task
      liveInvocations invocations w
    let (outcomes, w) := reconcileLoop completedAt liveInvocations invocations (turn + 1) rest w
    (outcome :: outcomes, w)

def reconcileExecutingTasks (completedAt : Nat → String) (tasks : List TaskState)
    (liveInvocations : Finset String) (invocations : ExtTreeMap String InvocationState)
    (w : World σ δ γ) : List OrchestrationOutcome × World σ δ γ :=
  reconcileLoop orchestrator store completedAt liveInvocations invocations 0
    (tasks.filter fun task => task.state == stateExecuting) w

end TaskOrchestrator

structure TickState (σ δ γ : Type) where
  world : World σ δ γ
  attempted : Finset (String × Nat)
  claimedInvocations : Finset String

/-- What a tick finds: the room's tasks and invocations, and each turn's environment. -/
structure TickInput where
  snapshot : List TaskState
  invocations : ExtTreeMap String InvocationState
  completedAt : Nat → String
  process : Nat → ProcessEnv

/-- A task that was handed to `process_one`: in which turn, and what came of it. -/
structure HandOver where
  turn : Nat
  task : TaskState
  outcome : OrchestrationOutcome
  deriving DecidableEq

def taskWith (snapshot : List TaskState) (taskId : String) : Option TaskState :=
  snapshot.find? fun task => task.taskId == taskId

/-- The loop of `run_scheduler_tick`, for any way to attempt a task. -/
def attemptEach {τ : Type} (attempt : Nat → TaskState → τ → Option OrchestrationOutcome × τ)
    (snapshot : List TaskState) : Nat → List String → τ → List HandOver × τ
  | _, [], t => ([], t)
  | turn, taskId :: rest, t =>
    match taskWith snapshot taskId with
    | none => attemptEach attempt snapshot (turn + 1) rest t
    | some task =>
      let (outcome, t) := attempt turn task t
      let (handed, t) := attemptEach attempt snapshot (turn + 1) rest t
      ((outcome.map fun outcome => ⟨turn, task, outcome⟩).toList ++ handed, t)

section Tick

open TaskOrchestrator

variable {Key σ δ γ : Type} (crypto : Crypto Key) (regexNew : RegexNew) (order : EvictionOrder)
  (orchestrator : TaskOrchestrator Key γ) (store : TaskStore σ) (dispatcher : TaskDispatcher δ)

/-- One turn of that loop: a task not yet attempted at its revision is processed. One that waits for
an approval may be attempted again. -/
def attemptTask (snapshot : List TaskState) (env : ProcessEnv) (task : TaskState)
    (t : TickState σ δ γ) : Option OrchestrationOutcome × TickState σ δ γ :=
  let revision := (task.taskId, task.stateRev)
  if revision ∈ t.attempted then (none, t)
  else
    let attempted := insert revision t.attempted
    let (outcome, world) := processOne crypto regexNew order orchestrator store dispatcher env task
      snapshot t.world
    (some outcome,
      { world
        attempted := if outcome.isAwaitingApproval then attempted.erase revision else attempted
        claimedInvocations :=
          match outcome.claimedInvocationId with
          | some invocationId => insert invocationId t.claimedInvocations
          | none => t.claimedInvocations })

def attemptLoop (snapshot : List TaskState) (process : Nat → ProcessEnv) :
    Nat → List String → TickState σ δ γ → List HandOver × TickState σ δ γ :=
  attemptEach (fun turn => attemptTask crypto regexNew order orchestrator store dispatcher snapshot
    (process turn)) snapshot

def runSchedulerTick (scheduler : TaskScheduler) (input : TickInput) (t : TickState σ δ γ) :
    List OrchestrationOutcome × TickState σ δ γ :=
  let (recovered, world) := reconcileExecutingTasks orchestrator store input.completedAt
    input.snapshot t.claimedInvocations input.invocations t.world
  let running := (input.snapshot.filter fun task => task.state == stateExecuting).length
  let runnableIds := (scheduler.runnable input.snapshot running).map TaskState.taskId
  let (handed, t) := attemptLoop crypto regexNew order orchestrator store dispatcher
    input.snapshot input.process 0 runnableIds { t with world }
  (recovered ++ handed.map HandOver.outcome, t)

variable {crypto regexNew order orchestrator store dispatcher}

theorem recoverStaleExecuting_world (completedAt : String) (task : TaskState)
    (liveInvocations : Finset String) (w : World σ δ γ) :
    (recoverStaleExecuting orchestrator store completedAt task liveInvocations w).2 = w ∨
      ∃ options, (recoverStaleExecuting orchestrator store completedAt task liveInvocations w).2 =
        (finalizeTask store options w).2 := by
  unfold recoverStaleExecuting
  split
  · exact .inl rfl
  split
  · exact .inl rfl
  dsimp only
  split
  · rename_i hFinal
    exact .inr ⟨_, congrArg Prod.snd hFinal.symm⟩
  · rename_i hFinal
    exact .inr ⟨_, congrArg Prod.snd hFinal.symm⟩

theorem reconcileTerminalInvocation_world (completedAt : String) (task : TaskState)
    (invocation : InvocationState) (w : World σ δ γ) :
    ∃ options, (reconcileTerminalInvocation orchestrator store completedAt task invocation w).2 =
      (finalizeTask store options w).2 := by
  unfold reconcileTerminalInvocation
  dsimp only
  split
  · rename_i hFinal
    exact ⟨_, congrArg Prod.snd hFinal.symm⟩
  · rename_i hFinal
    exact ⟨_, congrArg Prod.snd hFinal.symm⟩

/-- Reconciling a task writes it at most once and touches nothing else. -/
theorem reconcileTask_world (completedAt : String) (task : TaskState)
    (liveInvocations : Finset String) (invocations : ExtTreeMap String InvocationState)
    (w : World σ δ γ) :
    (reconcileTask orchestrator store completedAt task liveInvocations invocations w).2 = w ∨
      ∃ options, (reconcileTask orchestrator store completedAt task liveInvocations invocations
        w).2 = (finalizeTask store options w).2 := by
  unfold reconcileTask
  split
  · exact .inl rfl
  split
  · exact .inl rfl
  split
  · split
    · exact .inr (reconcileTerminalInvocation_world ..)
    · exact .inl rfl
  · exact recoverStaleExecuting_world ..

theorem reconcileLoop_invariant {Invariant : World σ δ γ → Prop}
    (hFinalize : ∀ options w, Invariant w → Invariant (finalizeTask store options w).2)
    (completedAt : Nat → String) (liveInvocations : Finset String)
    (invocations : ExtTreeMap String InvocationState) (turn : Nat) (tasks : List TaskState)
    {w : World σ δ γ} (h : Invariant w) :
    Invariant (reconcileLoop orchestrator store completedAt liveInvocations invocations turn tasks
      w).2 := by
  induction tasks generalizing turn w with
  | nil => exact h
  | cons task rest ih =>
    have hNext : Invariant (reconcileTask orchestrator store (completedAt turn) task
        liveInvocations invocations w).2 := by
      rcases reconcileTask_world (completedAt turn) task liveInvocations invocations w with
        hSame | ⟨options, hWrite⟩
      · rwa [hSame]
      · rw [hWrite]
        exact hFinalize options w h
    exact ih (turn + 1) hNext

theorem attemptTask_invariant {Invariant : World σ δ γ → Prop} {snapshot : List TaskState}
    {task : TaskState}
    (hProcess : ∀ env w, Invariant w → Invariant (processOne crypto regexNew order
      orchestrator store dispatcher env task snapshot w).2)
    (env : ProcessEnv) {t : TickState σ δ γ} (h : Invariant t.world) :
    Invariant (attemptTask crypto regexNew order orchestrator store dispatcher snapshot env task
      t).2.world := by
  unfold attemptTask
  dsimp only
  split
  · exact h
  · exact hProcess env t.world h

/-- The loop keeps what handing over any task of the snapshot keeps. -/
theorem attemptLoop_preserves {Invariant : TickState σ δ γ → Prop} {snapshot : List TaskState}
    (hTask : ∀ env, ∀ task ∈ snapshot, ∀ t, Invariant t → Invariant (attemptTask crypto regexNew
      order orchestrator store dispatcher snapshot env task t).2)
    (process : Nat → ProcessEnv) (turn : Nat) (taskIds : List String) {t : TickState σ δ γ}
    (h : Invariant t) :
    Invariant (attemptLoop crypto regexNew order orchestrator store dispatcher snapshot process
      turn taskIds t).2 := by
  induction taskIds generalizing turn t with
  | nil => exact h
  | cons taskId rest ih =>
    rw [attemptLoop, attemptEach]
    split
    · exact ih _ h
    · rename_i task hFound
      exact ih _ (hTask (process turn) task (List.mem_of_find?_eq_some hFound) t h)

/-- A tick keeps what final writes and calls of `process_one` keep. -/
theorem runSchedulerTick_invariant {Invariant : World σ δ γ → Prop}
    (hFinalize : ∀ options w, Invariant w → Invariant (finalizeTask store options w).2)
    (scheduler : TaskScheduler) (input : TickInput)
    (hProcess : ∀ env, ∀ task ∈ input.snapshot, ∀ w, Invariant w → Invariant (processOne crypto
      regexNew order orchestrator store dispatcher env task input.snapshot w).2)
    {t : TickState σ δ γ} (h : Invariant t.world) :
    Invariant (runSchedulerTick crypto regexNew order orchestrator store dispatcher scheduler
      input t).2.world := by
  have hAttempt : ∀ env, ∀ task ∈ input.snapshot, ∀ t : TickState σ δ γ, Invariant t.world →
      Invariant (attemptTask crypto regexNew order orchestrator store dispatcher input.snapshot env
        task t).2.world :=
    fun env task hTask _ => attemptTask_invariant (fun env => hProcess env task hTask) env
  have hLoop := attemptLoop_preserves hAttempt
  exact hLoop _ _ _ (reconcileLoop_invariant hFinalize _ _ _ _ _ h)

end Tick

end MxAgent.Daemon
