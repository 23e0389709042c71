import Mathlib.Data.List.Sort
import MxAgent.Protocol.Schema

/-! Tasks: their lifecycle states, their actions, which of them a scheduler picks,
and the result a finished invocation leaves on its task. -/
namespace MxAgent.Daemon

open Protocol

def statePending : String := "pending"
def stateAssigned : String := "assigned"
def stateExecuting : String := "executing"
def stateSucceeded : String := "succeeded"
def stateFailed : String := "failed"
def stateCancelled : String := "cancelled"
def stateBlocked : String := "blocked"
def stateSuperseded : String := "superseded"

def isTerminal (state : String) : Bool :=
  state == stateSucceeded || state == stateFailed || state == stateCancelled ||
    state == stateSuperseded

def isRunnable (state : String) : Bool := state == statePending || state == stateAssigned

inductive TaskActionError where
  | missingAction
  | invalidAction (taskId : String)
  deriving DecidableEq, Repr

/-- `action_from_task`: the typed field, or the payload in `extra`. -/
def actionFromTask (task : TaskState) : Except TaskActionError TaskAction :=
  match task.action with
  | some action => .ok action
  | none =>
    match task.extra["action"]? with
    | none => .error .missingAction
    | some value =>
      match TaskAction.fromValue value with
      | some action => .ok action
      | none => .error (.invalidAction task.taskId)

def succeededIds (tasks : List TaskState) : List String :=
  (tasks.filter fun task => task.state == stateSucceeded).map TaskState.taskId

/-- The dependencies that have not succeeded. -/
def unmetDependencies (task : TaskState) (succeeded : List String) : List String :=
  task.dependsOn.filter fun dep => !succeeded.contains dep

theorem unmetDependencies_eq_nil_iff {task : TaskState} {tasks : List TaskState} :
    unmetDependencies task (succeededIds tasks) = [] ↔
      ∀ dep ∈ task.dependsOn, ∃ other ∈ tasks, other.taskId = dep ∧
        other.state = stateSucceeded := by
  rw [unmetDependencies, List.filter_eq_nil_iff]
  refine forall₂_congr fun dep _ => ?_
  simp only [Bool.not_eq_true', Bool.not_eq_false, List.contains_iff_mem, succeededIds,
    List.mem_map, List.mem_filter, beq_iff_eq]
  constructor
  · rintro ⟨other, ⟨hMem, hState⟩, hId⟩
    exact ⟨other, hMem, hId, hState⟩
  · rintro ⟨other, hMem, hId, hState⟩
    exact ⟨other, ⟨hMem, hState⟩, hId⟩

/-- The parameters of `update_task`. What is absent is left as it is. -/
structure UpdateTaskOptions where
  taskId : String
  state : Option String
  assignedTo : Option String
  title : Option String := none
  description : Option String := none
  invocationId : Option String
  result : Option Value
  action : Option TaskAction := none
  expectedStateRev : Option Nat
  deriving DecidableEq

inductive ScheduleDecision where
  | runnable (taskId : String)
  | notAssigned (taskId assignedTo : String)
  | terminalState (taskId state : String)
  | notSchedulableState (taskId state : String)
  | dependenciesUnmet (taskId : String) (waitingOn : List String)
  | noExecutableAction (taskId : String)
  | atCapacity (taskId : String)
  deriving DecidableEq, Repr

namespace ScheduleDecision

def taskId : ScheduleDecision → String
  | .runnable taskId | .notAssigned taskId _ | .terminalState taskId _
  | .notSchedulableState taskId _ | .dependenciesUnmet taskId _ | .noExecutableAction taskId
  | .atCapacity taskId => taskId

def isRunnable : ScheduleDecision → Bool
  | .runnable _ => true
  | _ => false

end ScheduleDecision

structure TaskScheduler where
  agentId : String
  maxInvocations : Nat
  autoClaim : Bool
  deriving DecidableEq, Repr

namespace TaskScheduler

def isClaimable (scheduler : TaskScheduler) (task : TaskState) : Bool :=
  scheduler.autoClaim || task.assignedTo == scheduler.agentId

/-- `evaluate`: the first test that a task fails, in the order of the source. -/
def evaluate (scheduler : TaskScheduler) (task : TaskState) (tasks : List TaskState) :
    ScheduleDecision :=
  if isTerminal task.state then .terminalState task.taskId task.state
  else if !isRunnable task.state then .notSchedulableState task.taskId task.state
  else if !scheduler.isClaimable task then .notAssigned task.taskId task.assignedTo
  else
    match unmetDependencies task (succeededIds tasks) with
    | waiting :: rest => .dependenciesUnmet task.taskId (waiting :: rest)
    | [] =>
      match actionFromTask task with
      | .error _ => .noExecutableAction task.taskId
      | .ok _ => .runnable task.taskId

/-- The loop of `decide`: every runnable task takes one of the remaining slots. -/
def decideFrom (scheduler : TaskScheduler) (tasks : List TaskState) :
    Nat → List TaskState → List ScheduleDecision
  | _, [] => []
  | remaining, task :: rest =>
    match scheduler.evaluate task tasks, remaining with
    | .runnable taskId, 0 => .atCapacity taskId :: decideFrom scheduler tasks 0 rest
    | .runnable taskId, slots + 1 => .runnable taskId :: decideFrom scheduler tasks slots rest
    | decision, _ => decision :: decideFrom scheduler tasks remaining rest

section Loop

variable {scheduler : TaskScheduler} {task : TaskState} {tasks : List TaskState}

theorem evaluate_taskId (task : TaskState) :
    (scheduler.evaluate task tasks).taskId = task.taskId := by
  unfold evaluate
  split_ifs <;> try rfl
  split
  · rfl
  split <;> rfl

/-- A task that is not ready is decided as it is evaluated, and takes no slot. -/
theorem decideFrom_cons_other (h : (scheduler.evaluate task tasks).isRunnable = false)
    (remaining : Nat) (rest : List TaskState) :
    scheduler.decideFrom tasks remaining (task :: rest) =
      scheduler.evaluate task tasks :: scheduler.decideFrom tasks remaining rest := by
  have hNot (taskId : String) : scheduler.evaluate task tasks ≠ .runnable taskId := by
    intro hDecision
    simp [hDecision, ScheduleDecision.isRunnable] at h
  rw [decideFrom]
  · exact fun taskId hDecision _ => hNot taskId hDecision
  · exact fun taskId _ hDecision _ => hNot taskId hDecision

variable {taskId : String} (h : scheduler.evaluate task tasks = .runnable taskId)

include h

theorem decideFrom_cons_full (rest : List TaskState) :
    scheduler.decideFrom tasks 0 (task :: rest) =
      .atCapacity taskId :: scheduler.decideFrom tasks 0 rest := by
  simp only [decideFrom, h]

theorem decideFrom_cons_slot (slots : Nat) (rest : List TaskState) :
    scheduler.decideFrom tasks (slots + 1) (task :: rest) =
      .runnable taskId :: scheduler.decideFrom tasks slots rest := by
  simp only [decideFrom, h]

end Loop

/-- `decide`: the tasks in the order of ids, with the slots left by those running. -/
def decide (scheduler : TaskScheduler) (tasks : List TaskState) (running : Nat) :
    List ScheduleDecision :=
  scheduler.decideFrom tasks (scheduler.maxInvocations - running)
    (tasks.insertionSort fun left right => left.taskId ≤ right.taskId)

def runnable (scheduler : TaskScheduler) (tasks : List TaskState) (running : Nat) :
    List TaskState :=
  tasks.filter fun task => (scheduler.decide tasks running).contains (.runnable task.taskId)

end TaskScheduler

/-- The task state that an ended invocation stands for. -/
def taskStateForInvocation (state : String) : Option String :=
  if state = stateSucceeded then some stateSucceeded
  else if state = stateFailed then some stateFailed
  else if state = stateCancelled then some stateCancelled
  else none

def invocationIsTerminal (state : String) : Bool :=
  state == stateSucceeded || state == stateFailed || state == stateCancelled

def taskResultFromInvocation (invocation : InvocationState) (completedBy completedAt : String) :
    TaskResult where
  status := invocation.state
  completedBy
  completedAt
  invocationId := some invocation.invocationId
  action := none
  reason :=
    if invocation.state = stateFailed then some "process_exit"
    else if invocation.state = stateCancelled then some "cancelled"
    else none
  exitCode := invocation.exitCode
  summary := some ("invocation " ++ invocation.state)
  artifactMxc := none
  extra := ∅

end MxAgent.Daemon
