import MxAgent.Daemon.Task
import MxAgent.Foundations.Fallible
import MxAgent.Protocol.Signing

/-! Writing a task's state: the lifecycle, `update_task`, the scheduler's store
with its write cache, and the operator's cancel. -/
namespace MxAgent.Daemon

open Protocol

def stateProposed : String := "proposed"

def knownStates : List String :=
  [stateProposed, statePending, stateAssigned, stateExecuting, stateSucceeded, stateFailed,
    stateCancelled, stateBlocked, stateSuperseded]

def isKnownState (state : String) : Bool := knownStates.contains state

def successors (state : String) : List String :=
  if state = stateProposed then [statePending, stateCancelled, stateSuperseded]
  else if state = statePending then
    [stateAssigned, stateExecuting, stateBlocked, stateCancelled, stateSuperseded]
  else if state = stateAssigned then
    [statePending, stateExecuting, stateBlocked, stateCancelled, stateSuperseded]
  else if state = stateBlocked then
    [statePending, stateAssigned, stateCancelled, stateSuperseded]
  else if state = stateExecuting then [stateSucceeded, stateFailed, stateCancelled]
  else []

def canTransition (source target : String) : Bool :=
  if source = target then isKnownState source else (successors source).contains target

theorem successors_of_isTerminal {state : String} (h : isTerminal state) :
    successors state = [] := by
  simp only [isTerminal, Bool.or_eq_true, beq_iff_eq, or_assoc] at h
  rcases h with rfl | rfl | rfl | rfl <;> rfl

variable {source target taskId : String}

theorem isKnownState_of_mem_successors (h : target ∈ successors source) : isKnownState target := by
  have hAll : (successors source).all isKnownState := by
    unfold successors
    split_ifs <;> rfl
  exact List.all_eq_true.mp hAll target h

theorem isKnownState_of_canTransition (h : canTransition source target) : isKnownState target := by
  unfold canTransition at h
  split at h
  · rename_i hSame
    exact hSame ▸ h
  · exact isKnownState_of_mem_successors (List.contains_iff_mem.mp h)

theorem isRunnable_of_canTransition (hSource : source ≠ stateExecuting)
    (h : canTransition source stateExecuting) : isRunnable source := by
  rw [canTransition, if_neg hSource] at h
  unfold successors at h
  split at h
  · exact absurd h (by decide)
  split at h
  · rename_i hPending
    simp [isRunnable, hPending]
  split at h
  · rename_i hAssigned
    simp [isRunnable, hAssigned]
  split at h
  · exact absurd h (by decide)
  exact absurd h (by simp)

/-- A terminal state leads nowhere else. -/
theorem eq_of_canTransition (hTerminal : isTerminal source)
    (h : canTransition source target) : target = source := by
  unfold canTransition at h
  split at h
  · rename_i hSame
    exact hSame.symm
  · rw [successors_of_isTerminal hTerminal] at h
    cases h

/-- The errors of task updates. Other failures are texts. -/
inductive WorkspaceError where
  | staleTaskUpdate (taskId : String) (expected current : Nat)
  | taskNotFound (taskId : String)
  | taskExists (taskId : String)
  | invalidTaskState (state : String)
  | invalidTaskTransition (taskId source target : String)
  | invocationNotFound (invocationId : String)
  | signing (error : SignatureError)
  | other (reason : String)
  deriving DecidableEq, Repr

def checkNotStale (taskId : String) (currentRev : Nat) (expectedRev : Option Nat) :
    Except WorkspaceError Unit :=
  match expectedRev with
  | some expected =>
    if expected ≠ currentRev then .error (.staleTaskUpdate taskId expected currentRev)
    else .ok ()
  | none => .ok ()

def checkKnownState (state : String) : Except WorkspaceError Unit :=
  if isKnownState state then .ok () else .error (.invalidTaskState state)

def checkTransition (taskId source target : String) : Except WorkspaceError Unit := do
  checkKnownState target
  if canTransition source target then .ok ()
  else .error (.invalidTaskTransition taskId source target)

def applyUpdate (task : TaskState) (options : UpdateTaskOptions) (now : String)
    (previousEventId : Option String) : TaskState :=
  { task with
    state := options.state.getD task.state
    assignedTo := options.assignedTo.getD task.assignedTo
    title := options.title.getD task.title
    description := options.description.getD task.description
    invocationId := options.invocationId.or task.invocationId
    result := options.result.or task.result
    action := options.action.or task.action
    stateRev := task.stateRev + 1
    updatedAt := now
    previousEventId }

abbrev TaskRead := Except WorkspaceError (Option (TaskState × Option String))

def checkUpdate (current : TaskState) (options : UpdateTaskOptions) :
    Except WorkspaceError Unit := do
  checkNotStale current.taskId current.stateRev options.expectedStateRev
  match options.state with
  | some target => checkTransition current.taskId current.state target
  | none => .ok ()

def applyAndPublishTask (current : TaskState) (previousEventId : Option String)
    (options : UpdateTaskOptions) (now : String) (publish : Except WorkspaceError Unit) :
    Except WorkspaceError TaskState := do
  checkUpdate current options
  publish
  pure (applyUpdate current options now previousEventId)

theorem checkNotStale_ok {currentRev : Nat} {expectedRev : Option Nat}
    (h : checkNotStale taskId currentRev expectedRev = .ok ()) :
    ∀ expected ∈ expectedRev, expected = currentRev := by
  rintro expected rfl
  by_contra hStale
  simp [checkNotStale, hStale] at h

/-- What was published updates the expected revision, by a transition. -/
theorem applyAndPublishTask_ok {current updated : TaskState} {previousEventId : Option String}
    {options : UpdateTaskOptions} {now : String} {publish : Except WorkspaceError Unit}
    (h : applyAndPublishTask current previousEventId options now publish = .ok updated) :
    updated = applyUpdate current options now previousEventId ∧
      (∀ expected ∈ options.expectedStateRev, expected = current.stateRev) ∧
      ∀ target ∈ options.state, canTransition current.state target := by
  simp only [applyAndPublishTask, checkUpdate, Fallible.bind_eq_ok] at h
  obtain ⟨⟨⟩, ⟨⟨⟩, hFresh, hTransition⟩, ⟨⟩, -, hUpdated⟩ := h
  cases hUpdated
  refine ⟨rfl, checkNotStale_ok hFresh, fun target hTarget => ?_⟩
  rw [Option.mem_def.mp hTarget] at hTransition
  obtain ⟨⟨⟩, -, hAllowed⟩ := Fallible.bind_eq_ok.mp hTransition
  split at hAllowed
  · assumption
  · cases hAllowed

def foundTask (taskId : String) (read : TaskRead) :
    Except WorkspaceError (TaskState × Option String) := do
  match ← read with
  | some found => .ok found
  | none => .error (.taskNotFound taskId)

theorem foundTask_ok {read : TaskRead} {found : TaskState × Option String}
    (h : foundTask taskId read = .ok found) : read = .ok (some found) := by
  obtain ⟨result, hRead, hFound⟩ := Fallible.bind_eq_ok.mp h
  cases result with
  | none => cases hFound
  | some other =>
    cases hFound
    exact hRead

def updateTaskInRoom (read : TaskRead) (options : UpdateTaskOptions) (now : String)
    (publish : Except WorkspaceError Unit) : Except WorkspaceError TaskState := do
  let (current, eventId) ← foundTask options.taskId read
  applyAndPublishTask current eventId options now publish

/-! ## The scheduler's store -/

/-- The first part of the store's update: a task found terminal is left alone, unless the read
fails. -/
def refuseTerminal (latest : TaskRead) (options : UpdateTaskOptions) : Except WorkspaceError Unit :=
  match latest with
  | .ok (some (task, _)) =>
    if isTerminal task.state then
      .error (.staleTaskUpdate options.taskId
        (options.expectedStateRev.getD task.stateRev) task.stateRev)
    else .ok ()
  | _ => .ok ()

/-- The second part: the task as this pass wrote it, or as it is read. -/
def currentTask (cached : Option (TaskState × Option String)) (read : TaskRead)
    (options : UpdateTaskOptions) : Except WorkspaceError (TaskState × Option String) :=
  match cached with
  | some found => .ok found
  | none => foundTask options.taskId read

/-- The update of a pass's `MatrixTaskStore`, through the write cache. -/
def matrixStoreUpdate (cached : Option (TaskState × Option String)) (latest read : TaskRead)
    (options : UpdateTaskOptions) (now : String) (publish : Except WorkspaceError Unit) :
    Except WorkspaceError TaskState := do
  refuseTerminal latest options
  let (current, eventId) ← currentTask cached read options
  applyAndPublishTask current eventId options now publish

/-! ## The operator's cancel -/

def cancelFinalization (invocation : Option InvocationState) (task : TaskState)
    (completedBy now : String) : String × Value :=
  match invocation with
  | some invocation =>
    ((taskStateForInvocation invocation.state).getD stateCancelled,
      (taskResultFromInvocation invocation completedBy now).intoValue)
  | none =>
    (stateCancelled,
      TaskResult.intoValue ⟨stateCancelled, completedBy, now, task.invocationId, none,
        some "cancelled", none, some "task cancelled", none, ∅⟩)

/-- The linked invocation after it was cancelled; that there is none is no error. -/
def linkedInvocation (task : TaskState) (cancelled : Except WorkspaceError InvocationState) :
    Except WorkspaceError (Option InvocationState) :=
  match task.invocationId, cancelled with
  | none, _ => .ok none
  | some _, .ok invocation => .ok (some invocation)
  | some _, .error (.invocationNotFound _) => .ok none
  | some _, .error error => .error error

/-- What `cancel_task` writes: nothing if the task is terminal. -/
def cancelOptions (taskId : String) (first : TaskRead)
    (cancelled : Except WorkspaceError InvocationState) (completedBy now : String) :
    Except WorkspaceError (Option UpdateTaskOptions) := do
  let (task, _) ← foundTask taskId first
  if isTerminal task.state then .ok none
  else
    let invocation ← linkedInvocation task cancelled
    let (terminal, result) := cancelFinalization invocation task completedBy now
    .ok (some
      { taskId
        state := some terminal
        assignedTo := none
        invocationId := none
        result := some result
        expectedStateRev := none })

/-- The task that `cancel_task` publishes, read again for the update. -/
def cancelTask (taskId : String) (first : TaskRead)
    (cancelled : Except WorkspaceError InvocationState) (second : TaskRead)
    (completedBy now : String) (publish : Except WorkspaceError Unit) :
    Except WorkspaceError (Option TaskState) := do
  match ← cancelOptions taskId first cancelled completedBy now with
  | none => .ok none
  | some options => some <$> updateTaskInRoom second options now publish

theorem isTerminal_cancelFinalization (invocation : Option InvocationState) (task : TaskState)
    (completedBy now : String) :
    isTerminal (cancelFinalization invocation task completedBy now).1 := by
  cases invocation with
  | none => rfl
  | some invocation =>
    simp only [cancelFinalization, taskStateForInvocation]
    split
    · rfl
    · split
      · rfl
      · split <;> rfl

theorem cancelOptions_ok {first : TaskRead} {cancelled : Except WorkspaceError InvocationState}
    {completedBy now : String} {options : UpdateTaskOptions}
    (h : cancelOptions taskId first cancelled completedBy now = .ok (some options)) :
    ∃ terminal, options.state = some terminal ∧ isTerminal terminal := by
  obtain ⟨⟨task, _⟩, -, hRest⟩ := Fallible.bind_eq_ok.mp h
  simp only at hRest
  split at hRest
  · cases hRest
  · obtain ⟨invocation, -, hOptions⟩ := Fallible.bind_eq_ok.mp hRest
    cases hOptions
    exact ⟨_, rfl, isTerminal_cancelFinalization invocation task completedBy now⟩

/-- What `cancel_task` publishes is terminal, and follows from its read. -/
theorem cancelTask_ok {first second : TaskRead} {cancelled : Except WorkspaceError InvocationState}
    {completedBy now : String} {publish : Except WorkspaceError Unit} {task : TaskState}
    (h : cancelTask taskId first cancelled second completedBy now publish = .ok (some task)) :
    isTerminal task.state ∧ ∃ current eventId, second = .ok (some (current, eventId)) ∧
      canTransition current.state task.state := by
  obtain ⟨found, hOptions, hRest⟩ := Fallible.bind_eq_ok.mp h
  cases found with
  | none => cases hRest
  | some options =>
    obtain ⟨terminal, hState, hTerminal⟩ := cancelOptions_ok hOptions
    cases hUpdate : updateTaskInRoom second options now publish with
    | error error =>
      simp only [hUpdate] at hRest
      cases hRest
    | ok updated =>
      simp only [hUpdate] at hRest
      cases hRest
      obtain ⟨⟨current, eventId⟩, hFound, hPublished⟩ := Fallible.bind_eq_ok.mp hUpdate
      obtain ⟨rfl, -, hTransition⟩ := applyAndPublishTask_ok hPublished
      have hTask : (applyUpdate current options now eventId).state = terminal := by
        simp [applyUpdate, hState]
      rw [hTask]
      exact ⟨hTerminal, current, eventId, foundTask_ok hFound, hTransition terminal hState⟩

end MxAgent.Daemon
