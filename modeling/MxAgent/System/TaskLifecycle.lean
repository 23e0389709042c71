import MxAgent.Daemon.TaskSession

/-! The life of a task in a room. It is created once and then updated, one operation after
another, each on what the one before has left. -/
namespace MxAgent.System.TaskLifecycle

open Std Protocol Daemon

/-- An operation, with what its read of the room and its publication come to. -/
inductive Label where
  | create (options : CreateTaskOptions) (event : Except WorkspaceError (Option String))
      (generated userId now : String) (publish : Except WorkspaceError Unit)
  | update (options : UpdateTaskOptions) (event : Except WorkspaceError (Option String))
      (now : String) (publish : Except WorkspaceError Unit)

def Label.taskId : Label → String
  | .create options _ generated _ _ _ => resolveTaskId options generated
  | .update options _ _ _ => options.taskId

def perform (room : TaskRoom) : Label → Except WorkspaceError TaskState
  | .create options event generated userId now publish =>
    createTask (room.read event (resolveTaskId options generated)) options generated userId now
      publish
  | .update options event now publish =>
    updateTaskInRoom (room.read event options.taskId) options now publish

def step (room : TaskRoom) (label : Label) : TaskRoom :=
  room.store label.taskId (perform room label)

def roomAfter (labels : List Label) : TaskRoom := labels.foldl step ∅

/-! ## What an update may do -/

/-- What an update does not supply stays, apart from the revision, the time and the event before
it. -/
structure KeepsUnsupplied (options : UpdateTaskOptions) (before after : TaskState) : Prop where
  taskId : after.taskId = before.taskId
  createdBy : after.createdBy = before.createdBy
  dependsOn : after.dependsOn = before.dependsOn
  blocks : after.blocks = before.blocks
  createdAt : after.createdAt = before.createdAt
  extra : after.extra = before.extra
  state : options.state = none → after.state = before.state
  assignedTo : options.assignedTo = none → after.assignedTo = before.assignedTo
  title : options.title = none → after.title = before.title
  description : options.description = none → after.description = before.description
  invocationId : options.invocationId = none → after.invocationId = before.invocationId
  result : options.result = none → after.result = before.result
  action : options.action = none → after.action = before.action

structure Updated (options : UpdateTaskOptions) (before after : TaskState) : Prop where
  stateRev : after.stateRev = before.stateRev + 1
  expected : ∀ expected ∈ options.expectedStateRev, before.stateRev = expected
  edge : canTransition before.state after.state
  executing : after.state = stateExecuting → before.state ≠ stateExecuting →
    before.state = statePending ∨ before.state = stateAssigned
  kept : KeepsUnsupplied options before after

theorem keepsUnsupplied_applyUpdate (options : UpdateTaskOptions) (before : TaskState)
    (now : String) (previousEventId : Option String) :
    KeepsUnsupplied options before (applyUpdate before options now previousEventId) := by
  constructor <;> first | rfl | (intro h; simp [applyUpdate, h])

variable {publish : Except WorkspaceError Unit} {room : TaskRoom} {task : TaskState}

theorem updated_of_applyAndPublishTask {before after : TaskState} {eventId : Option String}
    {options : UpdateTaskOptions} {now : String} (hKnown : isKnownState before.state)
    (h : applyAndPublishTask before eventId options now publish = .ok after) :
    Updated options before after := by
  obtain ⟨rfl, hExpected, hTarget⟩ := applyAndPublishTask_ok h
  have hEdge : canTransition before.state (applyUpdate before options now eventId).state =
    true := by
    cases hState : options.state with
    | none => simpa [applyUpdate, hState, canTransition] using hKnown
    | some target => simpa [applyUpdate, hState] using hTarget target hState
  refine ⟨rfl, fun expected hMem => (hExpected expected hMem).symm, hEdge, ?_,
    keepsUnsupplied_applyUpdate options before now eventId⟩
  intro hExecuting hBefore
  rw [hExecuting] at hEdge
  simpa [isRunnable] using isRunnable_of_canTransition hBefore hEdge

/-! ## Steps and runs -/

def Known (room : TaskRoom) : Prop :=
  ∀ (taskId : String) (task : TaskState), room[taskId]? = some task → isKnownState task.state

theorem step_of_error {label : Label} {error : WorkspaceError}
    (h : perform room label = .error error) : step room label = room := by
  rw [step, h, TaskRoom.store]

theorem getElem?_step_of_ok {label : Label}
    (h : perform room label = .ok task) : (step room label)[label.taskId]? = some task := by
  rw [step, h, TaskRoom.getElem?_store_ok]

theorem updated_of_perform (hKnown : Known room) {options : UpdateTaskOptions}
    {event : Except WorkspaceError (Option String)} {now : String} {after : TaskState}
    (h : perform room (.update options event now publish) = .ok after) :
    ∃ before, room[options.taskId]? = some before ∧ Updated options before after := by
  obtain ⟨⟨before, eventId⟩, hFound, hPublish⟩ := Fallible.bind_eq_ok.mp h
  have hStored := (TaskRoom.read_eq_some_iff.mp (foundTask_ok hFound)).2
  exact ⟨before, hStored, updated_of_applyAndPublishTask (hKnown _ _ hStored) hPublish⟩

theorem created_of_perform {options : CreateTaskOptions}
    {event : Except WorkspaceError (Option String)} {generated userId now : String}
    (h : perform room (.create options event generated userId now publish) = .ok task) :
    room[resolveTaskId options generated]? = none ∧ isKnownState task.state ∧
      task = buildNewTask options (resolveTaskId options generated)
        (resolveCreatedBy options userId) now := by
  obtain ⟨hRead, hKnown, hTask⟩ := createTask_ok h
  exact ⟨TaskRoom.getElem?_of_read_none hRead, hKnown, hTask⟩

/-- A step keeps every task, and moves its state along an edge. -/
theorem step_follows_edge (hKnown : Known room) (label : Label) {taskId : String}
    {before : TaskState} (hBefore : room[taskId]? = some before) :
    ∃ after, (step room label)[taskId]? = some after ∧
      canTransition before.state after.state := by
  have hStay : canTransition before.state before.state := by
    simpa [canTransition] using hKnown taskId before hBefore
  by_cases hId : taskId = label.taskId
  · subst hId
    cases hPerform : perform room label with
    | error error => exact ⟨before, by rwa [step_of_error hPerform], hStay⟩
    | ok after =>
      refine ⟨after, getElem?_step_of_ok hPerform, ?_⟩
      cases label with
      | create options event generated userId now publish =>
        obtain ⟨hNone, -⟩ := created_of_perform hPerform
        cases hBefore.symm.trans hNone
      | update options event now publish =>
        obtain ⟨found, hFound, hUpdated⟩ := updated_of_perform hKnown hPerform
        obtain rfl : before = found := Option.some.inj (hBefore.symm.trans hFound)
        exact hUpdated.edge
  · exact ⟨before, by rwa [step, TaskRoom.getElem?_store_of_ne hId], hStay⟩

theorem known_step (h : Known room) (label : Label) : Known (step room label) := by
  intro taskId after hAfter
  cases hBefore : room[taskId]? with
  | some before =>
    obtain ⟨found, hFound, hEdge⟩ := step_follows_edge h label hBefore
    obtain rfl : after = found := Option.some.inj (hAfter.symm.trans hFound)
    exact isKnownState_of_canTransition hEdge
  | none =>
    by_cases hId : taskId = label.taskId
    · subst hId
      cases hPerform : perform room label with
      | error error =>
        rw [step_of_error hPerform, hBefore] at hAfter
        cases hAfter
      | ok task =>
        obtain rfl : after = task :=
          Option.some.inj (hAfter.symm.trans (getElem?_step_of_ok hPerform))
        cases label with
        | create options event generated userId now publish =>
          exact (created_of_perform hPerform).2.1
        | update options event now publish =>
          obtain ⟨found, hFound, -⟩ := updated_of_perform h hPerform
          cases hBefore.symm.trans hFound
    · rw [step, TaskRoom.getElem?_store_of_ne hId, hBefore] at hAfter
      cases hAfter

/-- Runs of operations from a room whose states are known. -/
theorem known_foldl (h : Known room) (labels : List Label) : Known (labels.foldl step room) := by
  induction labels generalizing room with
  | nil => exact h
  | cons label rest ih => exact ih (known_step h label)

theorem known_roomAfter (labels : List Label) : Known (roomAfter labels) := by
  refine known_foldl ?_ labels
  intro taskId task hTask
  simp at hTask

theorem terminal_foldl (hKnown : Known room) {taskId : String} (hTask : room[taskId]? = some task)
    (hTerminal : isTerminal task.state) (labels : List Label) :
    ∃ later, (labels.foldl step room)[taskId]? = some later ∧ later.state = task.state := by
  induction labels generalizing room task with
  | nil => exact ⟨task, hTask, rfl⟩
  | cons label rest ih =>
    obtain ⟨after, hAfter, hEdge⟩ := step_follows_edge hKnown label hTask
    have hSame : after.state = task.state := eq_of_canTransition hTerminal hEdge
    obtain ⟨later, hLater, hLast⟩ :=
      ih (known_step hKnown label) hAfter (by rwa [hSame])
    exact ⟨later, hLater, hLast.trans hSame⟩

/-- The life of a room's tasks, over every history of operations: their states are known ones and
move along the edges of the lifecycle, a terminal state stays; a rejected operation changes nothing,
and an accepted one its task alone, which is new or properly updated. -/
theorem task_lifecycle (labels : List Label) :
    (∀ (taskId : String) (task : TaskState), (roomAfter labels)[taskId]? = some task →
      isKnownState task.state ∧
      (∀ label, ∃ after, (step (roomAfter labels) label)[taskId]? = some after ∧
        canTransition task.state after.state) ∧
      (isTerminal task.state → ∀ more : List Label,
        ∃ later, (roomAfter (labels ++ more))[taskId]? = some later ∧ later.state = task.state)) ∧
    (∀ label error, perform (roomAfter labels) label = .error error →
      step (roomAfter labels) label = roomAfter labels) ∧
    (∀ label task, perform (roomAfter labels) label = .ok task →
      (step (roomAfter labels) label)[label.taskId]? = some task ∧
      ∀ other ≠ label.taskId, (step (roomAfter labels) label)[other]? =
        (roomAfter labels)[other]?) ∧
    (∀ options event now publish after,
      perform (roomAfter labels) (.update options event now publish) = .ok after →
      ∃ before, (roomAfter labels)[options.taskId]? = some before ∧ Updated options before after) ∧
    (∀ options event generated userId now publish task,
      perform (roomAfter labels) (.create options event generated userId now publish) = .ok task →
      (roomAfter labels)[resolveTaskId options generated]? = none ∧ task.stateRev = 1) := by
  have hKnown := known_roomAfter labels
  refine ⟨fun taskId task hTask => ⟨hKnown taskId task hTask, fun label => ?_,
    fun hTerminal more => ?_⟩,
    fun label error h => step_of_error h, fun label task h => ⟨getElem?_step_of_ok h, ?_⟩,
    fun options event now publish after h => updated_of_perform hKnown h, ?_⟩
  · exact step_follows_edge hKnown label hTask
  · rw [roomAfter, List.foldl_append]
    exact terminal_foldl hKnown hTask hTerminal more
  · intro other hOther
    rw [step, TaskRoom.getElem?_store_of_ne hOther]
  · intro options event generated userId now publish task h
    obtain ⟨hNone, -, rfl⟩ := created_of_perform h
    exact ⟨hNone, rfl⟩

def createLabel : Label :=
  .create ⟨some "task_1", "build", "", none, "@builder", none, [], [], none⟩ (.ok none) "task_0"
    "@operator:host" "2026-06-01T00:00:00Z" (.ok ())

def stateLabel (state : String) (expectedStateRev : Nat) : Label :=
  .update
    { taskId := "task_1"
      state := some state
      assignedTo := none
      invocationId := none
      result := none
      expectedStateRev := some expectedStateRev }
    (.ok none) "2026-06-01T00:00:01Z" (.ok ())

def builtLabels : List Label :=
  [createLabel, stateLabel stateExecuting 1, stateLabel stateSucceeded 2]

/-- A task that has succeeded stays so, whatever is tried with it. -/
theorem built_task_lifecycle :
    ((roomAfter builtLabels)["task_1"]?.map fun task => (task.state, task.stateRev)) =
      some (stateSucceeded, 3) ∧
    (∃ later, (roomAfter (builtLabels ++ [stateLabel statePending 3, stateLabel stateFailed 3,
      createLabel]))["task_1"]? = some later ∧ later.state = stateSucceeded) := by
  have hBuilt : ((roomAfter builtLabels)["task_1"]?.map fun task => (task.state, task.stateRev)) =
      some (stateSucceeded, 3) := by decide +kernel
  obtain ⟨task, hTask, hState⟩ := Option.map_eq_some_iff.mp hBuilt
  have hState : task.state = stateSucceeded := (Prod.mk.inj hState).1
  obtain ⟨-, -, hFinal⟩ := (task_lifecycle builtLabels).1 "task_1" task hTask
  rw [hState] at hFinal
  exact ⟨hBuilt, hFinal rfl _⟩

end MxAgent.System.TaskLifecycle
