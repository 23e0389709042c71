import MxAgent.Daemon.TaskUpdate
import MxAgent.Foundations.Run
import MxAgent.System.GateFrame

/-! The state of one task as a register of the room, with two writers: the
scheduler, whose store checks, reads and publishes in separate steps, and an
operator who cancels the task. The last write wins, and reads may lag behind. -/
namespace MxAgent.System.TaskRegister

open Protocol Daemon LabelledRun

inductive Writer where
  | scheduler
  | operator
  deriving DecidableEq, Repr

structure Stored where
  writer : Writer
  task : TaskState
  deriving DecidableEq

inductive Phase where
  | idle
  | checked (options : UpdateTaskOptions)
  | fetched (options : UpdateTaskOptions) (current : TaskState) (eventId : Option String)
  deriving DecidableEq

/-- The register with its history, latest first; the scheduler's write cache; and the update it is
in. -/
structure Register where
  history : List Stored
  cache : Option (TaskState × Option String)
  phase : Phase
  deriving DecidableEq

inductive Read where
  | failed (error : WorkspaceError)
  | value (lag : Nat) (eventId : Option String)
  deriving DecidableEq

def Read.isCurrent : Read → Bool
  | .value 0 _ => true
  | _ => false

inductive Label where
  /-- The store's update begins with its look at the room. -/
  | check (options : UpdateTaskOptions) (latest : Read)
  | fetch (read : Read)
  | publish (now : String) (outcome : Except WorkspaceError Unit)
  /-- The write cache lives as long as a pass. -/
  | newPass
  /-- `cancel_task`, as of the moment it publishes. -/
  | cancel (taskId : String) (first : Read) (cancelled : Except WorkspaceError InvocationState)
      (second : Read) (completedBy now : String) (outcome : Except WorkspaceError Unit)

variable {register : Register} {latest : Stored} {older : List Stored}

namespace Register

def read (register : Register) : Read → TaskRead
  | .failed error => .error error
  | .value lag eventId => .ok (register.history[lag]?.map fun stored => (stored.task, eventId))

def write (register : Register) (writer : Writer) (task : TaskState) : Register :=
  { register with history := ⟨writer, task⟩ :: register.history }

def start (task : TaskState) : Register := ⟨[⟨.operator, task⟩], none, .idle⟩

def step (register : Register) : Label → Register
  | .check options latest =>
    match register.phase, refuseTerminal (register.read latest) options with
    | .idle, .ok _ => { register with phase := .checked options }
    | _, _ => register
  | .fetch read =>
    match register.phase with
    | .checked options =>
      match currentTask register.cache (register.read read) options with
      | .ok (current, eventId) => { register with phase := .fetched options current eventId }
      | .error _ => { register with phase := .idle }
    | _ => register
  | .publish now outcome =>
    match register.phase with
    | .fetched options current eventId =>
      match applyAndPublishTask current eventId options now outcome with
      | .ok updated =>
        { register.write .scheduler updated with cache := some (updated, none), phase := .idle }
      | .error _ => { register with phase := .idle }
    | _ => register
  | .newPass =>
    match register.phase with
    | .idle => { register with cache := none }
    | _ => register
  | .cancel taskId first cancelled second completedBy now outcome =>
    match cancelTask taskId (register.read first) cancelled (register.read second) completedBy
        now outcome with
    | .ok (some task) => register.write .operator task
    | _ => register

theorem read_checked (register : Register) (options : UpdateTaskOptions) (value : Read) :
    Register.read { register with phase := .checked options } value = register.read value := by
  cases value <;> rfl

/-- Without another writer in between, the three steps are the update of the store. -/
theorem steps_eq_update (hIdle : register.phase = .idle) (options : UpdateTaskOptions)
    (latest value : Read) (now : String) (outcome : Except WorkspaceError Unit) :
    [.check options latest, .fetch value, .publish now outcome].foldl step register =
      (matrixStoreUpdate register.cache (register.read latest) (register.read value) options now
        outcome).toOption.elim register fun updated =>
          { register.write .scheduler updated with cache := some (updated, none) } := by
  have hSame : { register with phase := .idle } = register := by rw [← hIdle]
  simp only [List.foldl_cons, List.foldl_nil, matrixStoreUpdate]
  cases hCheck : refuseTerminal (register.read latest) options with
  | error error => simp [step, hIdle, hCheck, Bind.bind, Except.bind, Except.toOption]
  | ok done =>
    have hChecked : register.step (.check options latest) =
        { register with phase := .checked options } := by simp [step, hIdle, hCheck]
    rw [hChecked]
    cases hCurrent : currentTask register.cache (register.read value) options with
    | error error =>
      simp [step, read_checked, hCurrent, hSame, hIdle, Bind.bind, Except.bind,
        Except.toOption]
    | ok found =>
      cases hPublish : applyAndPublishTask found.1 found.2 options now outcome with
      | error error =>
        simp [step, read_checked, hCurrent, hPublish, hSame, Bind.bind, Except.bind,
          Except.toOption]
      | ok updated =>
        simp [step, read_checked, hCurrent, hPublish, write, hIdle, Bind.bind, Except.bind,
          Except.toOption]

end Register

/-! ## What should hold of the register -/

/-- The states follow the lifecycle. After a terminal one the scheduler has written nothing, and it
is still there. -/
structure Lawful (history : List Stored) : Prop where
  edges : history.IsChain fun newer older =>
    canTransition older.task.state newer.task.state
  final : history.Pairwise fun newer older => isTerminal older.task.state →
    newer.writer = .operator ∧ newer.task.state = older.task.state

def scheduled : Label → Bool
  | .check options _ => options.state.isSome
  | _ => true

def Register.ended (register : Register) : Bool :=
  register.history.head?.any fun stored => isTerminal stored.task.state

/-- A check does not miss a terminal state, though it may lag. A read for a write is current, unless
the cache makes up for it, and the operator does not publish in the middle of an update. -/
def timely (register : Register) : Label → Bool
  | .check options latest =>
    !(register.ended && (refuseTerminal (register.read latest) options).isOk)
  | .fetch read => register.cache.isSome || read.isCurrent
  | .cancel _ _ _ second _ _ _ => register.phase == .idle && second.isCurrent
  | _ => true

theorem Lawful.write {stored : Stored} (h : Lawful (latest :: older))
    (hEdge : canTransition latest.task.state stored.task.state)
    (hWriter : stored.writer = .scheduler → isTerminal latest.task.state = false) :
    Lawful (stored :: latest :: older) := by
  refine ⟨.cons_cons hEdge h.edges, List.pairwise_cons.mpr ⟨fun past hPast hTerminal =>
    ?_, h.final⟩⟩
  have hSame : latest.task.state = past.task.state := by
    rcases List.mem_cons.mp hPast with rfl | hOlder
    · rfl
    · exact ((List.pairwise_cons.mp h.final).1 past hOlder hTerminal).2
  rw [← hSame] at hTerminal ⊢
  refine ⟨?_, eq_of_canTransition hTerminal hEdge⟩
  cases hBy : stored.writer with
  | operator => rfl
  | scheduler =>
    rw [hWriter hBy] at hTerminal
    cases hTerminal

/-! ## Timely runs -/

/-- An update in progress goes by the register's value, not terminal. -/
def Phase.Fits (task : TaskState) : Phase → Prop
  | .idle => True
  | .checked options => options.state.isSome ∧ isTerminal task.state = false
  | .fetched options current _ =>
    options.state.isSome ∧ isTerminal task.state = false ∧ current = task

/-- The write cache has the register's value, unless terminal. -/
structure Invariant (register : Register) (latest : Stored) (older : List Stored) : Prop where
  history : register.history = latest :: older
  lawful : Lawful (latest :: older)
  phase : register.phase.Fits latest.task
  cache : ∀ found ∈ register.cache, isTerminal latest.task.state = false → found.1 = latest.task

theorem read_of_isCurrent (h : register.history = latest :: older) {read : Read}
    (hRead : read.isCurrent) :
    ∃ eventId, register.read read = .ok (some (latest.task, eventId)) := by
  cases read with
  | failed error => cases hRead
  | value lag eventId =>
    cases lag with
    | zero => exact ⟨eventId, by simp [Register.read, h]⟩
    | succ lag => cases hRead

namespace Invariant

variable {register : Register} {latest : Stored} {older : List Stored}

theorem check (h : Invariant register latest older) {options : UpdateTaskOptions} {read : Read}
    (hState : options.state.isSome)
    (hTimely : timely register (.check options read)) :
    Invariant (register.step (.check options read)) latest older := by
  have hEnded : register.ended = isTerminal latest.task.state := by simp [Register.ended, h.history]
  rw [timely, hEnded] at hTimely
  simp only [Register.step]
  cases hRefuse : refuseTerminal (register.read read) options with
  | error error => simpa using h
  | ok done =>
    -- The check lets the update pass, so the register is not terminal.
    have hOpen : isTerminal latest.task.state = false := by
      simpa [hRefuse, Except.isOk, Except.toBool] using hTimely
    cases hPhase : register.phase with
    | idle => exact ⟨h.history, h.lawful, ⟨hState, hOpen⟩, h.cache⟩
    | checked _ => simpa using h
    | fetched _ _ _ => simpa using h

theorem fetch (h : Invariant register latest older) {read : Read}
    (hRead : register.cache.isSome ∨ read.isCurrent) :
    Invariant (register.step (.fetch read)) latest older := by
  cases hPhase : register.phase with
  | idle => simpa [Register.step, hPhase] using h
  | fetched _ _ _ => simpa [Register.step, hPhase] using h
  | checked options =>
    obtain ⟨hState, hOpen⟩ : options.state.isSome ∧ isTerminal latest.task.state =
      false := by
      simpa [hPhase, Phase.Fits] using h.phase
    -- Found in the cache or in the room, the task is the value of the register.
    obtain ⟨eventId, hCurrent⟩ : ∃ eventId,
        currentTask register.cache (register.read read) options = .ok (latest.task, eventId) := by
      cases hCache : register.cache with
      | some found =>
        have hFound : found.1 = latest.task := h.cache found hCache hOpen
        exact ⟨found.2, by rw [currentTask, ← hFound]⟩
      | none =>
        obtain ⟨eventId, hValue⟩ := read_of_isCurrent h.history
          (hRead.resolve_left (by simp [hCache]))
        exact ⟨eventId, by rw [currentTask, hValue]; rfl⟩
    simp only [Register.step, hPhase, hCurrent]
    exact ⟨h.history, h.lawful, ⟨hState, hOpen, rfl⟩, h.cache⟩

theorem publish (h : Invariant register latest older) (now : String)
    (outcome : Except WorkspaceError Unit) :
    ∃ latest older, Invariant (register.step (.publish now outcome)) latest older := by
  cases hPhase : register.phase with
  | idle => exact ⟨latest, older, by simpa [Register.step, hPhase] using h⟩
  | checked _ => exact ⟨latest, older, by simpa [Register.step, hPhase] using h⟩
  | fetched options current eventId =>
    obtain ⟨hState, hOpen, rfl⟩ : options.state.isSome ∧
        isTerminal latest.task.state = false ∧ current = latest.task := by
      simpa [hPhase, Phase.Fits] using h.phase
    simp only [Register.step, hPhase]
    cases hPublish : applyAndPublishTask latest.task eventId options now outcome with
    | error error => exact ⟨latest, older, h.history, h.lawful, trivial, h.cache⟩
    | ok updated =>
      obtain ⟨target, hTarget⟩ := Option.isSome_iff_exists.mp hState
      obtain ⟨rfl, -, hEdge⟩ := applyAndPublishTask_ok hPublish
      refine ⟨⟨.scheduler, _⟩, latest :: older, congrArg _ h.history, h.lawful.write ?_ ?_,
        trivial, ?_⟩
      · simpa [applyUpdate, hTarget] using hEdge target hTarget
      · exact fun _ => hOpen
      · rintro found hFound -
        cases hFound
        rfl

theorem cancel (h : Invariant register latest older) {second : Read}
    (hIdle : register.phase = .idle) (hRead : second.isCurrent) (taskId : String)
    (first : Read) (cancelled : Except WorkspaceError InvocationState) (completedBy now : String)
    (outcome : Except WorkspaceError Unit) :
    ∃ latest older, Invariant
      (register.step (.cancel taskId first cancelled second completedBy now outcome))
      latest older := by
  obtain ⟨eventId, hValue⟩ := read_of_isCurrent h.history hRead
  simp only [Register.step]
  split
  · rename_i task hCancel
    obtain ⟨hTerminal, current, _, hSecond, hEdge⟩ := cancelTask_ok hCancel
    rw [hValue] at hSecond
    cases hSecond
    refine ⟨⟨.operator, task⟩, latest :: older, congrArg _ h.history,
      h.lawful.write hEdge nofun, ?_, ?_⟩
    · simp [Register.write, hIdle, Phase.Fits]
    · simp [hTerminal]
  · exact ⟨latest, older, h⟩

end Invariant

/-- A timely step keeps the register lawful. -/
theorem invariant_step (h : Invariant register latest older) {label : Label}
    (hScheduled : scheduled label) (hTimely : timely register label) :
    ∃ latest older, Invariant (register.step label) latest older := by
  cases label with
  | check options read => exact ⟨latest, older, h.check hScheduled hTimely⟩
  | fetch read => exact ⟨latest, older, h.fetch (by simpa [timely] using hTimely)⟩
  | publish now outcome => exact h.publish now outcome
  | newPass =>
    refine ⟨latest, older, ?_⟩
    simp only [Register.step]
    split
    · exact ⟨h.history, h.lawful, h.phase, by simp⟩
    · exact h
  | cancel taskId first cancelled second completedBy now outcome =>
    obtain ⟨hIdle, hRead⟩ : register.phase = .idle ∧ second.isCurrent := by
      simpa [timely] using hTimely
    exact h.cancel hIdle hRead taskId first cancelled completedBy now outcome

/-- In a run of the scheduler and the operator in which no check misses a terminal state, every
other read is current or made up for by the write cache, and no cancel falls between check and
publication of an update, the register follows the lifecycle and a terminal state is final. -/
theorem terminal_state_final (task : TaskState) (labels : List Label)
    (h : Allowed (fun register label => scheduled label ∧ timely register label)
      Register.step (.start task) labels) :
    Lawful (labels.foldl Register.step (.start task)).history := by
  have hStart : Invariant (.start task) ⟨.operator, task⟩ [] :=
    ⟨rfl, ⟨.singleton _, List.pairwise_singleton _ _⟩, trivial, by simp [Register.start]⟩
  have hStep : ∀ register label, scheduled label ∧ timely register label →
      (∃ latest older, Invariant register latest older) →
      ∃ latest older, Invariant (register.step label) latest older :=
    fun _ _ hGuard ⟨_, _, hInvariant⟩ => invariant_step hInvariant hGuard.1 hGuard.2
  obtain ⟨latest, older, hFinish⟩ := h.run.invariant ⟨_, _, hStart⟩ hStep
  rw [hFinish.history]
  exact hFinish.lawful

/-! ## A task that is cancelled while it runs -/

def builder : TaskOrchestrator Unit Unit := ⟨"@builder", none, none, none, ∅, none⟩

def current : Read := .value 0 none

def claimLabels : List Label :=
  [.check (builder.claimOptions GateFrame.quietEnv GateFrame.buildTask) current, .fetch current,
    .publish "1970-01-01T00:00:01Z" (.ok ())]

def cancelLabel : Label :=
  .cancel "task_1" current (.error (.invocationNotFound "inv_1")) current "@operator:host"
    "1970-01-01T00:00:02Z" (.ok ())

def successOptions : UpdateTaskOptions :=
  TaskOrchestrator.finalOptions GateFrame.buildTask { GateFrame.buildTask with stateRev := 2 }
    stateSucceeded .null

def finishLabel : Label := .publish "1970-01-01T00:00:03Z" (.ok ())

def states (register : Register) : List (Writer × String) :=
  register.history.map fun stored => (stored.writer, stored.task.state)

/-- With a current look, the scheduler leaves the cancelled task. -/
theorem cancel_stands :
    Lawful ((claimLabels ++ [cancelLabel, .check successOptions current, .fetch current,
      finishLabel]).foldl Register.step (.start GateFrame.buildTask)).history ∧
    states ((claimLabels ++ [cancelLabel, .check successOptions current, .fetch current,
      finishLabel]).foldl Register.step (.start GateFrame.buildTask)) =
      [(.operator, "cancelled"), (.scheduler, "executing"), (.operator, "pending")] :=
  ⟨terminal_state_final _ _ (by decide +kernel), by decide +kernel⟩

/-- A look that lags one write behind, or comes just before it, misses the cancel: the scheduler
overwrites it. -/
theorem cancel_overwritten :
    states ((claimLabels ++ [cancelLabel, .check successOptions (.value 1 none), .fetch current,
      finishLabel]).foldl Register.step (.start GateFrame.buildTask)) =
      [(.scheduler, "succeeded"), (.operator, "cancelled"), (.scheduler, "executing"),
        (.operator, "pending")] ∧
    states ((claimLabels ++ [.check successOptions current, cancelLabel, .fetch current,
      finishLabel]).foldl Register.step (.start GateFrame.buildTask)) =
      [(.scheduler, "succeeded"), (.operator, "cancelled"), (.scheduler, "executing"),
        (.operator, "pending")] ∧
    canTransition "cancelled" "succeeded" = false := by
  decide +kernel

end MxAgent.System.TaskRegister
