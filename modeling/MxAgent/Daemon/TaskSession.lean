import MxAgent.Daemon.TaskUpdate

/-! Tasks as a local caller creates and updates them. The daemon signs the action of
a task that has an assignee on the caller's behalf, since the caller has no signing key. -/
namespace MxAgent.Daemon

open Protocol Std

def defaultTaskState : String := statePending

structure CreateTaskOptions where
  taskId : Option String
  title : String
  description : String
  state : Option String
  assignedTo : String
  createdBy : Option String
  dependsOn : List String
  blocks : List String
  action : Option TaskAction
  deriving DecidableEq

def nonEmptyOr (text : Option String) (otherwise : String) : String :=
  (text.filter fun text => text ≠ "").getD otherwise

/-- `resolve_created_by`, with the client's Matrix user id. -/
def resolveCreatedBy (options : CreateTaskOptions) (userId : String) : String :=
  nonEmptyOr options.createdBy userId

/-- The id of the new task, with the one that is generated if none is given. -/
def resolveTaskId (options : CreateTaskOptions) (generated : String) : String :=
  nonEmptyOr options.taskId generated

def buildNewTask (options : CreateTaskOptions) (taskId createdBy now : String) : TaskState where
  taskId
  title := options.title
  description := options.description
  state := nonEmptyOr options.state defaultTaskState
  assignedTo := options.assignedTo
  createdBy
  dependsOn := options.dependsOn
  blocks := options.blocks
  invocationId := none
  createdAt := now
  updatedAt := now
  stateRev := 1
  previousEventId := none
  result := none
  action := options.action
  extra := ∅

def refuseExisting (taskId : String) (existing : TaskRead) : Except WorkspaceError Unit := do
  match ← existing with
  | some _ => .error (.taskExists taskId)
  | none => .ok ()

/-- `create_task_returning_event_id`, with the task that is read under the new id. -/
def createTask (existing : TaskRead) (options : CreateTaskOptions) (generated userId now : String)
    (publish : Except WorkspaceError Unit) : Except WorkspaceError TaskState := do
  let taskId := resolveTaskId options generated
  refuseExisting taskId existing
  let task := buildNewTask options taskId (resolveCreatedBy options userId) now
  checkKnownState task.state
  publish
  pure task

variable {task : TaskState} {room : TaskRoom} {taskId : String}

theorem createTask_ok {existing : TaskRead} {options : CreateTaskOptions}
    {generated userId now : String} {publish : Except WorkspaceError Unit}
    (h : createTask existing options generated userId now publish = .ok task) :
    existing = .ok none ∧ isKnownState task.state ∧
      task = buildNewTask options (resolveTaskId options generated)
        (resolveCreatedBy options userId) now := by
  simp only [createTask, Fallible.bind_eq_ok] at h
  obtain ⟨⟨⟩, hExisting, ⟨⟩, hKnown, ⟨⟩, -, hTask⟩ := h
  cases hTask
  obtain ⟨found, hRead, hAbsent⟩ := Fallible.bind_eq_ok.mp hExisting
  cases found with
  | some task => cases hAbsent
  | none =>
    refine ⟨hRead, ?_, rfl⟩
    unfold checkKnownState at hKnown
    split at hKnown
    · assumption
    · cases hKnown

/-! ## The tasks of a room -/

abbrev TaskRoom := ExtTreeMap String TaskState

namespace TaskRoom

/-- `read_task_state`, which fails or comes with the event id of the task. -/
def read (room : TaskRoom) (event : Except WorkspaceError (Option String)) (taskId : String) :
    TaskRead :=
  event.map fun eventId => room[taskId]?.map fun task => (task, eventId)

def store (room : TaskRoom) (taskId : String) (result : Except WorkspaceError TaskState) :
    TaskRoom :=
  match result with
  | .ok task => room.insert taskId task
  | .error _ => room

theorem read_eq_some_iff {event : Except WorkspaceError (Option String)} {eventId : Option String} :
    room.read event taskId = .ok (some (task, eventId)) ↔
      event = .ok eventId ∧ room[taskId]? = some task := by
  cases event with
  | error error => simp [read, Except.map]
  | ok found =>
    simp only [read, Except.map, Except.ok.injEq, Option.map_eq_some_iff, Prod.mk.injEq]
    constructor
    · rintro ⟨other, hOther, rfl, rfl⟩
      exact ⟨rfl, hOther⟩
    · rintro ⟨rfl, hTask⟩
      exact ⟨task, hTask, rfl, rfl⟩

theorem getElem?_of_read_none {event : Except WorkspaceError (Option String)}
    (h : room.read event taskId = .ok none) : room[taskId]? = none := by
  cases event with
  | error error => cases h
  | ok found => simpa [read, Except.map] using h

theorem getElem?_store_ok : (room.store taskId (.ok task))[taskId]? = some task := by
  simp [store]

theorem getElem?_store_of_ne {other : String} {result : Except WorkspaceError TaskState}
    (h : other ≠ taskId) :
    (room.store taskId result)[other]? = room[other]? := by
  cases result with
  | error error => rfl
  | ok task => simp [store, ExtTreeMap.getElem?_insert, Ne.symm h]

end TaskRoom

/-! ## Signing on behalf of the caller -/

section Authoring

variable {Key : Type} {crypto : Crypto Key}

structure DaemonSigningKey (crypto : Crypto Key) where
  signingKey : SigningKey crypto
  keyId : String

structure AuthorizationStamp where
  createdAt : String
  expiresAt : String
  nonce : String
  deriving DecidableEq, Repr

variable (signing : DaemonSigningKey crypto) (stamp : AuthorizationStamp)

/-- `authored_authorization`: the signed action, or none if there is nothing to sign or no
addressee. -/
def authoredAuthorization (taskId : String) (action : TaskAction)
    (requestingAgent targetAgent : String) : Except WorkspaceError (Option TaskAction) :=
  if action.authorization.isSome then .ok none
  else if targetAgent = "" then .ok none
  else
    let unsigned := action.withoutAuthorization
    match signTaskAction crypto signing.signingKey signing.keyId taskId unsigned requestingAgent
        targetAgent stamp.createdAt stamp.expiresAt stamp.nonce with
    | .error error => .error (.signing error)
    | .ok auth => .ok (some (unsigned.withAuthorization auth))

def authoredNewAction (loaded : Except WorkspaceError Unit) (taskId : String)
    (options : CreateTaskOptions) (userId : String) :
    Except WorkspaceError (Option TaskAction) :=
  match options.action with
  | none => .ok none
  | some action => do
      loaded
      let signed ← authoredAuthorization signing stamp taskId action
        (resolveCreatedBy options userId) options.assignedTo
      pure (signed.or options.action)

/-- `create_task_for_session`. `loaded` is the signing key, or an error. -/
def createTaskForSession (loaded : Except WorkspaceError Unit) (existing : TaskRead)
    (options : CreateTaskOptions) (generated userId now : String)
    (publish : Except WorkspaceError Unit) : Except WorkspaceError TaskState := do
  let taskId := resolveTaskId options generated
  let action ← authoredNewAction signing stamp loaded taskId options userId
  createTask existing { options with taskId := some taskId, action } generated userId now publish

/-- What `update_task_with_signing` signs: a new action, or the stored one. -/
def resignedAction (current : TaskState) (options : UpdateTaskOptions) (userId : String) :
    Except WorkspaceError (Option TaskAction) :=
  let effectiveAssignee := options.assignedTo.getD current.assignedTo
  let requester := if current.createdBy = "" then userId else current.createdBy
  match options.action with
  | some newAction =>
    authoredAuthorization signing stamp current.taskId newAction requester effectiveAssignee
  | none =>
    if options.assignedTo.isSome then
      match current.action with
      | some action =>
        authoredAuthorization signing stamp current.taskId action.withoutAuthorization
          requester effectiveAssignee
      | none => .ok none
    else .ok none

def updateTaskWithSigning (read : TaskRead) (options : UpdateTaskOptions) (userId now : String)
    (publish : Except WorkspaceError Unit) : Except WorkspaceError TaskState := do
  let (current, eventId) ← foundTask options.taskId read
  let signed ← resignedAction signing stamp current options userId
  applyAndPublishTask current eventId { options with action := signed.or options.action } now
    publish

def updateTaskForSession (loaded : Except WorkspaceError Unit) (read : TaskRead)
    (options : UpdateTaskOptions) (userId now : String) (publish : Except WorkspaceError Unit) :
    Except WorkspaceError TaskState :=
  if options.action.isSome || options.assignedTo.isSome then do
    loaded
    updateTaskWithSigning signing stamp read options userId now publish
  else updateTaskInRoom read options now publish

end Authoring

end MxAgent.Daemon
