import MxAgent.Daemon.TaskSession
import MxAgent.Foundations.Run
import MxAgent.System.TaskSignatures

/-! Whom the action of a task is authorized for. The daemon signs an action for the task's
assignee when the action or the assignee changes, so the authorization should follow the
assignee. It does, except when a task is un-assigned: there is nobody to sign for, and the
action keeps the authorization it had. -/
namespace MxAgent.System.AuthoredActions

open Std Protocol Daemon System.TaskSignatures

/-- An operation of a local caller, with what the signing key, the stamp, the read and the
publication come to. -/
inductive Label where
  | create (loaded : Except WorkspaceError Unit) (stamp : AuthorizationStamp)
      (options : CreateTaskOptions) (event : Except WorkspaceError (Option String))
      (generated userId now : String) (publish : Except WorkspaceError Unit)
  | update (loaded : Except WorkspaceError Unit) (stamp : AuthorizationStamp)
      (options : UpdateTaskOptions) (event : Except WorkspaceError (Option String))
      (userId now : String) (publish : Except WorkspaceError Unit)

namespace Label

def taskId : Label → String
  | .create _ _ options _ generated _ _ _ => resolveTaskId options generated
  | .update _ _ options _ _ _ _ => options.taskId

def action : Label → Option TaskAction
  | .create _ _ options _ _ _ _ _ => options.action
  | .update _ _ options _ _ _ _ => options.action

def Unsigned (label : Label) : Prop :=
  ∀ action ∈ label.action, action.authorization = none

end Label

variable {taskId userId now : String} {stamp : AuthorizationStamp} {room : TaskRoom}
  {loaded publish : Except WorkspaceError Unit} {event : Except WorkspaceError (Option String)}
  {options : UpdateTaskOptions}

section Authoring

variable {Key : Type} {crypto : Crypto Key} (signing : DaemonSigningKey crypto)

def perform (room : TaskRoom) : Label → Except WorkspaceError TaskState
  | .create loaded stamp options event generated userId now publish =>
    createTaskForSession signing stamp loaded (room.read event (resolveTaskId options generated))
      options generated userId now publish
  | .update loaded stamp options event userId now publish =>
    updateTaskForSession signing stamp loaded (room.read event options.taskId) options userId now
      publish

def step (room : TaskRoom) (label : Label) : TaskRoom :=
  room.store label.taskId (perform signing room label)

def roomAfter (labels : List Label) : TaskRoom := labels.foldl (step signing) ∅

/-- The authorization of an action, if any, is for the assignee, and the daemon's key signed it for
the task. -/
def Authorized (taskId assignedTo : String) (action : TaskAction) : Prop :=
  ∀ auth ∈ action.authorization, assignedTo ≠ "" ∧ auth.targetAgent = assignedTo ∧
    verifyTaskActionSignature crypto signing.signingKey.verifyingKey taskId action auth = .ok ()

def Addressed (task : TaskState) : Prop :=
  ∀ action ∈ task.action, Authorized signing task.taskId task.assignedTo action

def AllAddressed (room : TaskRoom) : Prop :=
  ∀ (taskId : String) (task : TaskState), room[taskId]? = some task → Addressed signing task

/-! ## What is signed -/

variable {signing}

theorem authorized_of_none {assignedTo : String} {action : TaskAction}
    (h : action.authorization = none) : Authorized signing taskId assignedTo action := by
  intro auth hAuth
  rw [h] at hAuth
  cases hAuth

/-- An unsigned action comes back signed for the target, if any. -/
theorem authoredAuthorization_ok {action : TaskAction} {requestingAgent targetAgent : String}
    {signed : Option TaskAction} (hUnsigned : action.authorization = none)
    (h : authoredAuthorization signing stamp taskId action requestingAgent targetAgent =
      .ok signed) :
    (targetAgent = "" ∧ signed = none) ∨
      targetAgent ≠ "" ∧ ∃ result, signed = some result ∧
        Authorized signing taskId targetAgent result := by
  simp only [authoredAuthorization, hUnsigned, Option.isSome_none, Bool.false_eq_true,
    if_false] at h
  split at h
  · cases h
    exact .inl ⟨‹_›, rfl⟩
  · rename_i hTarget
    split at h
    · cases h
    · rename_i auth hSign
      cases h
      obtain ⟨hAuthTarget, hVerify⟩ := verify_of_signTaskAction hSign
      refine .inr ⟨hTarget, _, rfl, ?_⟩
      intro found hFound
      rw [authorization_withAuthorization] at hFound
      cases hFound
      exact ⟨hTarget, hAuthTarget, hVerify⟩

theorem withoutAuthorization_authorization (action : TaskAction) :
    action.withoutAuthorization.authorization = none := by
  cases action <;> rfl

theorem nonEmptyOr_resolved (text : Option String) (otherwise : String) :
    nonEmptyOr (some (nonEmptyOr text otherwise)) otherwise = nonEmptyOr text otherwise := by
  have hOnce (given : String) :
      nonEmptyOr (some given) otherwise = if given = "" then otherwise else given := by
    by_cases hGiven : given = "" <;> simp [nonEmptyOr, Option.filter, hGiven]
  rw [hOnce]
  split
  · rename_i hEmpty
    cases text with
    | none => rfl
    | some given =>
      rw [hOnce] at hEmpty ⊢
      split at hEmpty
      · rw [if_pos ‹_›]
      · contradiction
  · rfl

theorem addressed_of_create {options : CreateTaskOptions} {generated : String} {task : TaskState}
    (hUnsigned : ∀ action ∈ options.action, action.authorization = none)
    (h : perform signing room (.create loaded stamp options event generated userId now publish) =
      .ok task) : Addressed signing task := by
  obtain ⟨stored, hStored, hCreate⟩ := Fallible.bind_eq_ok.mp h
  obtain ⟨-, -, rfl⟩ := createTask_ok hCreate
  intro action hAction
  obtain rfl : stored = some action := hAction
  change Authorized signing (nonEmptyOr (some (nonEmptyOr options.taskId generated)) generated)
    options.assignedTo action
  rw [nonEmptyOr_resolved]
  unfold authoredNewAction at hStored
  cases hOption : options.action with
  | none =>
    rw [hOption] at hStored
    cases hStored
  | some supplied =>
    simp only [hOption, Fallible.bind_eq_ok] at hStored
    obtain ⟨⟨⟩, -, signed, hSigned, hOr⟩ := hStored
    have hOr : signed.or (some supplied) = some action := Except.ok.inj hOr
    have hNone := hUnsigned supplied hOption
    obtain ⟨-, rfl⟩ | ⟨-, result, rfl, hResult⟩ := authoredAuthorization_ok hNone hSigned
    · cases hOr
      exact authorized_of_none hNone
    · cases hOr
      exact hResult

/-! ## What an update leaves -/

/-- The update takes the assignee away and supplies no action. -/
def unassigns (options : UpdateTaskOptions) : Bool :=
  options.action.isNone && options.assignedTo == some ""

def carriesAuthorization (task : TaskState) : Bool :=
  task.action.any fun action => action.authorization.isSome

theorem addressed_iff_of_unassigned {task : TaskState} (hAssignee : task.assignedTo = "") :
    Addressed signing task ↔ carriesAuthorization task = false := by
  unfold Addressed carriesAuthorization
  cases task.action with
  | none => simp
  | some action =>
    cases hAuth : action.authorization with
    | none => simpa [hAuth] using authorized_of_none hAuth
    | some auth => simp [Authorized, hAuth, hAssignee]

/-- The updated task is addressed to its assignee unless un-assigned with its action authorized. -/
theorem addressed_applyUpdate_iff {current : TaskState} {eventId : Option String}
    {signed : Option TaskAction} (hCurrent : Addressed signing current)
    (hUnsigned : ∀ action ∈ options.action, action.authorization = none)
    (h : resignedAction signing stamp current options userId = .ok signed) :
    Addressed signing (applyUpdate current { options with action := signed.or options.action } now
        eventId) ↔
      (unassigns options && carriesAuthorization current) = false := by
  unfold resignedAction at h
  cases hAction : options.action with
  | some supplied =>
    simp only [hAction] at h
    have hNone := hUnsigned supplied hAction
    refine iff_of_true ?_ (by simp [unassigns, hAction])
    intro action hStored
    obtain ⟨-, rfl⟩ | ⟨-, result, rfl, hResult⟩ := authoredAuthorization_ok hNone h
    · cases hStored
      exact authorized_of_none hNone
    · cases hStored
      exact hResult
  | none =>
    cases hAssignee : options.assignedTo with
    | none =>
      simp only [hAction, hAssignee] at h
      cases h
      refine iff_of_true ?_ (by simp [unassigns, hAssignee])
      intro action hStored
      have hStored : current.action = some action := by simpa [applyUpdate] using hStored
      simpa [applyUpdate, hAssignee] using hCurrent action hStored
    | some assignee =>
      simp only [hAction, hAssignee, Option.isSome_some, if_true, Option.getD_some] at h
      cases hStored : current.action with
      | none =>
        rw [hStored] at h
        cases h
        refine iff_of_true ?_ (by simp [carriesAuthorization, hStored])
        intro action hKept
        simp [applyUpdate, hStored] at hKept
      | some stored =>
        rw [hStored] at h
        obtain ⟨rfl, rfl⟩ | ⟨hTarget, result, rfl, hResult⟩ :=
          authoredAuthorization_ok (withoutAuthorization_authorization stored) h
        · rw [addressed_iff_of_unassigned (by simp [applyUpdate])]
          simp [unassigns, hAction, hAssignee, carriesAuthorization, applyUpdate]
        · refine iff_of_true ?_ (by simp [unassigns, hAssignee, hTarget])
          intro action hKept
          cases hKept
          exact hResult

theorem updateTaskForSession_eq (stamp : AuthorizationStamp) (loaded : Except WorkspaceError Unit)
    (read : TaskRead) (options : UpdateTaskOptions) (userId now : String)
    (publish : Except WorkspaceError Unit) :
    updateTaskForSession signing stamp loaded read options userId now publish =
      (if options.action.isSome || options.assignedTo.isSome then loaded else .ok ()) >>= fun _ =>
        updateTaskWithSigning signing stamp read options userId now publish := by
  unfold updateTaskForSession
  split
  · rfl
  · rename_i hNeither
    obtain ⟨hAction, hAssignee⟩ : options.action = none ∧ options.assignedTo = none := by
      simpa using hNeither
    change _ = updateTaskWithSigning signing stamp read options userId now publish
    unfold updateTaskInRoom updateTaskWithSigning
    congr 1
    funext ⟨current, eventId⟩
    have hNothing : resignedAction signing stamp current options userId = .ok none := by
      simp [resignedAction, hAction, hAssignee]
    simp only [hNothing]
    rfl

theorem foundTask_eq_ok_iff {read : TaskRead} {found : TaskState × Option String} :
    foundTask taskId read = .ok found ↔ read = .ok (some found) := by
  refine ⟨foundTask_ok, ?_⟩
  rintro rfl
  rfl

/-- What an accepted update has passed, and what it makes of the task. -/
theorem perform_update_eq_ok_iff {after : TaskState} :
    perform signing room (.update loaded stamp options event userId now publish) = .ok after ↔
      (if options.action.isSome || options.assignedTo.isSome then loaded else .ok ()) = .ok () ∧
      ∃ current eventId, (event = .ok eventId ∧ room[options.taskId]? = some current) ∧
        ∃ signed, resignedAction signing stamp current options userId = .ok signed ∧
          checkUpdate current options = .ok () ∧ publish = .ok () ∧
          applyUpdate current { options with action := signed.or options.action } now eventId =
            after := by
  rw [perform, updateTaskForSession_eq]
  simp only [updateTaskWithSigning, applyAndPublishTask, Fallible.bind_eq_ok, Prod.exists,
    foundTask_eq_ok_iff, TaskRoom.read_eq_some_iff]
  constructor
  · rintro ⟨⟨⟩, hLoaded, current, eventId, hStored, signed, hSigned, ⟨⟩, hCheck, ⟨⟩, hPublish,
      hAfter⟩
    exact ⟨hLoaded, current, eventId, hStored, signed, hSigned, hCheck, hPublish,
      Except.ok.inj hAfter⟩
  · rintro ⟨hLoaded, current, eventId, hStored, signed, hSigned, hCheck, hPublish, rfl⟩
    exact ⟨(), hLoaded, current, eventId, hStored, signed, hSigned, (), hCheck, (), hPublish, rfl⟩

/-! ## Steps and runs -/

/-- An accepted operation un-assigns a task whose action is authorized, and supplies no other
action. -/
def strands (room : TaskRoom) : Label → Bool
  | .create .. => false
  | .update loaded _ options event _ _ publish =>
    unassigns options && loaded.isOk && event.isOk && publish.isOk &&
      room[options.taskId]?.any fun task =>
        carriesAuthorization task && (checkUpdate task options).isOk

theorem allAddressed_store_iff (hRoom : AllAddressed signing room) (taskId : String)
    (result : Except WorkspaceError TaskState) :
    AllAddressed signing (room.store taskId result) ↔
      ∀ task, result = .ok task → Addressed signing task := by
  constructor
  · rintro h task rfl
    exact h taskId task TaskRoom.getElem?_store_ok
  · intro h other task hTask
    by_cases hOther : other = taskId
    · subst hOther
      cases result with
      | error error => exact hRoom _ _ hTask
      | ok stored =>
        rw [TaskRoom.getElem?_store_ok] at hTask
        exact h task (congrArg Except.ok (Option.some.inj hTask))
    · rw [TaskRoom.getElem?_store_of_ne hOther] at hTask
      exact hRoom other task hTask

theorem eq_of_unassigns (h : unassigns options) :
    options.action = none ∧ options.assignedTo = some "" := by
  simpa [unassigns] using h

theorem resignedAction_of_unassigns {current : TaskState} (h : unassigns options) :
    resignedAction signing stamp current options userId = .ok none := by
  obtain ⟨hAction, hAssignee⟩ := eq_of_unassigns h
  cases hStored : current.action with
  | none => simp [resignedAction, hAction, hAssignee, hStored]
  | some stored =>
    simp [resignedAction, hAction, hAssignee, hStored, authoredAuthorization]

theorem strands_update_iff :
    strands room (.update loaded stamp options event userId now publish) ↔
      unassigns options ∧ loaded = .ok () ∧ publish = .ok () ∧
      ∃ current eventId, (event = .ok eventId ∧ room[options.taskId]? = some current) ∧
        carriesAuthorization current ∧ checkUpdate current options = .ok () := by
  have hUnit (result : Except WorkspaceError Unit) : result.isOk ↔ result = .ok () :=
    Fallible.isOk_iff.trans ⟨fun ⟨⟨⟩, h⟩ => h, fun h => ⟨(), h⟩⟩
  simp only [strands, Bool.and_eq_true, Option.any_eq_true, hUnit, Fallible.isOk_iff]
  constructor
  · rintro ⟨⟨⟨⟨hUnassigns, hLoaded⟩, eventId, hEvent⟩, hPublish⟩, current, hStored,
      hCarries, hCheck⟩
    exact ⟨hUnassigns, hLoaded, hPublish, current, eventId, ⟨hEvent, hStored⟩, hCarries, hCheck⟩
  · rintro ⟨hUnassigns, hLoaded, hPublish, current, eventId, ⟨hEvent, hStored⟩, hCarries, hCheck⟩
    exact ⟨⟨⟨⟨hUnassigns, hLoaded⟩, eventId, hEvent⟩, hPublish⟩, current, hStored, hCarries, hCheck⟩

/-- A step keeps the actions addressed unless it strands one. -/
theorem allAddressed_step_iff (room : TaskRoom) (label : Label) (hUnsigned : label.Unsigned)
    (hRoom : AllAddressed signing room) :
    AllAddressed signing (step signing room label) ↔ strands room label = false := by
  rw [step, allAddressed_store_iff hRoom]
  cases label with
  | create loaded stamp options event generated userId now publish =>
    exact iff_of_true (fun task h => addressed_of_create hUnsigned h) rfl
  | update loaded stamp options event userId now publish =>
    rw [← Bool.not_eq_true, strands_update_iff]
    constructor
    · rintro h ⟨hUnassigns, hLoaded, hPublish, current, eventId, hStored, hCarries, hCheck⟩
      have hSigned : resignedAction signing stamp current options userId = .ok none :=
        resignedAction_of_unassigns hUnassigns
      have hAfter := h _ (perform_update_eq_ok_iff.mpr ⟨by rw [hLoaded, ite_self], current,
        eventId, hStored, none, hSigned, hCheck, hPublish, rfl⟩)
      rw [addressed_applyUpdate_iff (hRoom _ _ hStored.2) hUnsigned hSigned, hUnassigns,
        hCarries] at hAfter
      cases hAfter
    · intro hStrands task h
      obtain ⟨hLoaded, current, eventId, hStored, signed, hSigned, hCheck, hPublish, rfl⟩ :=
        perform_update_eq_ok_iff.mp h
      rw [addressed_applyUpdate_iff (hRoom _ _ hStored.2) hUnsigned hSigned]
      by_contra hBoth
      obtain ⟨hUnassigns, hCarries⟩ :
          unassigns options ∧ carriesAuthorization current := by
        simpa using hBoth
      rw [if_pos (by simp [eq_of_unassigns hUnassigns])] at hLoaded
      exact hStrands ⟨hUnassigns, hLoaded, hPublish, current, eventId, hStored, hCarries, hCheck⟩

end Authoring

/-- The authorizations of the stored actions follow the assignees through a history of operations
exactly when none un-assigns a task whose action is authorized. -/
theorem authorizations_follow_assignees {Key : Type} {crypto : Crypto Key}
    (signing : DaemonSigningKey crypto) (labels : List Label)
    (hUnsigned : ∀ label ∈ labels, label.Unsigned) :
    (∀ n, AllAddressed signing (roomAfter signing (labels.take n))) ↔
      LabelledRun.Allowed (fun room label => strands room label = false)
        (step signing) ∅ labels := by
  refine LabelledRun.forall_take_iff_allowed allAddressed_step_iff ?_ hUnsigned
  intro taskId task hTask
  simp at hTask

def echoSigning : DaemonSigningKey echo := ⟨echoKey, "mxagent-ed25519:daemon"⟩

def sampleStamp : AuthorizationStamp :=
  ⟨"2026-06-01T00:00:00Z", "2026-06-01T01:00:00Z", "nonce_1"⟩

def createForBuilder : Label :=
  .create (.ok ()) sampleStamp ⟨some "task_1", "test", "", none, "@builder", none, [], [],
    some (.tool "run_tests" (.object []) none)⟩ (.ok none) "task_0" "@operator:host"
    "2026-06-01T00:00:00Z" (.ok ())

def assign (assignedTo : String) : Label :=
  .update (.ok ()) sampleStamp
    { taskId := "task_1"
      state := none
      assignedTo := some assignedTo
      invocationId := none
      result := none
      expectedStateRev := none }
    (.ok none) "@operator:host" "2026-06-01T00:00:01Z" (.ok ())

/-- The authorization follows a task from one agent to another. -/
theorem reassigned_action_follows :
    AllAddressed echoSigning (roomAfter echoSigning [createForBuilder, assign "@tester"]) := by
  have hUnsigned : ∀ label ∈ [createForBuilder, assign "@tester"], label.Unsigned := by
    simp [Label.Unsigned, Label.action, createForBuilder, assign, TaskAction.authorization]
  exact (authorizations_follow_assignees echoSigning _ hUnsigned).mpr (by decide +kernel) 2

/-- After it is un-assigned, the task still carries the builder's authorization. -/
theorem unassigned_action_keeps_authorization :
    ((roomAfter echoSigning [createForBuilder, assign ""])["task_1"]?.map fun task =>
      (task.assignedTo, task.action.bind fun action =>
        action.authorization.map fun auth => auth.targetAgent)) = some ("", some "@builder") := by
  decide +kernel

end MxAgent.System.AuthoredActions
