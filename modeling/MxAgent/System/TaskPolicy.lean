import MxAgent.System.RemoteEnvironment

/-! Whom the policy is asked about. A task's signature covers its id and its
action, but the policy is asked about the user the task state names as its creator,
which anyone who can write the state can set. -/
namespace MxAgent.System.TaskPolicy

open Protocol Daemon TaskOrchestrator

variable (regexNew : RegexNew)

def grants (room : RoomPolicy) (rules : AgentPolicy) : TaskAction → Bool
  | .tool tool _ _ => rules.allowTools.contains tool
  | .exec [] _ _ _ _ _ => false
  | .exec (program :: args) cwd _ _ _ _ =>
    (rules.allowExec || room.rawExecDefault == some .allow) && room.trusted &&
      commandAllowed program rules.allowCommands && cwdAllowed cwd rules.allowCwd &&
      (matchedDenyPattern regexNew (program :: args) rules.denyArgsRegex).isNone

variable {regexNew}

theorem allowance_of_lookup_error {policy : Policy} {roomId : String} {task : TaskState}
    {reason : DenyReason} (h : policy.lookup roomId task.createdBy = .error reason)
    (action : TaskAction) :
    (evaluateTaskAction regexNew policy roomId task action).allowance = none := by
  cases action with
  | tool => simp [evaluateTaskAction, Policy.evaluateCall, h, Outcome.allowance]
  | exec => simp [evaluateTaskAction, Policy.evaluateExec, h, Outcome.allowance]

theorem allowance_of_lookup_ok {policy : Policy} {roomId : String} {task : TaskState}
    {room : RoomPolicy} {rules : AgentPolicy}
    (h : policy.lookup roomId task.createdBy = .ok (room, rules)) (action : TaskAction) :
    (evaluateTaskAction regexNew policy roomId task action).allowance =
      if grants regexNew room rules action then some (policy.allowanceFor room rules)
      else none := by
  match action with
  | .tool tool _ _ =>
    by_cases hTool : tool ∈ rules.allowTools <;>
      simp [evaluateTaskAction, Policy.evaluateCall, h, grants, hTool, Outcome.allowance]
  | .exec [] _ _ _ _ _ => simp [evaluateTaskAction, Policy.evaluateExec, h, grants,
    Outcome.allowance]
  | .exec (program :: args) cwd _ _ _ _ =>
    simp only [evaluateTaskAction, Policy.evaluateExec, h, grants]
    by_cases hExec : (rules.allowExec || room.rawExecDefault == some .allow)
    swap
    · simp [Bool.not_eq_true _ ▸ hExec, Outcome.allowance]
    by_cases hTrusted : room.trusted
    swap
    · simp [hExec, hTrusted, Outcome.allowance]
    by_cases hCommand : commandAllowed program rules.allowCommands
    swap
    · simp [hExec, hTrusted, hCommand, Outcome.allowance]
    by_cases hCwd : cwdAllowed cwd rules.allowCwd
    swap
    · simp [hExec, hTrusted, hCommand, hCwd, Outcome.allowance]
    rcases Option.eq_none_or_eq_some
        (matchedDenyPattern regexNew (program :: args) rules.denyArgsRegex) with
      hDeny | ⟨pattern, hDeny⟩ <;>
      simp [hExec, hTrusted, hCommand, hCwd, hDeny, Outcome.allowance]

def createdBy (user taskId : String) (action : TaskAction) : TaskState :=
  { TaskAuthorizations.taskOf action 1 with taskId, createdBy := user }

/-- The answer about a signed action is the same for all tasks that carry it exactly if the room's
policy grants the action to nobody. -/
theorem allowance_determined_iff (policy : Policy) (roomId taskId : String) (action : TaskAction) :
    (∀ first second : TaskState, first.taskId = taskId → second.taskId = taskId →
      actionFromTask first = .ok action → actionFromTask second = .ok action →
      (evaluateTaskAction regexNew policy roomId first action).allowance =
        (evaluateTaskAction regexNew policy roomId second action).allowance) ↔
    ∀ (room : RoomPolicy) (user : String) (rules : AgentPolicy),
      policy.rooms[roomId]? = some room → room.agents[user]? = some rules →
      grants regexNew room rules action = false := by
  constructor
  · intro hSame room user rules hRoom hRules
    obtain ⟨stranger, hFresh⟩ := StringMap.exists_not_mem room.agents
    have hStranger := StringMap.getElem?_eq_none_of_not_mem hFresh
    have hListed : (evaluateTaskAction regexNew policy roomId (createdBy user taskId action)
        action).allowance = _ :=
      allowance_of_lookup_ok (Policy.lookup_eq_ok_iff.mpr ⟨hRoom, hRules⟩) action
    have hUnknown : policy.lookup roomId (createdBy stranger taskId action).createdBy =
        .error .unknownAgent := by
      simp [Policy.lookup, hRoom, createdBy, hStranger]
    have hUnlisted : (evaluateTaskAction regexNew policy roomId
        (createdBy stranger taskId action) action).allowance = none :=
      allowance_of_lookup_error hUnknown action
    rw [hSame _ (createdBy stranger taskId action) rfl rfl rfl rfl, hUnlisted] at hListed
    cases hGrants : grants regexNew room rules action with
    | false => rfl
    | true => simp [hGrants] at hListed
  · intro hNobody
    have hDenied : ∀ task : TaskState,
        (evaluateTaskAction regexNew policy roomId task action).allowance = none := by
      intro task
      cases hLookup : policy.lookup roomId task.createdBy with
      | error reason => exact allowance_of_lookup_error hLookup action
      | ok found =>
        obtain ⟨room, rules⟩ := found
        obtain ⟨hRoom, hRules⟩ := Policy.lookup_eq_ok_iff.mp hLookup
        have hGrants := hNobody room task.createdBy rules hRoom hRules
        rw [allowance_of_lookup_ok hLookup, hGrants]
        rfl
    intro first second _ _ _ _
    rw [hDenied first, hDenied second]

section RenamedCreator

open ApprovalRooms TaskAuthorizations RemoteEnvironment

/-- The runner may not build in the lab, but their task is allowed once it names the lead as its
creator. The signature holds for both. -/
theorem allowance_depends_on_creator :
    ¬ ∀ (crypto : Crypto String) (regexNew : RegexNew)
        (orchestrator : TaskOrchestrator String Unit) (policy : Policy) (roomId : String)
        (first second : TaskState) (action : TaskAction),
        orchestrator.trustStore.isSome → first.taskId = second.taskId →
        actionFromTask first = .ok action → actionFromTask second = .ok action →
        authorizationFailure crypto orchestrator true first action = none →
        authorizationFailure crypto orchestrator true second action = none →
        (evaluateTaskAction regexNew policy roomId first action).allowance =
          (evaluateTaskAction regexNew policy roomId second action).allowance := by
  intro hClaim
  have hSame := hClaim namedKeys (fun _ => none) taskOrchestrator leadPolicy labRoom
    (createdBy "@runner:example.org" "task-1" buildAction)
    (createdBy "@lead:example.org" "task-1" buildAction) buildAction rfl rfl rfl rfl
    (by decide +kernel) (by decide +kernel)
  revert hSame
  decide +kernel

end RenamedCreator

end MxAgent.System.TaskPolicy
