import MxAgent.Daemon.LiveApproval

/-! The three live events that touch the approval queue, as one step of the daemon. -/
namespace MxAgent.Daemon

open Protocol

/-- A routed event with what its handler finds outside the daemon. -/
inductive LiveEvent where
  | execRequest (env : LiveEnv) (eventMeta : EventMeta) (request : ExecRequest)
  | callRequest (env : LiveEnv) (eventMeta : EventMeta) (request : CallRequest)
  | approvalDecision (env : LiveEnv) (eventMeta : EventMeta) (decision : ApprovalDecision)

namespace LiveEvent

def env : LiveEvent → LiveEnv
  | execRequest env _ _ | callRequest env _ _ | approvalDecision env _ _ => env

def request : LiveEvent → Option HeldRequest
  | execRequest _ _ request => some (.exec request)
  | callRequest _ _ request => some (.call request)
  | approvalDecision .. => none

variable {Key : Type} (crypto : Crypto Key) (regexNew : RegexNew) (order : EvictionOrder)

def handle (s : LiveState) : LiveEvent → LiveState × List LiveEffect
  | execRequest env eventMeta request =>
    let (file, effects) := handleLiveExecRequest crypto regexNew env s.file eventMeta request
    ({ s with file }, effects)
  | callRequest env eventMeta request =>
    let (file, effects) := handleLiveCallRequest crypto env s.file eventMeta request
    ({ s with file }, effects)
  | approvalDecision env eventMeta decision =>
    handleLiveApprovalDecision crypto regexNew order env s eventMeta decision

/-- The event's request is authorized, with an allowance that asks for approval. -/
def needsApproval : LiveEvent → Bool
  | execRequest env eventMeta request =>
    match env.room eventMeta.roomId with
    | none => false
    | some room =>
      match authorizeLiveExec crypto regexNew env room request.toValue request
          eventMeta.roomId (some eventMeta.sender) with
      | .ok (_, allowance) => allowance.requiresApproval
      | .error _ => false
  | callRequest env eventMeta request =>
    match env.room eventMeta.roomId with
    | none => false
    | some room =>
      match authorizeLiveCall crypto env room request.toValue request
          (request.requestingAgent.getD "") eventMeta.roomId (some eventMeta.sender) with
      | .ok (_, allowance) => allowance.requiresApproval
      | .error _ => false
  | approvalDecision .. => false

/-- A queue entry that holds a request under its own id and expiry. -/
structure HoldFor (pending : PendingApproval) (held : HeldRequest) : Prop where
  heldRequest : pending.heldRequest = some held
  requestId : pending.requestId = held.requestId
  expiresAt : pending.request.expiresAt = held.expiresAt

variable {crypto regexNew order}

theorem holdFor_exec {request : ExecRequest} {allowance : Allowance} {approval : ApprovalRequest}
    (h : dispositionForExec request allowance = some approval) (roomId : String)
    (requesterUser : Option String) :
    allowance.requiresApproval ∧
      HoldFor ⟨roomId, approval, some (.exec request), requesterUser⟩ (.exec request) := by
  unfold dispositionForExec at h
  split at h
  · rename_i hApproval
    cases h
    exact ⟨hApproval, rfl, rfl, rfl⟩
  · cases h

theorem holdFor_call {request : CallRequest} {allowance : Allowance} {approval : ApprovalRequest}
    (h : dispositionForCall request allowance = some approval) (roomId : String)
    (requesterUser : Option String) :
    allowance.requiresApproval ∧
      HoldFor ⟨roomId, approval, some (.call request), requesterUser⟩ (.call request) := by
  unfold dispositionForCall at h
  split at h
  · rename_i hApproval
    cases h
    exact ⟨hApproval, rfl, rfl, rfl⟩
  · cases h

structure NotHeld (before : LiveState) (after : LiveState × List LiveEffect) : Prop where
  state : after.1 = before
  silent : ∀ roomId approval, .approvalRequested roomId approval ∉ after.2

/-- A request event that is held: in the queue file, and in the room. -/
structure Held (event : LiveEvent) (pending : PendingApproval) (held : HeldRequest)
    (before : LiveState) (after : LiveState × List LiveEffect) : Prop where
  request : event.request = some held
  hold : HoldFor pending held
  state : after.1 = { before with file := enqueueHold event.env before.file pending }
  effects : after.2 = [.approvalRequested pending.roomId pending.request]

variable (crypto regexNew order) in
def HeldIf (event : LiveEvent) (s : LiveState) (holds : Bool) : Prop :=
  holds = false ∧ NotHeld s (event.handle crypto regexNew order s) ∨
    holds ∧ ∃ pending held, Held event pending held s (event.handle crypto regexNew order s)

theorem handle_execRequest (env : LiveEnv) (eventMeta : EventMeta) (request : ExecRequest)
    (s : LiveState) :
    HeldIf crypto regexNew order (execRequest env eventMeta request) s
      ((env.room eventMeta.roomId).any (isLocalTarget env · request.targetAgent) &&
        env.signingKey && request.idempotencyKey == "exec:" ++ request.invocationId &&
        !env.liveExecControl request.invocationId &&
        needsApproval crypto regexNew (execRequest env eventMeta request)) := by
  simp only [HeldIf, handle, handleLiveExecRequest]
  cases hRoom : env.room eventMeta.roomId with
  | none => exact .inl ⟨by simp, rfl, by simp⟩
  | some room =>
    dsimp only
    split
    · rename_i hLocal
      simp only [Bool.or_eq_true, Bool.not_eq_true'] at hLocal
      exact .inl ⟨by rcases hLocal with hLocal | hKey <;> simp [*], rfl, by simp⟩
    rename_i hLocal
    split
    · rename_i hIdempotency
      exact .inl ⟨by simp [hIdempotency], rfl, by simp⟩
    rename_i hIdempotency
    cases hAuthorized : authorizeLiveExec crypto regexNew env room request.toValue request
        eventMeta.roomId (some eventMeta.sender) with
    | error rejection =>
      exact .inl ⟨by simp [needsApproval, hRoom, hAuthorized], rfl, by simp⟩
    | ok result =>
      obtain ⟨authorized, allowance⟩ := result
      obtain rfl : authorized = request := (authorizeLiveExec_ok hAuthorized).1
      dsimp only
      split
      · rename_i hControl
        exact .inl ⟨by simp [hControl], rfl, by simp⟩
      rename_i hControl
      cases hDisposition : dispositionForExec authorized allowance with
      | none =>
        have hApproval : allowance.requiresApproval = false := by
          simpa [dispositionForExec] using hDisposition
        exact .inl ⟨by simp [needsApproval, hRoom, hAuthorized, hApproval], rfl,
          by simp [spawnAuthorizedLiveExec]⟩
      | some approval =>
        obtain ⟨hApproval, hHold⟩ :=
          holdFor_exec hDisposition eventMeta.roomId (some eventMeta.sender)
        refine .inr ⟨?_, _, _, rfl, hHold, rfl, rfl⟩
        simp_all [needsApproval]

theorem handle_callRequest (env : LiveEnv) (eventMeta : EventMeta) (request : CallRequest)
    (s : LiveState) :
    HeldIf crypto regexNew order (callRequest env eventMeta request) s
      (request.requestingAgent.isSome &&
        (request.targetAgent.any fun targetAgent =>
          (env.room eventMeta.roomId).any (isLocalTarget env · targetAgent)) &&
        env.signingKey && needsApproval crypto regexNew (callRequest env eventMeta request)) := by
  simp only [HeldIf, handle, handleLiveCallRequest]
  split
  · rename_i targetAgent requestingAgent room hTarget hRequesting hRoom
    simp only [hTarget, hRoom, hRequesting, Option.any_some, Option.isSome_some, Bool.true_and]
    split
    · rename_i hLocal
      simp only [Bool.or_eq_true, Bool.not_eq_true'] at hLocal
      exact .inl ⟨by rcases hLocal with hLocal | hKey <;> simp [*], rfl, by simp⟩
    rename_i hLocal
    cases hAuthorized : authorizeLiveCall crypto env room request.toValue request requestingAgent
        eventMeta.roomId (some eventMeta.sender) with
    | error rejection =>
      exact .inl ⟨by simp [needsApproval, hRoom, hRequesting, hAuthorized], rfl, by simp⟩
    | ok result =>
      obtain ⟨authorized, allowance⟩ := result
      obtain rfl : authorized = request := (authorizeLiveCall_ok hAuthorized).1
      dsimp only
      cases hDisposition : dispositionForCall authorized allowance with
      | none =>
        have hApproval : allowance.requiresApproval = false := by
          simpa [dispositionForCall] using hDisposition
        exact .inl ⟨by simp [needsApproval, hRoom, hRequesting, hAuthorized, hApproval], rfl,
          by simp⟩
      | some approval =>
        obtain ⟨hApproval, hHold⟩ :=
          holdFor_call hDisposition eventMeta.roomId (some eventMeta.sender)
        refine .inr ⟨?_, _, _, rfl, hHold, rfl, rfl⟩
        simp_all [needsApproval]
  · rename_i hNone
    refine .inl ⟨?_, rfl, by simp⟩
    cases hTarget : request.targetAgent with
    | none => simp
    | some targetAgent =>
      cases hRequesting : request.requestingAgent with
      | none => simp
      | some requestingAgent =>
        cases hRoom : env.room eventMeta.roomId with
        | none => simp
        | some room => exact absurd hRoom (hNone _ _ _ hTarget hRequesting)

variable (crypto regexNew order) in
theorem handle_cases (event : LiveEvent) (s : LiveState) :
    (∃ env eventMeta decision, event = approvalDecision env eventMeta decision) ∨
    event.request.isSome ∧ NotHeld s (event.handle crypto regexNew order s) ∨
    event.needsApproval crypto regexNew ∧
      ∃ pending held, Held event pending held s (event.handle crypto regexNew order s) := by
  cases event with
  | approvalDecision env eventMeta decision => exact .inl ⟨env, eventMeta, decision, rfl⟩
  | execRequest env eventMeta request =>
    refine .inr ((handle_execRequest env eventMeta request s).imp (fun h => ⟨rfl, h.2⟩) ?_)
    exact And.imp_left fun h => ((Bool.and_eq_true _ _).mp h).2
  | callRequest env eventMeta request =>
    refine .inr ((handle_callRequest env eventMeta request s).imp (fun h => ⟨rfl, h.2⟩) ?_)
    exact And.imp_left fun h => ((Bool.and_eq_true _ _).mp h).2

end LiveEvent

end MxAgent.Daemon
