import MxAgent.Daemon.Exec

/-! Live tool calls: authorization, holding for approval, release and rejection. -/
namespace MxAgent.Daemon

open Protocol Fallible

def CallRejection.ofContentError : ContentError → CallRejection
  | .malformed => .malformed
  | .unsigned => .unsigned
  | .invalidSignature => .invalidSignature

def CallRejection.ofKeyError : KeyError → CallRejection
  | .untrustedKey keyId => .untrustedKey keyId
  | .invalidSignature => .invalidSignature

variable {Key : Type} (crypto : Crypto Key)

/-- `authorize_call_request_with_allowance`. The named target is not checked. -/
def authorizeCallRequestWithAllowance (content : Value) (key : Key) (trust : TrustStore)
    (policy : Policy) (roomId requestingAgent : String) :
    Except CallRejection (CallRequest × Allowance) := do
  let signature ← (verifiedSignature crypto key content).mapError .ofContentError
  let request ← okOr (CallRequest.fromValue content) .malformed
  ensure (trust.isKeyTrusted signature.keyId) (.untrustedKey signature.keyId)
  match policy.evaluateCall ⟨roomId, requestingAgent, request.tool⟩ with
  | .allow allowance => pure (request, allowance)
  | .deny reason => throw (.policyDenied reason)

/-- `authorize_live_call`: identity, signature, trust and policy. -/
def authorizeLiveCall (env : LiveEnv) (room : RoomView) (content : Value) (request : CallRequest)
    (requestingAgent roomId : String) (authenticatedSender : Option String) :
    Except CallRejection (CallRequest × Allowance) := do
  let requester ← (room.agentState requestingAgent).mapError fun _ => .malformed
  let requester ← okOr requester (.untrustedKey request.signature.keyId)
  ensure (requester.signingKeyId == request.signature.keyId) .invalidSignature
  let key ← (verifyingKeyFromAgentState crypto requester).mapError .ofKeyError
  let policyKey ← okOr (policyIdentity requester.matrixUserId authenticatedSender)
    .invalidSignature
  let (request, allowance) ← authorizeCallRequestWithAllowance crypto content key env.trust
    env.policy roomId policyKey
  ensure (enforceVerifiedDevice allowance (env.senderVerified requester.matrixUserId))
    .unverifiedDevice
  pure (request, allowance)

def enqueueCallApproval (env : LiveEnv) (file : QueueFile) (roomId : String)
    (request : CallRequest) (approval : ApprovalRequest) (requesterUser : String) : QueueFile :=
  enqueueHold env file ⟨roomId, approval, some (.call request), some requesterUser⟩

/-- `handle_live_call_request`: run, hold or reject the call. -/
def handleLiveCallRequest (env : LiveEnv) (file : QueueFile) (eventMeta : EventMeta)
    (request : CallRequest) : QueueFile × List LiveEffect :=
  match request.targetAgent, request.requestingAgent, env.room eventMeta.roomId with
  | some targetAgent, some requestingAgent, some room =>
    if !isLocalTarget env room targetAgent || !env.signingKey then (file, [])
    else match authorizeLiveCall crypto env room request.toValue request requestingAgent
        eventMeta.roomId (some eventMeta.sender) with
      | .error rejection =>
        (file, [.callRejected eventMeta.roomId request.requestId rejection])
      | .ok (authorized, allowance) =>
        match dispositionForCall authorized allowance with
        | some approval =>
          (enqueueCallApproval env file eventMeta.roomId authorized approval
            eventMeta.sender, [.approvalRequested eventMeta.roomId approval])
        | none => (file, [.callExecuted eventMeta.roomId authorized allowance])
  | _, _, _ => (file, [])

/-- `release_held_call`: the whole authorization again, then the run. -/
def releaseHeldCall (env : LiveEnv) (room : RoomView) (roomId : String) (request : CallRequest)
    (authenticatedSender : Option String) : List LiveEffect :=
  .holdReleased roomId (.call request) ::
    if !env.signingKey then []
    else match authorizeLiveCall crypto env room request.toValue request
        (request.requestingAgent.getD "") roomId authenticatedSender with
      | .ok (authorized, allowance) => [.callExecuted roomId authorized allowance]
      | .error rejection => [.callRejected roomId request.requestId rejection]

/-- A rejection of a held call, by `deny_held_call` or `expire_held_call`. -/
def rejectHeldCall (env : LiveEnv) (roomId : String) (request : CallRequest)
    (rejection : CallRejection) : List LiveEffect :=
  if env.signingKey then [.callRejected roomId request.requestId rejection] else []

def denyHeldCall (env : LiveEnv) (roomId : String) (request : CallRequest) : List LiveEffect :=
  .holdDenied roomId (.call request) :: rejectHeldCall env roomId request .approvalDenied

variable {crypto}

theorem authorizeCallRequestWithAllowance_ok {content : Value} {key : Key} {trust : TrustStore}
    {policy : Policy} {roomId requestingAgent : String} {result : CallRequest × Allowance}
    (h : authorizeCallRequestWithAllowance crypto content key trust policy roomId
      requestingAgent = .ok result) :
    CallRequest.fromValue content = some result.1 ∧
      policy.evaluateCall ⟨roomId, requestingAgent, result.1.tool⟩ = .allow result.2 := by
  obtain ⟨signature, -, h⟩ := bind_eq_ok.mp h
  obtain ⟨request, hRequest, h⟩ := bind_eq_ok.mp h
  obtain ⟨-, h⟩ := ensure_bind_eq_ok.mp h
  split at h
  · rename_i allowance hAllow
    cases h
    exact ⟨okOr_eq_ok.mp hRequest, hAllow⟩
  · cases h

/-- An authorized call is granted by the room's policy to its user. -/
theorem authorizeLiveCall_ok {env : LiveEnv} {room : RoomView} {request : CallRequest}
    {requestingAgent roomId : String} {sender : Option String} {result : CallRequest × Allowance}
    (h : authorizeLiveCall crypto env room request.toValue request requestingAgent roomId sender =
      .ok result) :
    result.1 = request ∧
      ∃ user, env.policy.evaluateCall ⟨roomId, user, request.tool⟩ = .allow result.2 := by
  obtain ⟨found, -, h⟩ := bind_eq_ok.mp h
  obtain ⟨requester, -, h⟩ := bind_eq_ok.mp h
  obtain ⟨-, h⟩ := ensure_bind_eq_ok.mp h
  obtain ⟨key, -, h⟩ := bind_eq_ok.mp h
  obtain ⟨user, -, h⟩ := bind_eq_ok.mp h
  obtain ⟨authorized, hAuthorized, h⟩ := bind_eq_ok.mp h
  obtain ⟨hContent, hPolicy⟩ := authorizeCallRequestWithAllowance_ok hAuthorized
  rw [CallRequest.fromValue_toValue, Option.some.injEq] at hContent
  obtain ⟨-, h⟩ := ensure_bind_eq_ok.mp h
  cases h
  rw [← hContent] at hPolicy
  exact ⟨hContent.symm, user, hPolicy⟩

end MxAgent.Daemon
