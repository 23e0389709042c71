import MxAgent.Daemon.EventRouter
import MxAgent.Daemon.Identity
import MxAgent.Protocol.Reserialize

/-! Checking the signature of a result: the executing agent is found by the
Matrix user who sent the event, and has to have published the key the event is
signed with. -/
namespace MxAgent.Daemon

open Protocol Fallible

inductive ResultVerifyError where
  | unresolvableKey
  | unsigned
  | keyIdMismatch
  | untrustedKey
  | invalid
  deriving DecidableEq, Repr

def ResultVerifyError.reason : ResultVerifyError → String
  | .unresolvableKey => "unresolvable_executor_key"
  | .unsigned => "unsigned"
  | .keyIdMismatch => "key_id_mismatch"
  | .untrustedKey => "untrusted_key"
  | .invalid => "invalid_signature"

def ResultVerifyError.ofSignatureError : SignatureError → ResultVerifyError
  | .missingSignature => .unsigned
  | _ => .invalid

/-- `embedded_key_id`: the key id inside the signature. -/
def embeddedKeyId (event : Value) : Option String := do
  let signature ← event.field? signatureField
  let keyId ← signature.field? "key_id"
  keyId.asString

variable {Key : Type} (crypto : Crypto Key)

/-- `verify_result_signature`: the published key, the signature, its key id and trust. -/
def verifyResultSignature (event : Value) (agentState : AgentState) (trust : TrustStore) :
    Except ResultVerifyError Unit := do
  let verifyingKey ← (verifyingKeyFromAgentState crypto agentState).mapError
    fun _ => .unresolvableKey
  (verify crypto verifyingKey event).mapError ResultVerifyError.ofSignatureError
  let keyId ← okOr (embeddedKeyId event) .invalid
  ensure (keyId == agentState.signingKeyId) .keyIdMismatch
  ensure (trust.isKeyTrusted keyId) .untrustedKey

/-- The first agent state of the user in the room. -/
def executorState (rooms : String → Option RoomView) (roomId user : String) :
    Except ResultVerifyError AgentState := do
  let room ← okOr (rooms roomId) .unresolvableKey
  let agents ← room.agentStates.mapError fun _ => .unresolvableKey
  okOr (agents.find? fun agent => agent.matrixUserId == user) .unresolvableKey

inductive ForwardedExecEvent where
  | streamChunk (event : Protocol.streamChunk.Struct)
  | streamArtifact (event : Protocol.streamArtifact.Struct)
  | execRejected (event : Protocol.execRejected.Struct)
  | execFinished (event : Protocol.execFinished.Struct)
  | execCancelled (event : Protocol.execCancelled.Struct)
  | callResponse (event : Protocol.callResponse.Struct)
  deriving DecidableEq

inductive ExecSubscriptionKey where
  | invocation (id : String)
  | request (id : String)
  deriving DecidableEq, Repr

namespace ForwardedExecEvent

def toValue : ForwardedExecEvent → Value
  | streamChunk event => event.toValue
  | streamArtifact event => event.toValue
  | execRejected event => event.toValue
  | execFinished event => event.toValue
  | execCancelled event => event.toValue
  | callResponse event => event.toValue

/-- The key that subscribers of an event wait under. -/
def key : ForwardedExecEvent → ExecSubscriptionKey
  | streamChunk event => .invocation (event.text "invocation_id")
  | streamArtifact event => .invocation (event.text "invocation_id")
  | execRejected event => .invocation (event.text "invocation_id")
  | execFinished event => .invocation (event.text "invocation_id")
  | execCancelled event => .invocation (event.text "invocation_id")
  | callResponse event => .request (event.text "request_id")

/-- The event is for the key by the id in its content. -/
theorem key_cases (event : ForwardedExecEvent) :
    (∃ id, event.key = .invocation id ∧ event.toValue.field? "invocation_id" = some (.string id)) ∨
      ∃ id, event.key = .request id ∧ event.toValue.field? "request_id" = some (.string id) := by
  cases event with
  | callResponse event => exact .inr ⟨_, rfl, event.field?_text (by decide)⟩
  | _ event => exact .inl ⟨_, rfl, event.field?_text (by decide)⟩

end ForwardedExecEvent

/-- `verify_forwarded_event`, with the key of the sender's agent. -/
def verifyForwardedEvent (rooms : String → Option RoomView) (trust : TrustStore)
    (eventMeta : EventMeta) (event : ForwardedExecEvent) : Except ResultVerifyError Unit := do
  let agentState ← executorState rooms eventMeta.roomId eventMeta.sender
  verifyResultSignature crypto event.toValue agentState trust

/-- `verify_call_response_signature`, of the content as it was received. -/
def verifyCallResponseSignature (rooms : String → Option RoomView) (trust : TrustStore)
    (roomId : String) (content : Value) (expectedSender : String) : Except String Unit := do
  let response ← okOr (Protocol.callResponse.reserialize content) "malformed"
  let agentState ← (executorState rooms roomId expectedSender).mapError ResultVerifyError.reason
  (verifyResultSignature crypto response agentState trust).mapError ResultVerifyError.reason

variable {crypto}

variable {agentState : AgentState}

theorem verifyResultSignature_eq_ok_iff {event : Value} {trust : TrustStore} :
    verifyResultSignature crypto event agentState trust = .ok () ↔
      ∃ verifyingKey, verifyingKeyFromAgentState crypto agentState = .ok verifyingKey ∧
        verify crypto verifyingKey event = .ok () ∧
        embeddedKeyId event = some agentState.signingKeyId ∧
        trust.isKeyTrusted agentState.signingKeyId := by
  simp only [verifyResultSignature, bind_eq_ok, okOr_eq_ok, ensure_eq_ok, mapError_eq_ok,
    beq_iff_eq]
  constructor
  · rintro ⟨verifyingKey, hKey, ⟨⟩, hVerify, keyId, hKeyId, -, rfl, hTrusted⟩
    exact ⟨verifyingKey, hKey, hVerify, hKeyId, hTrusted⟩
  · rintro ⟨verifyingKey, hKey, hVerify, hKeyId, hTrusted⟩
    exact ⟨verifyingKey, hKey, (), hVerify, _, hKeyId, (), rfl, hTrusted⟩

theorem keyId_of_verifyingKeyFromAgentState {verifyingKey : Key}
    (h : verifyingKeyFromAgentState crypto agentState = .ok verifyingKey) :
    crypto.keyIdForVerifyingKey verifyingKey = agentState.signingKeyId := by
  simp only [verifyingKeyFromAgentState, bind_eq_ok, ensure_eq_ok, beq_iff_eq] at h
  obtain ⟨-, -, key, -, -, hMatch, hPure⟩ := h
  cases hPure
  exact hMatch

theorem executorState_eq_ok_iff {rooms : String → Option RoomView} {roomId user : String} :
    executorState rooms roomId user = .ok agentState ↔
      ∃ room agents, rooms roomId = some room ∧ room.agentStates = .ok agents ∧
        agents.find? (fun agent => agent.matrixUserId == user) = some agentState := by
  simp only [executorState, bind_eq_ok, okOr_eq_ok, mapError_eq_ok]
  constructor
  · rintro ⟨room, hRoom, agents, hAgents, hFind⟩
    exact ⟨room, agents, hRoom, hAgents, hFind⟩
  · rintro ⟨room, agents, hRoom, hAgents, hFind⟩
    exact ⟨room, hRoom, agents, hAgents, hFind⟩

end MxAgent.Daemon
