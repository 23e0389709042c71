import MxAgent.Foundations.Fallible
import MxAgent.Protocol.Signing

/-! Whose request this is: the local trust store, the keys agents publish in a
room, and the signature a request carries. -/
namespace MxAgent.Daemon

open Protocol Fallible

inductive TrustStatus where
  | trusted | revoked
  deriving DecidableEq, Repr

structure TrustEntry where
  agentId : String
  keyId : String
  status : TrustStatus
  deriving DecidableEq, Repr

structure TrustStore where
  entries : List TrustEntry
  deriving DecidableEq, Repr

def TrustStore.isKeyTrusted (trust : TrustStore) (keyId : String) : Bool :=
  trust.entries.any fun entry => entry.keyId == keyId && entry.status == .trusted

/-- What the daemon reads from a room: one agent's state, or all. -/
structure RoomView where
  agentState : String → Except String (Option AgentState)
  agentStates : Except String (List AgentState)

inductive KeyError where
  | untrustedKey (keyId : String)
  | invalidSignature
  deriving DecidableEq, Repr

/-- How a signed content can fail before anything about it is trusted. -/
inductive ContentError where
  | malformed
  | unsigned
  | invalidSignature
  deriving DecidableEq, Repr

variable {Key : Type} (crypto : Crypto Key)

/-- `verifying_key_from_agent_state`: the key, which hashes to its key id. -/
def verifyingKeyFromAgentState (agent : AgentState) : Except KeyError Key := do
  let publicKey ← okOr agent.signingPublicKey (.untrustedKey agent.signingKeyId)
  let key ← okOr (crypto.decodeVerifyingKey publicKey) .invalidSignature
  ensure (crypto.keyIdForVerifyingKey key == agent.signingKeyId) .invalidSignature
  pure key

/-- `policy_identity`: the user for the policy, bound to the sender if any. -/
def policyIdentity (requesterUser : String) (authenticatedSender : Option String) : Option String :=
  match authenticatedSender with
  | some sender => if sender = requesterUser then some requesterUser else none
  | none => some requesterUser

def readSignature (content : Value) : Except ContentError (Option Signature) :=
  match content.asObject with
  | none => .error .malformed
  | some fields =>
    match fields[signatureField]? with
    | none => .ok none
    | some .null => .ok none
    | some value =>
      match Signature.fromValue value with
      | none => .error .invalidSignature
      | some signature => .ok (some signature)

theorem readSignature_of_field {content value : Value} {fields : Object} {signature : Signature}
    (hFields : content.asObject = some fields) (hField : fields[signatureField]? = some value)
    (hParsed : Signature.fromValue value = some signature) :
    readSignature content = .ok (some signature) := by
  unfold readSignature
  simp only [hFields, hField]
  cases value with
  | null => cases hParsed
  | _ => simp only [hParsed]

def ContentError.ofSignatureError : SignatureError → ContentError
  | .missingSignature => .unsigned
  | .notAnObject => .malformed
  | _ => .invalidSignature

/-- The first step of both authorizations: the signature verifies. -/
def verifiedSignature (key : Key) (content : Value) : Except ContentError Signature := do
  let signature ← readSignature content
  let signature ← okOr signature .unsigned
  (verify crypto key content).mapError ContentError.ofSignatureError
  pure signature

end MxAgent.Daemon
