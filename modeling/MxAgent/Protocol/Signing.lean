import MxAgent.Foundations.Base64
import MxAgent.Protocol.Schema

/-! Detached signatures over canonical JSON. Ed25519 and its key encoding are third-party code, so
they are parameters. -/
namespace MxAgent.Protocol

structure Crypto (Key : Type) where
  /-- Whether a slice is a well-formed Ed25519 signature, and if so whether it
  verifies for the message. -/
  verifySlice : Key → ByteArray → ByteArray → Option Bool
  decodeVerifyingKey : String → Option Key
  keyIdForVerifyingKey : Key → String

inductive SignatureError where
  | notAnObject
  | missingSignature
  | unsupportedAlg (alg : String)
  | malformedSignature
  | invalid
  | nonCanonical (error : CanonicalJsonError)
  deriving DecidableEq, Repr

def signatureField : String := "signature"

def algEd25519 : String := "ed25519"

/-- What a signature covers: the object without it, in canonical form. -/
def signingBytes (content : Value) : Except SignatureError ByteArray :=
  match content.asObject with
  | none => .error .notAnObject
  | some fields =>
    match (Value.ofObject (fields.erase signatureField)).toCanonicalString with
    | .ok text => .ok text.toUTF8
    | .error error => .error (.nonCanonical error)

variable {Key : Type}

def encodeRaw (raw : ByteArray) : String := Base64.encode raw.data.toList

def decodeRaw (text : String) : Option ByteArray :=
  (Base64.decode text).map fun bytes => ⟨bytes.toArray⟩

@[simp] theorem decodeRaw_encodeRaw (raw : ByteArray) : decodeRaw (encodeRaw raw) = some raw := by
  simp [decodeRaw, encodeRaw]

/-- A signing key whose signatures verify under its verifying key. -/
structure SigningKey (crypto : Crypto Key) where
  verifyingKey : Key
  sign : ByteArray → ByteArray
  sign_verifies : ∀ bytes, crypto.verifySlice verifyingKey bytes (sign bytes) = some true

/-- Ideal signatures: under the key, nothing verifies but what was signed. -/
def Crypto.Unforgeable (crypto : Crypto Key) (key : Key) (signed : ByteArray → Prop) : Prop :=
  ∀ bytes raw, crypto.verifySlice key bytes raw = some true → signed bytes

def SigningKey.signBytes {crypto : Crypto Key} (signingKey : SigningKey crypto) (keyId : String)
    (bytes : ByteArray) : Signature where
  alg := algEd25519
  keyId := keyId
  sig := encodeRaw (signingKey.sign bytes)

/-- `sign`: the detached signature over the content. -/
def sign {crypto : Crypto Key} (signingKey : SigningKey crypto) (keyId : String) (content : Value) :
    Except SignatureError Signature := do
  let bytes ← signingBytes content
  pure (signingKey.signBytes keyId bytes)

/-- `sign_into`: the content with its signature in place of any it had. -/
def signInto {crypto : Crypto Key} (signingKey : SigningKey crypto) (keyId : String)
    (content : Value) : Except SignatureError Value := do
  let signature ← sign signingKey keyId content
  let fields ← (content.asObject).elim (.error .notAnObject) .ok
  pure (.ofObject (fields.insert signatureField signature.toValue))

variable (crypto : Crypto Key)

def verifySignature (key : Key) (signature : Signature) (bytes : ByteArray) :
    Except SignatureError Unit :=
  if signature.alg ≠ algEd25519 then .error (.unsupportedAlg signature.alg)
  else match decodeRaw signature.sig with
    | none => .error .malformedSignature
    | some raw =>
      match crypto.verifySlice key bytes raw with
      | none => .error .malformedSignature
      | some false => .error .invalid
      | some true => .ok ()

/-- `verify`: the signature embedded in the content itself. -/
def verify (key : Key) (content : Value) : Except SignatureError Unit := do
  let fields ← (content.asObject).elim (.error .notAnObject) .ok
  let value ← (fields[signatureField]?).elim (.error .missingSignature) .ok
  let signature ← (Signature.fromValue value).elim (.error .malformedSignature) .ok
  let bytes ← signingBytes content
  verifySignature crypto key signature bytes

/-- `verify_approval_decision`, over the decision's own serialization. -/
def verifyApprovalDecision (key : Key) (decision : ApprovalDecision) : Except SignatureError Unit :=
  verify crypto key decision.toValue

/-- `task_action_signing_value`: the task id, the action without its authorization, and the
authorization without its signature. -/
def taskActionSigningValue (taskId : String) (action : TaskAction)
    (auth : TaskActionAuthorization) : Value :=
  .ofObject (Object.flatten
    [("task_id", .string taskId), ("action", action.withoutAuthorization.toValue),
      ("authorization", .ofObject (Object.flatten
        [("requesting_agent", .string auth.requestingAgent),
          ("target_agent", .string auth.targetAgent), ("created_at", .string auth.createdAt),
          ("expires_at", .string auth.expiresAt), ("nonce", .string auth.nonce)] ∅))] ∅)

/-- The authorization that `sign_task_action` starts from. -/
def unsignedAuthorization (keyId requestingAgent targetAgent createdAt expiresAt nonce : String) :
    TaskActionAuthorization where
  requestingAgent
  targetAgent
  createdAt
  expiresAt
  nonce
  signature := { alg := algEd25519, keyId, sig := "" }
  extra := ∅
  extra_fresh _ _ := Std.ExtTreeMap.not_mem_empty

def signTaskAction (signingKey : SigningKey crypto) (keyId taskId : String) (action : TaskAction)
    (requestingAgent targetAgent createdAt expiresAt nonce : String) :
    Except SignatureError TaskActionAuthorization := do
  let auth := unsignedAuthorization keyId requestingAgent targetAgent createdAt expiresAt nonce
  let signature ← sign signingKey auth.signature.keyId (taskActionSigningValue taskId action auth)
  pure { auth with signature }

def verifyTaskActionSignature (key : Key) (taskId : String) (action : TaskAction)
    (auth : TaskActionAuthorization) : Except SignatureError Unit :=
  match (taskActionSigningValue taskId action auth).toCanonicalString with
  | .error error => .error (.nonCanonical error)
  | .ok text => verifySignature crypto key auth.signature text.toUTF8

end MxAgent.Protocol
