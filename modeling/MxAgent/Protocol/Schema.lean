import MxAgent.Protocol.Codec

/-! The event contents the daemon reads and signs. A struct with a flattened
`extra` map carries the fact that `extra` uses none of the struct's own field
names, which is what deserialization guarantees. -/
namespace MxAgent.Protocol

open Std

structure Signature where
  alg : String
  keyId : String
  sig : String
  deriving DecidableEq, Repr

namespace Signature

def toFields (signature : Signature) : List (String × Value) :=
  [("alg", .string signature.alg), ("key_id", .string signature.keyId),
    ("sig", .string signature.sig)]

def toValue (signature : Signature) : Value := .ofObject (Object.flatten signature.toFields ∅)

def fromFields (fields : Object) : Option Signature := do
  let alg ← fields.required Value.asString "alg"
  let keyId ← fields.required Value.asString "key_id"
  let sig ← fields.required Value.asString "sig"
  pure { alg, keyId, sig }

def fromItems : List Value → Option Signature
  | [.string alg, .string keyId, .string sig] => some { alg, keyId, sig }
  | _ => none

/-- A struct without a flattened map is also read from an array. -/
def fromValue : Value → Option Signature
  | .array items => fromItems items
  | value => value.asObject.bind fromFields

theorem toFields_nodup (signature : Signature) : (signature.toFields.map Prod.fst).Nodup := by
  change ["alg", "key_id", "sig"].Nodup
  decide

@[simp] theorem fromValue_toValue (signature : Signature) :
    fromValue signature.toValue = some signature := by
  have hFields := signature.toFields_nodup
  change (Value.ofObject (Object.flatten signature.toFields ∅)).asObject >>= fromFields = _
  rw [Object.ofObject_bind, fromFields,
    Object.text_bind hFields "alg" rfl,
    Object.text_bind hFields "key_id" rfl,
    Object.text_bind hFields "sig" rfl]
  rfl

end Signature

def ExecRequest.fieldNames : List String :=
  ["invocation_id", "request_id", "target_agent", "requesting_agent", "command", "cwd", "env",
    "stdin", "stream", "pty", "timeout_ms", "task_id", "created_at", "expires_at", "nonce",
    "idempotency_key", "signature"]

/-- `com.mxagent.exec.request.v1` content. -/
structure ExecRequest where
  invocationId : String
  requestId : String
  targetAgent : String
  requestingAgent : String
  command : List String
  cwd : String
  env : ExtTreeMap String String
  stdin : Bool
  stream : Bool
  pty : Bool
  timeoutMs : Nat
  taskId : Option String
  createdAt : String
  expiresAt : String
  nonce : String
  idempotencyKey : String
  signature : Signature
  extra : Object
  extra_fresh : ∀ name ∈ ExecRequest.fieldNames, name ∉ extra
  deriving DecidableEq

namespace ExecRequest

def toFields (request : ExecRequest) : List (String × Value) :=
  [("invocation_id", .string request.invocationId), ("request_id", .string request.requestId),
    ("target_agent", .string request.targetAgent),
    ("requesting_agent", .string request.requestingAgent),
    ("command", .ofStrings request.command), ("cwd", .string request.cwd),
    ("env", .ofStringMap request.env), ("stdin", .bool request.stdin),
    ("stream", .bool request.stream), ("pty", .bool request.pty),
    ("timeout_ms", .ofNat request.timeoutMs), ("task_id", .ofOption .string request.taskId),
    ("created_at", .string request.createdAt), ("expires_at", .string request.expiresAt),
    ("nonce", .string request.nonce), ("idempotency_key", .string request.idempotencyKey),
    ("signature", request.signature.toValue)]

def toValue (request : ExecRequest) : Value :=
  .ofObject (Object.flatten request.toFields request.extra)

def fromValue (value : Value) : Option ExecRequest := do
  let fields ← value.asObject
  let invocationId ← fields.required Value.asString "invocation_id"
  let requestId ← fields.required Value.asString "request_id"
  let targetAgent ← fields.required Value.asString "target_agent"
  let requestingAgent ← fields.required Value.asString "requesting_agent"
  let command ← fields.required Value.asStrings "command"
  let cwd ← fields.required Value.asString "cwd"
  let env ← fields.required Value.asStringMap "env"
  let stdin ← fields.required Value.asBool "stdin"
  let stream ← fields.required Value.asBool "stream"
  let pty ← fields.required Value.asBool "pty"
  let timeoutMs ← fields.required Value.asNat "timeout_ms"
  let taskId ← fields.optional (Value.asOption Value.asString) none "task_id"
  let createdAt ← fields.required Value.asString "created_at"
  let expiresAt ← fields.required Value.asString "expires_at"
  let nonce ← fields.required Value.asString "nonce"
  let idempotencyKey ← fields.required Value.asString "idempotency_key"
  let signature ← fields.required Signature.fromValue "signature"
  pure { invocationId, requestId, targetAgent, requestingAgent, command, cwd, env, stdin, stream,
         pty, timeoutMs, taskId, createdAt, expiresAt, nonce, idempotencyKey, signature,
         extra := fields.unknown fieldNames, extra_fresh := Object.unknown_fresh fieldNames fields }

theorem toFields_names (request : ExecRequest) : request.toFields.map Prod.fst = fieldNames := rfl

theorem toFields_nodup (request : ExecRequest) : (request.toFields.map Prod.fst).Nodup := by
  rw [toFields_names]
  decide

theorem unknown_toFields (request : ExecRequest) :
    Object.unknown fieldNames (Object.flatten request.toFields request.extra) = request.extra :=
  Object.unknown_flatten (by rw [toFields_names]; exact List.Subset.refl _) request.toFields_nodup
    request.extra_fresh

/-- A request that is written and read again is the same request. -/
@[simp] theorem fromValue_toValue (request : ExecRequest) :
    fromValue request.toValue = some request := by
  have hFields := request.toFields_nodup
  rw [fromValue, toValue, Object.ofObject_bind,
    Object.text_bind hFields "invocation_id" rfl,
    Object.text_bind hFields "request_id" rfl,
    Object.text_bind hFields "target_agent" rfl,
    Object.text_bind hFields "requesting_agent" rfl,
    Object.required_bind hFields "command" rfl (Value.asStrings_ofStrings _),
    Object.text_bind hFields "cwd" rfl,
    Object.required_bind hFields "env" rfl (Value.asStringMap_ofStringMap _),
    Object.required_bind hFields "stdin" rfl (Value.asBool_bool _),
    Object.required_bind hFields "stream" rfl (Value.asBool_bool _),
    Object.required_bind hFields "pty" rfl (Value.asBool_bool _),
    Object.required_bind hFields "timeout_ms" rfl (Value.asNat_ofNat _),
    Object.optional_bind hFields "task_id" rfl (Value.asOption_ofOption _),
    Object.text_bind hFields "created_at" rfl,
    Object.text_bind hFields "expires_at" rfl,
    Object.text_bind hFields "nonce" rfl,
    Object.text_bind hFields "idempotency_key" rfl,
    Object.required_bind hFields "signature" rfl (Signature.fromValue_toValue _)]
  simp only [unknown_toFields]
  rfl

end ExecRequest

def CallRequest.fieldNames : List String :=
  ["invocation_id", "request_id", "tool", "args", "created_at", "expires_at", "nonce",
    "signature", "requesting_agent", "target_agent"]

/-- `com.mxagent.call.request.v1` content. -/
structure CallRequest where
  invocationId : String
  requestId : String
  tool : String
  args : Value
  createdAt : String
  expiresAt : String
  nonce : String
  signature : Signature
  requestingAgent : Option String
  targetAgent : Option String
  extra : Object
  extra_fresh : ∀ name ∈ CallRequest.fieldNames, name ∉ extra
  deriving DecidableEq

namespace CallRequest

def toFields (request : CallRequest) : List (String × Value) :=
  [("invocation_id", .string request.invocationId), ("request_id", .string request.requestId),
    ("tool", .string request.tool), ("args", request.args),
    ("created_at", .string request.createdAt), ("expires_at", .string request.expiresAt),
    ("nonce", .string request.nonce), ("signature", request.signature.toValue)]
  ++ presentField "requesting_agent" (request.requestingAgent.map .string)
  ++ presentField "target_agent" (request.targetAgent.map .string)

def toValue (request : CallRequest) : Value :=
  .ofObject (Object.flatten request.toFields request.extra)

def fromValue (value : Value) : Option CallRequest := do
  let fields ← value.asObject
  let invocationId ← fields.required Value.asString "invocation_id"
  let requestId ← fields.required Value.asString "request_id"
  let tool ← fields.required Value.asString "tool"
  let args ← fields.required some "args"
  let createdAt ← fields.required Value.asString "created_at"
  let expiresAt ← fields.required Value.asString "expires_at"
  let nonce ← fields.required Value.asString "nonce"
  let signature ← fields.required Signature.fromValue "signature"
  let requestingAgent ← fields.optional (Value.asOption Value.asString) none "requesting_agent"
  let targetAgent ← fields.optional (Value.asOption Value.asString) none "target_agent"
  pure { invocationId, requestId, tool, args, createdAt, expiresAt, nonce, signature,
         requestingAgent, targetAgent, extra := fields.unknown fieldNames,
         extra_fresh := Object.unknown_fresh fieldNames fields }

theorem toFields_nodup (request : CallRequest) : (request.toFields.map Prod.fst).Nodup := by
  cases hRequesting : request.requestingAgent <;> cases hTarget : request.targetAgent <;>
    simp [toFields, presentField, hRequesting, hTarget]

theorem toFields_subset (request : CallRequest) : request.toFields.map Prod.fst ⊆ fieldNames := by
  cases hRequesting : request.requestingAgent <;> cases hTarget : request.targetAgent <;>
    simp [toFields, presentField, fieldNames, hRequesting, hTarget]

theorem unknown_toFields (request : CallRequest) :
    Object.unknown fieldNames (Object.flatten request.toFields request.extra) = request.extra :=
  Object.unknown_flatten request.toFields_subset request.toFields_nodup request.extra_fresh

@[simp] theorem fromValue_toValue (request : CallRequest) :
    fromValue request.toValue = some request := by
  have hFields := request.toFields_nodup
  have hAgents : request.toFields.lookup "requesting_agent" = request.requestingAgent.map .string ∧
      request.toFields.lookup "target_agent" = request.targetAgent.map .string := by
    unfold toFields
    cases request.requestingAgent <;> cases request.targetAgent <;> exact ⟨rfl, rfl⟩
  rw [fromValue, toValue, Object.ofObject_bind,
    Object.text_bind hFields "invocation_id" rfl,
    Object.text_bind hFields "request_id" rfl,
    Object.text_bind hFields "tool" rfl,
    Object.required_bind hFields "args" rfl rfl,
    Object.text_bind hFields "created_at" rfl,
    Object.text_bind hFields "expires_at" rfl,
    Object.text_bind hFields "nonce" rfl,
    Object.required_bind hFields "signature" rfl (Signature.fromValue_toValue _),
    Object.present_bind hFields _ hAgents.1 (request.extra_fresh _ (by decide)) (fun _ => rfl),
    Object.present_bind hFields _ hAgents.2 (request.extra_fresh _ (by decide)) (fun _ => rfl)]
  simp only [unknown_toFields]
  rfl

end CallRequest

/-- `com.mxagent.approval.request.v1` content. -/
structure ApprovalRequest where
  requestId : String
  invocationId : String
  requester : String
  target : String
  summary : String
  risk : String
  expiresAt : String
  extra : Object
  deriving DecidableEq

/-- `com.mxagent.approval.decision.v1` content. -/
structure ApprovalDecision where
  requestId : String
  decision : String
  approvedBy : String
  createdAt : String
  nonce : Option String
  expiresAt : Option String
  signature : Option Signature
  extra : Object
  deriving DecidableEq

namespace ApprovalDecision

def fieldNames : List String :=
  ["request_id", "decision", "approved_by", "created_at", "nonce", "expires_at", "signature"]

def toFields (decision : ApprovalDecision) : List (String × Value) :=
  [("request_id", .string decision.requestId), ("decision", .string decision.decision),
    ("approved_by", .string decision.approvedBy), ("created_at", .string decision.createdAt)]
  ++ presentField "nonce" (decision.nonce.map .string)
  ++ presentField "expires_at" (decision.expiresAt.map .string)
  ++ presentField "signature" (decision.signature.map Signature.toValue)

def toValue (decision : ApprovalDecision) : Value :=
  .ofObject (Object.flatten decision.toFields decision.extra)

theorem toFields_nodup (decision : ApprovalDecision) : (decision.toFields.map Prod.fst).Nodup := by
  cases hNonce : decision.nonce <;> cases hExpires : decision.expiresAt <;>
    cases hSignature : decision.signature <;>
    simp [toFields, presentField, hNonce, hExpires, hSignature]

theorem toFields_subset (decision : ApprovalDecision) :
    decision.toFields.map Prod.fst ⊆ fieldNames := by
  cases hNonce : decision.nonce <;> cases hExpires : decision.expiresAt <;>
    cases hSignature : decision.signature <;>
    simp [toFields, presentField, fieldNames, hNonce, hExpires, hSignature]

def fromValue (value : Value) : Option ApprovalDecision := do
  let fields ← value.asObject
  let requestId ← fields.required Value.asString "request_id"
  let decision ← fields.required Value.asString "decision"
  let approvedBy ← fields.required Value.asString "approved_by"
  let createdAt ← fields.required Value.asString "created_at"
  let nonce ← fields.optional (Value.asOption Value.asString) none "nonce"
  let expiresAt ← fields.optional (Value.asOption Value.asString) none "expires_at"
  let signature ← fields.optional (Value.asOption Signature.fromValue) none "signature"
  pure { requestId, decision, approvedBy, createdAt, nonce, expiresAt, signature,
         extra := fields.unknown fieldNames }

end ApprovalDecision

/-- `com.mxagent.agent.v1` state content, as far as authorization reads it. -/
structure AgentState where
  agentId : String
  matrixUserId : String
  signingKeyId : String
  signingPublicKey : Option String
  deriving DecidableEq

def TaskActionAuthorization.fieldNames : List String :=
  ["requesting_agent", "target_agent", "created_at", "expires_at", "nonce", "signature"]

structure TaskActionAuthorization where
  requestingAgent : String
  targetAgent : String
  createdAt : String
  expiresAt : String
  nonce : String
  signature : Signature
  extra : Object
  extra_fresh : ∀ name ∈ TaskActionAuthorization.fieldNames, name ∉ extra
  deriving DecidableEq

namespace TaskActionAuthorization

def toFields (auth : TaskActionAuthorization) : List (String × Value) :=
  [("requesting_agent", .string auth.requestingAgent), ("target_agent", .string auth.targetAgent),
    ("created_at", .string auth.createdAt), ("expires_at", .string auth.expiresAt),
    ("nonce", .string auth.nonce), ("signature", auth.signature.toValue)]

def toValue (auth : TaskActionAuthorization) : Value :=
  .ofObject (Object.flatten auth.toFields auth.extra)

def fromValue (value : Value) : Option TaskActionAuthorization := do
  let fields ← value.asObject
  let requestingAgent ← fields.required Value.asString "requesting_agent"
  let targetAgent ← fields.required Value.asString "target_agent"
  let createdAt ← fields.required Value.asString "created_at"
  let expiresAt ← fields.required Value.asString "expires_at"
  let nonce ← fields.required Value.asString "nonce"
  let signature ← fields.required Signature.fromValue "signature"
  pure { requestingAgent, targetAgent, createdAt, expiresAt, nonce, signature,
         extra := fields.unknown fieldNames, extra_fresh := Object.unknown_fresh fieldNames fields }

theorem toFields_names (auth : TaskActionAuthorization) :
    auth.toFields.map Prod.fst = fieldNames := rfl

theorem toFields_nodup (auth : TaskActionAuthorization) : (auth.toFields.map Prod.fst).Nodup := by
  rw [toFields_names]
  decide

theorem unknown_toFields (auth : TaskActionAuthorization) :
    Object.unknown fieldNames (Object.flatten auth.toFields auth.extra) = auth.extra :=
  Object.unknown_flatten (by rw [toFields_names]; exact List.Subset.refl _) auth.toFields_nodup
    auth.extra_fresh

@[simp] theorem fromValue_toValue (auth : TaskActionAuthorization) :
    fromValue auth.toValue = some auth := by
  have hFields := auth.toFields_nodup
  rw [fromValue, toValue, Object.ofObject_bind,
    Object.text_bind hFields "requesting_agent" rfl,
    Object.text_bind hFields "target_agent" rfl,
    Object.text_bind hFields "created_at" rfl,
    Object.text_bind hFields "expires_at" rfl,
    Object.text_bind hFields "nonce" rfl,
    Object.required_bind hFields "signature" rfl (Signature.fromValue_toValue _)]
  simp only [unknown_toFields]
  rfl

end TaskActionAuthorization

/-- The structured action of a task, internally tagged by `type`. -/
inductive TaskAction where
  | tool (tool : String) (args : Value) (authorization : Option TaskActionAuthorization)
  | exec (command : List String) (cwd : String) (env : ExtTreeMap String String)
      (timeoutMs : Option Nat) (stream : Bool) (authorization : Option TaskActionAuthorization)
  deriving DecidableEq

namespace TaskAction

def kind : TaskAction → String
  | .tool .. => "tool"
  | .exec .. => "exec"

def authorization : TaskAction → Option TaskActionAuthorization
  | .tool _ _ authorization => authorization
  | .exec _ _ _ _ _ authorization => authorization

def withoutAuthorization : TaskAction → TaskAction
  | .tool name args _ => .tool name args none
  | .exec command cwd env timeoutMs stream _ => .exec command cwd env timeoutMs stream none

/-- The fields of an action without its authorization. -/
def toFields : TaskAction → List (String × Value)
  | .tool name args _ => [("type", .string "tool"), ("tool", .string name), ("args", args)]
  | .exec command cwd env timeoutMs stream _ =>
    [("type", .string "exec"), ("command", .ofStrings command), ("cwd", .string cwd),
      ("env", .ofStringMap env), ("timeout_ms", .ofOption .ofNat timeoutMs),
      ("stream", .bool stream)]

def toValue (action : TaskAction) : Value :=
  .ofObject (Object.flatten (action.toFields ++ presentField "authorization"
    (action.authorization.map TaskActionAuthorization.toValue)) ∅)

def fromValue (value : Value) : Option TaskAction := do
  let fields ← value.asObject
  let kind ← fields.required Value.asString "type"
  let authorization ← fields.optional (Value.asOption TaskActionAuthorization.fromValue) none
    "authorization"
  match kind with
  | "tool" =>
    let tool ← fields.required Value.asString "tool"
    let args ← fields.optional some .null "args"
    pure (.tool tool args authorization)
  | "exec" =>
    let command ← fields.required Value.asStrings "command"
    let cwd ← fields.required Value.asString "cwd"
    let env ← fields.optional Value.asStringMap ∅ "env"
    let timeoutMs ← fields.optional (Value.asOption Value.asNat) none "timeout_ms"
    let stream ← fields.optional Value.asBool false "stream"
    pure (.exec command cwd env timeoutMs stream authorization)
  | _ => none

def withAuthorization (auth : TaskActionAuthorization) : TaskAction → TaskAction
  | .tool name args _ => .tool name args (some auth)
  | .exec command cwd env timeoutMs stream _ => .exec command cwd env timeoutMs stream (some auth)

theorem fields_nodup (action : TaskAction) (authorization : Option Value) :
    ((action.toFields ++ presentField "authorization" authorization).map Prod.fst).Nodup := by
  cases action <;> cases authorization <;> simp [toFields, presentField]

theorem authorization_bind {β : Type} (action : TaskAction)
    {next : Option TaskActionAuthorization → Option β} :
    (Object.optional (Value.asOption TaskActionAuthorization.fromValue) none
      (Object.flatten (action.toFields ++ presentField "authorization"
        (action.authorization.map TaskActionAuthorization.toValue)) ∅) "authorization" >>= next) =
      next action.authorization := by
  have hLookup : (action.toFields ++ presentField "authorization"
      (action.authorization.map TaskActionAuthorization.toValue)).lookup "authorization" =
        action.authorization.map TaskActionAuthorization.toValue := by
    cases action with
    | tool name args authorization => cases authorization <;> rfl
    | exec command cwd env timeoutMs stream authorization => cases authorization <;> rfl
  exact Object.present_bind (action.fields_nodup _) _ hLookup ExtTreeMap.not_mem_empty fun auth =>
    congrArg (Option.map some) (TaskActionAuthorization.fromValue_toValue auth)

/-- An action that is written and read again is the same action. -/
@[simp] theorem fromValue_toValue (action : TaskAction) : fromValue action.toValue =
    some action := by
  have hFields := action.fields_nodup (action.authorization.map TaskActionAuthorization.toValue)
  rw [toValue, fromValue, Object.ofObject_bind]
  cases action with
  | tool name args authorization =>
    rw [Object.text_bind hFields "type" rfl, authorization_bind]
    change (Object.required Value.asString _ "tool" >>= _) = _
    rw [Object.text_bind hFields "tool" rfl,
      Object.optional_bind hFields "args" rfl rfl]
    rfl
  | exec command cwd env timeoutMs stream authorization =>
    have hTimeout : Value.asOption Value.asNat (Value.ofOption Value.ofNat timeoutMs) =
        some timeoutMs := by
      cases timeoutMs <;> rfl
    rw [Object.text_bind hFields "type" rfl, authorization_bind]
    change (Object.required Value.asStrings _ "command" >>= _) = _
    rw [Object.required_bind hFields "command" rfl (Value.asStrings_ofStrings _),
      Object.text_bind hFields "cwd" rfl,
      Object.optional_bind hFields "env" rfl (Value.asStringMap_ofStringMap _),
      Object.optional_bind hFields "timeout_ms" rfl hTimeout,
      Object.optional_bind hFields "stream" rfl (Value.asBool_bool _)]
    rfl

end TaskAction

structure TaskResult where
  status : String
  completedBy : String
  completedAt : String
  invocationId : Option String
  action : Option String
  reason : Option String
  exitCode : Option Int
  summary : Option String
  artifactMxc : Option String
  extra : Object
  deriving DecidableEq

def Value.ofInt : Int → Value
  | .ofNat n => .number (.posInt n)
  | .negSucc n => .number (.negInt (.negSucc n) (Int.negSucc_lt_zero n))

def TaskResult.intoValue (result : TaskResult) : Value :=
  .ofObject (Object.flatten
    [("status", .string result.status), ("completed_by", .string result.completedBy),
      ("completed_at", .string result.completedAt),
      ("invocation_id", .ofOption .string result.invocationId),
      ("action", .ofOption .string result.action), ("reason", .ofOption .string result.reason),
      ("exit_code", .ofOption .ofInt result.exitCode),
      ("summary", .ofOption .string result.summary),
      ("artifact_mxc", .ofOption .string result.artifactMxc)] result.extra)

/-- `com.mxagent.task.v1` state content. -/
structure TaskState where
  taskId : String
  title : String
  description : String
  state : String
  assignedTo : String
  createdBy : String
  dependsOn : List String
  blocks : List String
  invocationId : Option String
  createdAt : String
  updatedAt : String
  stateRev : Nat
  previousEventId : Option String
  result : Option Value
  action : Option TaskAction
  extra : Object
  deriving DecidableEq

/-- `com.mxagent.invocation.v1` state content, as far as reconciliation reads it. -/
structure InvocationState where
  invocationId : String
  taskId : Option String
  requester : String
  target : String
  state : String
  exitCode : Option Int
  stateRev : Nat
  deriving DecidableEq

inductive StreamKind where
  | stdin
  | stdout
  | stderr
  | pty
  | control
  deriving DecidableEq, Repr

/-- `com.mxagent.stream.chunk.v1` content, as far as capture and rendering go. -/
structure StreamChunk where
  invocationId : String
  stream : StreamKind
  seq : Nat
  encoding : String
  data : String
  eof : Bool
  sha256 : Option String
  deriving DecidableEq

/-- `com.mxagent.stream.artifact.v1` content, as far as it is rendered. -/
structure StreamArtifact where
  stream : StreamKind
  name : String
  sizeBytes : Nat
  sha256 : String
  mxcUri : String
  tailPreview : String
  deriving DecidableEq

/-- `com.mxagent.exec.finished.v1` content, as far as it is rendered. -/
structure ExecFinished where
  exitCode : Option Int
  signal : Option String
  truncated : Bool
  deriving DecidableEq

def ExecStdin.fieldNames : List String :=
  ["invocation_id", "data", "eof", "created_at", "nonce", "signature"]

/-- `com.mxagent.exec.stdin.v1` content. -/
structure ExecStdin where
  invocationId : String
  data : String
  eof : Bool
  createdAt : String
  nonce : String
  signature : Signature
  extra : Object
  extra_fresh : ∀ name ∈ ExecStdin.fieldNames, name ∉ extra
  deriving DecidableEq

def ExecStdin.toValue (stdin : ExecStdin) : Value :=
  .ofObject (Object.flatten
    [("invocation_id", .string stdin.invocationId), ("data", .string stdin.data),
      ("eof", .bool stdin.eof), ("created_at", .string stdin.createdAt),
      ("nonce", .string stdin.nonce), ("signature", stdin.signature.toValue)] stdin.extra)

def ExecCancel.fieldNames : List String :=
  ["invocation_id", "reason", "created_at", "nonce", "signature"]

/-- `com.mxagent.exec.cancel.v1` content. -/
structure ExecCancel where
  invocationId : String
  reason : String
  createdAt : String
  nonce : String
  signature : Signature
  extra : Object
  extra_fresh : ∀ name ∈ ExecCancel.fieldNames, name ∉ extra
  deriving DecidableEq

def ExecCancel.toValue (cancel : ExecCancel) : Value :=
  .ofObject (Object.flatten
    [("invocation_id", .string cancel.invocationId), ("reason", .string cancel.reason),
      ("created_at", .string cancel.createdAt), ("nonce", .string cancel.nonce),
      ("signature", cancel.signature.toValue)] cancel.extra)

def PtyResize.fieldNames : List String :=
  ["invocation_id", "rows", "cols", "pixel_width", "pixel_height",
    "created_at", "nonce", "signature"]

/-- `com.mxagent.pty.resize.v1` content. -/
structure PtyResize where
  invocationId : String
  rows : UInt16
  cols : UInt16
  pixelWidth : UInt16
  pixelHeight : UInt16
  createdAt : String
  nonce : String
  signature : Signature
  extra : Object
  extra_fresh : ∀ name ∈ PtyResize.fieldNames, name ∉ extra
  deriving DecidableEq

def PtyResize.toValue (resize : PtyResize) : Value :=
  .ofObject (Object.flatten
    [("invocation_id", .string resize.invocationId), ("rows", .ofNat resize.rows.toNat),
      ("cols", .ofNat resize.cols.toNat), ("pixel_width", .ofNat resize.pixelWidth.toNat),
      ("pixel_height", .ofNat resize.pixelHeight.toNat),
      ("created_at", .string resize.createdAt), ("nonce", .string resize.nonce),
      ("signature", resize.signature.toValue)] resize.extra)

end MxAgent.Protocol
