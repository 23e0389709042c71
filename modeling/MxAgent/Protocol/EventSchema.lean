import Mathlib.Algebra.Group.Int.Defs
import MxAgent.Protocol.Signing

/-! Reading an event content into its struct and writing the struct back, for
all event types in one definition: a schema lists the fields of a struct with
their types and with what serde does when a field is absent or `null`. Unknown
fields go through the flattened map. -/
namespace MxAgent.Protocol

open Std

def Value.asI32 : Value → Option Int
  | .number (.posInt n) => if n < 2 ^ 31 then some n else none
  | .number (.negInt n _) => if -2 ^ 31 ≤ n then some n else none
  | _ => none

namespace StreamKind

def name : StreamKind → String
  | .stdin => "stdin"
  | .stdout => "stdout"
  | .stderr => "stderr"
  | .pty => "pty"
  | .control => "control"

def ofName (text : String) : Option StreamKind :=
  [stdin, stdout, stderr, pty, control].find? fun kind => kind.name == text

/-- A unit variant is its name, or an object from it to `null`. -/
def fromValue : Value → Option StreamKind
  | .string text => ofName text
  | .object [(text, .null)] => ofName text
  | _ => none

def toValue (kind : StreamKind) : Value := .string kind.name

end StreamKind

inductive FieldType where
  | text
  | flag
  | u64
  | i32
  | texts
  | textMap
  | json
  | streamKind
  deriving DecidableEq, Repr

def FieldType.rewrite : FieldType → Value → Option Value
  | .text, value => value.asString.map .string
  | .flag, value => value.asBool.map .bool
  | .u64, value => value.asNat.map .ofNat
  | .i32, value => value.asI32.map .ofInt
  | .texts, value => value.asStrings.map .ofStrings
  | .textMap, value => value.asStringMap.map .ofStringMap
  | .json, value => some value
  | .streamKind, value => (StreamKind.fromValue value).map StreamKind.toValue

/-- What serde does with a field: `T`; `Option<T>`, which reads an absent field as `None` and writes
`None` as `null`; the same with `skip_serializing_if`, which writes no `None`. -/
inductive Presence where
  | required
  | nullable
  | skipped
  deriving DecidableEq, Repr

/-- The field as it stands in the content, read and written back. -/
def Presence.rewrite (rewriteValue : Value → Option Value) :
    Presence → Option Value → Option (Option Value)
  | .required, none => none
  | .required, some value => (rewriteValue value).map some
  | .nullable, none => some (some .null)
  | .nullable, some .null => some (some .null)
  | .nullable, some value => (rewriteValue value).map some
  | .skipped, none => some none
  | .skipped, some .null => some none
  | .skipped, some value => (rewriteValue value).map some

structure Field where
  name : String
  type : FieldType
  presence : Presence
  deriving DecidableEq, Repr

def Field.rewrite (field : Field) (found : Option Value) : Option (Option Value) :=
  field.presence.rewrite field.type.rewrite found

def rewriteSignature (presence : Presence) (found : Option Value) : Option (Option Value) :=
  presence.rewrite (fun value => (Signature.fromValue value).map Signature.toValue) found

structure EventSchema where
  fields : List Field
  signature : Presence
  names_nodup : (signatureField :: fields.map Field.name).Nodup

def rewriteFields (found : Object) : List Field → Option (List (String × Value))
  | [] => some []
  | field :: rest => do
      let written ← field.rewrite found[field.name]?
      let known ← rewriteFields found rest
      pure (presentField field.name written ++ known)

/-- The content deserialized and serialized again. -/
def EventSchema.reserialize (schema : EventSchema) (content : Value) : Option Value := do
  let found ← content.asObject
  let signature ← rewriteSignature schema.signature found[signatureField]?
  let known ← rewriteFields found schema.fields
  pure (.ofObject (Object.flatten (presentField signatureField signature ++ known)
    (found.unknown (signatureField :: schema.fields.map Field.name))))

def ExecRequest.schema : EventSchema where
  fields := [⟨"invocation_id", .text, .required⟩, ⟨"request_id", .text, .required⟩,
    ⟨"target_agent", .text, .required⟩, ⟨"requesting_agent", .text, .required⟩,
    ⟨"command", .texts, .required⟩, ⟨"cwd", .text, .required⟩, ⟨"env", .textMap, .required⟩,
    ⟨"stdin", .flag, .required⟩, ⟨"stream", .flag, .required⟩, ⟨"pty", .flag, .required⟩,
    ⟨"timeout_ms", .u64, .required⟩, ⟨"task_id", .text, .nullable⟩,
    ⟨"created_at", .text, .required⟩, ⟨"expires_at", .text, .required⟩,
    ⟨"nonce", .text, .required⟩, ⟨"idempotency_key", .text, .required⟩]
  signature := .required
  names_nodup := by decide

def CallRequest.schema : EventSchema where
  fields := [⟨"invocation_id", .text, .required⟩, ⟨"request_id", .text, .required⟩,
    ⟨"tool", .text, .required⟩, ⟨"args", .json, .required⟩, ⟨"created_at", .text, .required⟩,
    ⟨"expires_at", .text, .required⟩, ⟨"nonce", .text, .required⟩,
    ⟨"requesting_agent", .text, .skipped⟩, ⟨"target_agent", .text, .skipped⟩]
  signature := .required
  names_nodup := by decide

def ApprovalDecision.schema : EventSchema where
  fields := [⟨"request_id", .text, .required⟩, ⟨"decision", .text, .required⟩,
    ⟨"approved_by", .text, .required⟩, ⟨"created_at", .text, .required⟩,
    ⟨"nonce", .text, .skipped⟩, ⟨"expires_at", .text, .skipped⟩]
  signature := .skipped
  names_nodup := by decide

def execAccepted : EventSchema where
  fields := [⟨"invocation_id", .text, .required⟩]
  signature := .skipped
  names_nodup := by decide

def execRejected : EventSchema where
  fields := [⟨"invocation_id", .text, .required⟩, ⟨"reason", .text, .required⟩]
  signature := .skipped
  names_nodup := by decide

def execFinished : EventSchema where
  fields := [⟨"invocation_id", .text, .required⟩, ⟨"exit_code", .i32, .nullable⟩,
    ⟨"signal", .text, .nullable⟩, ⟨"duration_ms", .u64, .required⟩,
    ⟨"stdout_bytes", .u64, .required⟩, ⟨"stderr_bytes", .u64, .required⟩,
    ⟨"truncated", .flag, .required⟩, ⟨"artifact_mxc", .text, .nullable⟩]
  signature := .skipped
  names_nodup := by decide

def execCancelled : EventSchema where
  fields := [⟨"invocation_id", .text, .required⟩, ⟨"signal_sent", .text, .required⟩,
    ⟨"killed_process_group", .flag, .required⟩, ⟨"finished_at", .text, .required⟩]
  signature := .skipped
  names_nodup := by decide

def streamChunk : EventSchema where
  fields := [⟨"invocation_id", .text, .required⟩, ⟨"stream", .streamKind, .required⟩,
    ⟨"seq", .u64, .required⟩, ⟨"encoding", .text, .required⟩, ⟨"data", .text, .required⟩,
    ⟨"eof", .flag, .required⟩, ⟨"compressed", .flag, .required⟩, ⟨"sha256", .text, .nullable⟩,
    ⟨"timestamp", .text, .required⟩]
  signature := .skipped
  names_nodup := by decide

/-- `com.mxagent.stream.artifact.v1`. -/
def streamArtifact : EventSchema where
  fields := [⟨"invocation_id", .text, .required⟩, ⟨"stream", .streamKind, .required⟩,
    ⟨"name", .text, .required⟩, ⟨"mime_type", .text, .required⟩,
    ⟨"size_bytes", .u64, .required⟩, ⟨"sha256", .text, .required⟩,
    ⟨"mxc_uri", .text, .required⟩, ⟨"tail_preview", .text, .required⟩,
    ⟨"encrypted_file", .json, .skipped⟩]
  signature := .skipped
  names_nodup := by decide

/-- `com.mxagent.call.response.v1`. -/
def callResponse : EventSchema where
  fields := [⟨"request_id", .text, .required⟩, ⟨"ok", .flag, .required⟩,
    ⟨"result", .json, .nullable⟩, ⟨"error", .text, .nullable⟩]
  signature := .skipped
  names_nodup := by decide

end MxAgent.Protocol
