import MxAgent.Foundations.PagedScan
import MxAgent.Protocol.Schema

/-! The latest heartbeat of each agent of a room, read from the timeline page by page. A heartbeat
counts only when its sender is the user the agent is registered for. -/
namespace MxAgent.Daemon

open Protocol Std PagedScan

structure AgentLoad where
  runningInvocations : Nat
  maxInvocations : Nat
  deriving DecidableEq, Repr

namespace AgentLoad

def asU32 (value : Value) : Option Nat :=
  value.asNat.filter fun n => n < 2 ^ 32

def fromFields (fields : Object) : Option AgentLoad := do
  let runningInvocations ← fields.required asU32 "running_invocations"
  let maxInvocations ← fields.required asU32 "max_invocations"
  pure { runningInvocations, maxInvocations }

def fromItems : List Value → Option AgentLoad
  | [running, max] => do
    let runningInvocations ← asU32 running
    let maxInvocations ← asU32 max
    pure { runningInvocations, maxInvocations }
  | _ => none

/-- A struct without a flattened map is also read from an array. -/
def fromValue : Value → Option AgentLoad
  | .array items => fromItems items
  | value => value.asObject.bind fromFields

end AgentLoad

def Heartbeat.fieldNames : List String := ["agent_id", "status", "load", "ts"]

structure Heartbeat where
  agentId : String
  status : String
  load : AgentLoad
  ts : Nat
  extra : Object
  deriving DecidableEq

def Heartbeat.fromValue (value : Value) : Option Heartbeat := do
  let fields ← value.asObject
  let agentId ← fields.required Value.asString "agent_id"
  let status ← fields.required Value.asString "status"
  let load ← fields.required AgentLoad.fromValue "load"
  let ts ← fields.required Value.asNat "ts"
  pure { agentId, status, load, ts, extra := fields.unknown fieldNames }

def heartbeatEventType : String := "com.mxagent.heartbeat.v1"

/-- `Raw::get_field`, where an error, a missing field and `null` are one. -/
def rawField {α : Type} (decode : Value → Option α) (event : Value) (name : String) : Option α :=
  event.asObject.bind fun fields => fields.required decode name

def expectedSenders (agents : List AgentState) : ExtTreeMap String String :=
  .ofList (agents.map fun agent => (agent.agentId, agent.matrixUserId))

def acceptHeartbeat (expected : ExtTreeMap String String) (agentId : String)
    (sender : Option String) : Bool :=
  match expected[agentId]?, sender with
  | some registered, some sender => registered == sender
  | _, _ => false

/-- The heartbeat that an event of the timeline is, with its sender. -/
def heartbeatOf (event : Value) : Option (Heartbeat × Option String) :=
  if rawField Value.asString event "type" = some heartbeatEventType then
    (rawField Heartbeat.fromValue event "content").map fun heartbeat =>
      (heartbeat, rawField Value.asString event "sender")
  else none

/-- What the scan does with an event. An agent's first heartbeat stays. -/
def recordHeartbeat (expected : ExtTreeMap String String) (latest : ExtTreeMap String Heartbeat)
    (event : Value) : ExtTreeMap String Heartbeat :=
  match heartbeatOf event with
  | none => latest
  | some (heartbeat, sender) =>
    if acceptHeartbeat expected heartbeat.agentId sender then
      latest.insertIfNew heartbeat.agentId heartbeat
    else latest

def allSeen (expected : ExtTreeMap String String) (latest : ExtTreeMap String Heartbeat) : Bool :=
  expected.keys.all latest.contains

/-- The most recent heartbeat per agent. `messages` is one page of `/messages`, backward from a
token. -/
def readLatestHeartbeats {ε : Type} (messages : Option String → Except ε (Page Value String))
    (agents : List AgentState) (maxEvents : Nat) : Except ε (ExtTreeMap String Heartbeat) :=
  let expected := expectedSenders agents
  if expected.isEmpty then .ok ∅
  else scan messages (recordHeartbeat expected) (allSeen expected) maxEvents maxEvents none 0 ∅

end MxAgent.Daemon
