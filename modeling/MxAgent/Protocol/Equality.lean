import MxAgent.Protocol.Schema

/-! Equality of task states as the derived `PartialEq` has it. Floats are compared as numbers, so
that the two zeros are equal although their bits differ; everything else is compared field by
field. A JSON number is never NaN, so the comparison is equality of what is left when the sign of
a zero is dropped. -/
namespace MxAgent.Protocol

open Std

/-- A float with its sign dropped if it is zero. -/
def Number.unsignedZero : Number → Number
  | .float bits => .float (if bits = 0x8000000000000000 then 0 else bits)
  | number => number

namespace Value

mutual

def unsignedZero : Value → Value
  | .null => .null
  | .bool value => .bool value
  | .number value => .number value.unsignedZero
  | .string value => .string value
  | .array items => .array (unsignedZeroItems items)
  | .object fields => .object (unsignedZeroFields fields)

def unsignedZeroItems : List Value → List Value
  | [] => []
  | item :: rest => item.unsignedZero :: unsignedZeroItems rest

def unsignedZeroFields : List (String × Value) → List (String × Value)
  | [] => []
  | (key, value) :: rest => (key, value.unsignedZero) :: unsignedZeroFields rest

end

end Value

def Object.unsignedZero (fields : Object) : Object :=
  fields.map fun _ value => value.unsignedZero

def TaskActionAuthorization.unsignedZero (auth : TaskActionAuthorization) :
    TaskActionAuthorization :=
  { auth with
    extra := Object.unsignedZero auth.extra
    extra_fresh := fun name hName hMem =>
      auth.extra_fresh name hName (ExtTreeMap.mem_map.mp hMem) }

def TaskAction.unsignedZero : TaskAction → TaskAction
  | .tool name args authorization =>
    .tool name args.unsignedZero (authorization.map TaskActionAuthorization.unsignedZero)
  | .exec command cwd env timeoutMs stream authorization =>
    .exec command cwd env timeoutMs stream
      (authorization.map TaskActionAuthorization.unsignedZero)

namespace TaskState

/-- A task with `-0.0` read as `0.0`, the only numbers that are equal and not the same. -/
def unsignedZero (task : TaskState) : TaskState :=
  { task with
    result := task.result.map Value.unsignedZero
    action := task.action.map TaskAction.unsignedZero
    extra := Object.unsignedZero task.extra }

end TaskState

end MxAgent.Protocol
