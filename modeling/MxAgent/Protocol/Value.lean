import Mathlib.Data.List.Sort
import Mathlib.Data.String.Basic
import Std.Data.ExtTreeMap.Lemmas
import MxAgent.Foundations.StringMap

/-! JSON values as `serde_json` holds them, and the canonical text that is
signed. An object is kept as the list of its entries in key order, which is what
a map without `preserve_order` iterates; `Object` is the map itself. -/
namespace MxAgent.Protocol

/-- A JSON number. Of a float only the bits matter, and a `NegInt` is negative. -/
inductive Number where
  | posInt (value : Nat)
  | negInt (value : Int) (negative : value < 0)
  | float (bits : UInt64)
  deriving DecidableEq, Repr

inductive Value where
  | null
  | bool (value : Bool)
  | number (value : Number)
  | string (value : String)
  | array (items : List Value)
  | object (fields : List (String × Value))

namespace Value

mutual

def beq : Value → Value → Bool
  | .null, .null => true
  | .bool a, .bool b => a == b
  | .number a, .number b => a == b
  | .string a, .string b => a == b
  | .array a, .array b => beqItems a b
  | .object a, .object b => beqFields a b
  | _, _ => false

def beqItems : List Value → List Value → Bool
  | [], [] => true
  | a :: as, b :: bs => beq a b && beqItems as bs
  | _, _ => false

def beqFields : List (String × Value) → List (String × Value) → Bool
  | [], [] => true
  | (k, a) :: as, (l, b) :: bs => k == l && beq a b && beqFields as bs
  | _, _ => false

end

mutual

theorem beq_iff_eq (a b : Value) : beq a b ↔ a = b := by
  cases a with
  | array items =>
    cases b <;> simp only [beq, reduceCtorEq, Bool.false_eq_true, array.injEq]
    exact beqItems_iff_eq items _
  | object fields =>
    cases b <;> simp only [beq, reduceCtorEq, Bool.false_eq_true, object.injEq]
    exact beqFields_iff_eq fields _
  | _ => cases b <;> simp [beq]

theorem beqItems_iff_eq (as bs : List Value) : beqItems as bs ↔ as = bs := by
  cases as with
  | nil => cases bs <;> simp [beqItems]
  | cons a as =>
    cases bs with
    | nil => simp [beqItems]
    | cons b bs => simp [beqItems, beq_iff_eq a b, beqItems_iff_eq as bs]

theorem beqFields_iff_eq (as bs : List (String × Value)) : beqFields as bs ↔ as = bs := by
  cases as with
  | nil => cases bs <;> simp [beqFields]
  | cons a as =>
    obtain ⟨k, a⟩ := a
    cases bs with
    | nil => simp [beqFields]
    | cons b bs =>
      obtain ⟨l, b⟩ := b
      simp [beqFields, beq_iff_eq a b, beqFields_iff_eq as bs]

end

instance : DecidableEq Value := fun a b => decidable_of_iff _ (beq_iff_eq a b)

end Value

/-- `serde_json::Map`, also of the forward-compatible `extra` fields. -/
abbrev Object := Std.ExtTreeMap String Value

namespace Value

def ofObject (fields : Object) : Value := .object fields.toList

def asObject : Value → Option Object
  | .object fields => some (Std.ExtTreeMap.ofList fields)
  | _ => none

theorem asObject_ofObject (fields : Object) : (ofObject fields).asObject = some fields := by
  rw [ofObject, asObject, StringMap.ofList_toList]

end Value

inductive CanonicalJsonError where
  | nonIntegerNumber
  deriving DecidableEq, Repr

/-- The hexadecimal digits of a control character, as `serde_json` escapes it. -/
def hexDigit (n : Nat) : Char := Char.ofNat (if n < 10 then 48 + n else 87 + n)

/-- One character of a JSON string literal under `serde_json`'s escaping. -/
def escapeChar (c : Char) : List Char :=
  match c.toNat with
  | 8 => [Char.ofNat 92, Char.ofNat 98]
  | 9 => [Char.ofNat 92, Char.ofNat 116]
  | 10 => [Char.ofNat 92, Char.ofNat 110]
  | 12 => [Char.ofNat 92, Char.ofNat 102]
  | 13 => [Char.ofNat 92, Char.ofNat 114]
  | 34 => [Char.ofNat 92, Char.ofNat 34]
  | 92 => [Char.ofNat 92, Char.ofNat 92]
  | n =>
    if n < 32 then
      [Char.ofNat 92, Char.ofNat 117, Char.ofNat 48, Char.ofNat 48, hexDigit (n / 16),
        hexDigit (n % 16)]
    else [c]

/-- `write_string`: the literal with its quotes. -/
def writeString (s : String) : String :=
  "\"" ++ String.ofList (s.toList.flatMap escapeChar) ++ "\""

def writeNumber : Number → Except CanonicalJsonError String
  | .posInt value => .ok (toString value)
  | .negInt value _ => .ok (toString value)
  | .float _ => .error .nonIntegerNumber

def writeEntries (entries : List (String × String)) : String :=
  ",".intercalate ((entries.insertionSort fun a b => a.1 ≤ b.1).map fun entry =>
    writeString entry.1 ++ ":" ++ entry.2)

mutual

/-- `write_value`. A float anywhere in the value fails the whole encoding. -/
def Value.toCanonicalString : Value → Except CanonicalJsonError String
  | .null => .ok "null"
  | .bool true => .ok "true"
  | .bool false => .ok "false"
  | .number n => writeNumber n
  | .string s => .ok (writeString s)
  | .array items => do
      let texts ← canonicalItems items
      pure ("[" ++ ",".intercalate texts ++ "]")
  | .object fields => do
      let entries ← canonicalFields fields
      pure ("\x7b" ++ writeEntries entries ++ "\x7d")

def canonicalItems : List Value → Except CanonicalJsonError (List String)
  | [] => .ok []
  | item :: rest => do
      let text ← item.toCanonicalString
      let texts ← canonicalItems rest
      pure (text :: texts)

def canonicalFields : List (String × Value) → Except CanonicalJsonError (List (String × String))
  | [] => .ok []
  | (key, value) :: rest => do
      let text ← value.toCanonicalString
      let texts ← canonicalFields rest
      pure ((key, text) :: texts)

end

end MxAgent.Protocol
