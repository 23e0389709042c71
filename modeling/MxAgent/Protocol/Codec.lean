import MxAgent.Protocol.Value

/-! How derived serde implementations read and write the fields of a struct
with a flattened `extra` map: known fields are looked up by name, unknown ones
are collected, and writing puts the known fields back over the unknown ones. -/
namespace MxAgent.Protocol

open Std

namespace Value

def asString : Value → Option String
  | .string s => some s
  | _ => none

def asBool : Value → Option Bool
  | .bool b => some b
  | _ => none

/-- `u64`: floats and negative integers are rejected. -/
def asNat : Value → Option Nat
  | .number (.posInt n) => some n
  | _ => none

def ofNat (n : Nat) : Value := .number (.posInt n)

def asOption {α : Type} (decode : Value → Option α) : Value → Option (Option α)
  | .null => some none
  | value => (decode value).map some

def ofOption {α : Type} (encode : α → Value) : Option α → Value
  | none => .null
  | some item => encode item

def ofStrings (items : List String) : Value := .array (items.map .string)

def asStrings : Value → Option (List String)
  | .array items => items.mapM asString
  | _ => none

def ofStringMap (map : ExtTreeMap String String) : Value :=
  ofObject (map.map fun _ value => .string value)

def asStringMap (value : Value) : Option (ExtTreeMap String String) := do
  let fields ← value.asObject
  if fields.toList.all fun entry => entry.2.asString.isSome then
    some (fields.filterMap fun _ value => value.asString)
  else none

@[simp] theorem asString_string (s : String) : (Value.string s).asString = some s := rfl

@[simp] theorem asBool_bool (b : Bool) : (Value.bool b).asBool = some b := rfl

@[simp] theorem asNat_ofNat (n : Nat) : (ofNat n).asNat = some n := rfl

@[simp] theorem asOption_ofOption (item : Option String) :
    asOption asString (ofOption .string item) = some item := by
  cases item <;> rfl

@[simp] theorem asStrings_ofStrings (items : List String) :
    (ofStrings items).asStrings = some items := by
  simp only [ofStrings, asStrings, List.mapM_map]
  induction items with
  | nil => rfl
  | cons item rest ih =>
    simp only [List.mapM_cons, Function.comp_apply, asString_string] at ih ⊢
    simp [ih]

@[simp] theorem asStringMap_ofStringMap (map : ExtTreeMap String String) :
    (ofStringMap map).asStringMap = some map := by
  have hAll : (map.map fun _ value => Value.string value).toList.all
      (fun entry => entry.2.asString.isSome) := by
    rw [List.all_eq_true]
    rintro ⟨key, value⟩ hEntry
    rw [ExtTreeMap.mem_toList_iff_getElem?_eq_some, ExtTreeMap.getElem?_map,
      Option.map_eq_some_iff] at hEntry
    obtain ⟨text, -, rfl⟩ := hEntry
    rfl
  simp only [asStringMap, ofStringMap, asObject_ofObject, Option.bind_eq_bind, Option.bind_some,
    hAll, if_true, Option.some.injEq]
  apply ExtTreeMap.ext_getElem?
  intro key
  rw [ExtTreeMap.getElem?_filterMap', ExtTreeMap.getElem?_map]
  cases map[key]? <;> rfl

end Value

variable {known : List (String × Value)} {extra : Object}

namespace Object

/-- Decode a field that has to be there. -/
def required {α : Type} (decode : Value → Option α) (fields : Object) (name : String) : Option α :=
  fields[name]?.bind decode

def optional {α : Type} (decode : Value → Option α) (fallback : α) (fields : Object)
    (name : String) : Option α :=
  match fields[name]? with
  | none => some fallback
  | some value => decode value

/-- The fields that are not known by name. -/
def unknown (known : List String) (fields : Object) : Object :=
  fields.filter fun name _ => decide (name ∉ known)

/-- The fields of a struct over its flattened map. -/
def flatten (known : List (String × Value)) (extra : Object) : Object := extra.insertMany known

/-- A known field is read back by name, any other from `extra`. -/
theorem flatten_getElem? {name : String} (hDistinct : (known.map Prod.fst).Nodup) :
    (flatten known extra)[name]? = (known.lookup name).or extra[name]? := by
  cases h : known.lookup name with
  | none =>
    rw [Option.none_or]
    apply ExtTreeMap.getElem?_insertMany_list_of_contains_eq_false
    rw [← Bool.not_eq_true, List.contains_iff_mem, List.mem_map]
    rintro ⟨⟨key, value⟩, hEntry, rfl⟩
    simpa using List.lookup_eq_none_iff.mp h _ hEntry
  | some value =>
    rw [Option.some_or]
    obtain ⟨before, after, rfl, -⟩ := List.lookup_eq_some_iff.mp h
    apply ExtTreeMap.getElem?_insertMany_list_of_mem ReflCmp.compare_self _ (by simp)
    rw [List.Nodup, List.pairwise_map] at hDistinct
    exact hDistinct.imp fun hNe hEq => hNe (LawfulEqCmp.eq_of_compare hEq)

section Unknown

variable {names : List String} (hKnown : known.map Prod.fst ⊆ names)

include hKnown

theorem lookup_eq_none {name : String} (hName : name ∉ names) : known.lookup name = none := by
  rw [List.lookup_eq_none_iff]
  rintro ⟨key, value⟩ hEntry
  rw [bne_iff_ne]
  rintro rfl
  exact hName (hKnown (List.mem_map_of_mem hEntry))

variable (hDistinct : (known.map Prod.fst).Nodup)

include hDistinct

/-- A field the struct does not know goes through the flattened map. -/
theorem flatten_unknown {name : String} (hName : name ∉ names) (found : Object) :
    (flatten known (found.unknown names))[name]? = found[name]? := by
  rw [flatten_getElem? hDistinct, lookup_eq_none hKnown hName, Option.none_or, unknown,
    ExtTreeMap.getElem?_filter']
  cases found[name]? <;> simp [hName]

/-- The unknown fields of a written struct are its `extra` map, if that uses no known name. -/
theorem unknown_flatten (hFresh : ∀ name ∈ names, name ∉ extra) :
    unknown names (flatten known extra) = extra := by
  apply ExtTreeMap.ext_getElem?
  intro name
  rw [unknown, ExtTreeMap.getElem?_filter', flatten_getElem? hDistinct]
  by_cases hName : name ∈ names
  · rw [ExtTreeMap.getElem?_eq_none (hFresh name hName)]
    simp [hName]
  · rw [lookup_eq_none hKnown hName, Option.none_or]
    cases extra[name]? <;> simp [hName]

end Unknown

theorem unknown_fresh (names : List String) (fields : Object) :
    ∀ name ∈ names, name ∉ unknown names fields := by
  intro name hName hMem
  rw [unknown, ExtTreeMap.mem_filter] at hMem
  obtain ⟨hField, hUnknown⟩ := hMem
  simp [hName] at hUnknown

/-- Reading a required field of a written struct continues with its value, found by computation. -/
theorem required_bind {α β : Type} {decode : Value → Option α} {value : Value} {item : α}
    {next : α → Option β} (hDistinct : (known.map Prod.fst).Nodup) (name : String)
    (h : known.lookup name = some value) (hDecode : decode value = some item) :
    (required decode (flatten known extra) name >>= next) = next item := by
  rw [required, flatten_getElem? hDistinct, h, Option.some_or, Option.bind_some, hDecode]
  rfl

theorem text_bind {β : Type} {text : String} {next : String → Option β}
    (hDistinct : (known.map Prod.fst).Nodup) (name : String)
    (h : known.lookup name = some (.string text)) :
    (required Value.asString (flatten known extra) name >>= next) = next text :=
  required_bind hDistinct name h rfl

theorem optional_bind {α β : Type} {decode : Value → Option α} {fallback item : α} {value : Value}
    {next : α → Option β} (hDistinct : (known.map Prod.fst).Nodup) (name : String)
    (h : known.lookup name = some value) (hDecode : decode value = some item) :
    (optional decode fallback (flatten known extra) name >>= next) = next item := by
  rw [optional, flatten_getElem? hDistinct, h, Option.some_or]
  simp only [hDecode]
  rfl

theorem present_bind {α β : Type} {decode : Value → Option α} {encode : α → Value}
    {item : Option α} {next : Option α → Option β} (hDistinct : (known.map Prod.fst).Nodup)
    (name : String) (h : known.lookup name = item.map encode) (hExtra : name ∉ extra)
    (hDecode : ∀ result, Value.asOption decode (encode result) = some (some result)) :
    (optional (Value.asOption decode) none (flatten known extra) name >>= next) = next item := by
  rw [optional, flatten_getElem? hDistinct, h, ExtTreeMap.getElem?_eq_none hExtra, Option.or_none]
  cases item with
  | none => rfl
  | some result =>
    simp only [Option.map_some, hDecode]
    rfl

theorem ofObject_bind {β : Type} {fields : Object} {next : Object → Option β} :
    ((Value.ofObject fields).asObject >>= next) = next fields := by
  rw [Value.asObject_ofObject]
  rfl

end Object

def presentField (name : String) : Option Value → List (String × Value)
  | none => []
  | some value => [(name, value)]

end MxAgent.Protocol
