import MxAgent.Protocol.EventSchema
import MxAgent.Protocol.SignedContent

/-! What a content looks like after it was deserialized and serialized again,
field by field, and when its signed bytes are still the same. -/
namespace MxAgent.Protocol

open Std

variable {value content : Value} {known : List (String × Value)}

namespace Value

theorem asString_eq_some {text : String} : value.asString = some text ↔ value = .string text := by
  cases value <;> simp [asString]

theorem asBool_eq_some {flag : Bool} : value.asBool = some flag ↔ value = .bool flag := by
  cases value <;> simp [asBool]

theorem asNat_eq_some {n : Nat} : value.asNat = some n ↔ value = .ofNat n := by
  rcases value with _ | _ | (_ | _ | _) | _ | _ | _ <;> simp [asNat, ofNat]

theorem eq_ofInt_of_asI32 {n : Int} (h : value.asI32 = some n) : value = .ofInt n := by
  rcases value with _ | _ | (m | ⟨m, hm⟩ | _) | _ | _ | _
  case number.posInt =>
    simp only [asI32] at h
    split at h <;> cases h
    rfl
  case number.negInt =>
    obtain ⟨k, rfl⟩ := Int.eq_negSucc_of_lt_zero hm
    simp only [asI32] at h
    split at h <;> cases h
    rfl
  all_goals cases h

theorem eq_ofStrings_of_asStrings {texts : List String}
    (h : value.asStrings = some texts) : value = .ofStrings texts := by
  cases value with
  | array items =>
    simp only [asStrings] at h
    rw [ofStrings]
    congr 1
    induction items generalizing texts with
    | nil =>
      cases h
      rfl
    | cons item rest ih =>
      simp only [List.mapM_cons, Option.bind_eq_bind, Option.bind_eq_some_iff,
        Option.pure_def, Option.some.injEq] at h
      obtain ⟨text, hText, others, hOthers, rfl⟩ := h
      rw [List.map_cons, ← ih hOthers, asString_eq_some.mp hText]
  | _ => cases h

/-- A map of texts is read from an object that has just these entries. -/
theorem asObject_of_asStringMap {map : ExtTreeMap String String}
    (h : value.asStringMap = some map) :
    value.asObject = some (map.map fun _ text => Value.string text) := by
  simp only [asStringMap, Option.bind_eq_bind, Option.bind_eq_some_iff,
    Option.ite_none_right_eq_some, Option.some.injEq] at h
  obtain ⟨fields, hFields, hAll, rfl⟩ := h
  rw [hFields, Option.some.injEq]
  apply ExtTreeMap.ext_getElem?
  intro name
  rw [ExtTreeMap.getElem?_map, ExtTreeMap.getElem?_filterMap']
  cases hName : fields[name]? with
  | none => rfl
  | some found =>
    have hSome : found.asString.isSome := List.all_eq_true.mp hAll (name, found)
      (ExtTreeMap.mem_toList_iff_getElem?_eq_some.mpr hName)
    obtain ⟨text, hText⟩ := Option.isSome_iff_exists.mp hSome
    rw [asString_eq_some.mp hText]
    rfl

theorem floatFree_ofStringMap (map : ExtTreeMap String String) : (ofStringMap map).floatFree := by
  rw [ofStringMap, floatFree_ofObject]
  intro name value hValue
  rw [ExtTreeMap.getElem?_map, Option.map_eq_some_iff] at hValue
  obtain ⟨text, -, rfl⟩ := hValue
  rfl

end Value

theorem Value.sorted_ofStringMap {map : ExtTreeMap String String}
    (hDistinct : value.distinctKeys) (h : value.asStringMap = some map) :
    (Value.ofStringMap map).sorted = value.sorted := by
  have hObject := Value.asObject_of_asStringMap h
  cases value with
  | object fields =>
    rw [Value.asObject, Option.some.injEq] at hObject
    rw [sorted_object (Value.distinctKeys_object.mp hDistinct).1, hObject, Value.ofStringMap]
  | _ => cases hObject

/-- Whether a value is written back as it was. A stream kind has two forms. -/
def FieldType.keeps : FieldType → Value → Bool
  | .streamKind, .object _ => false
  | _, _ => true

section Rewrite

variable {type : FieldType} {value written : Value}

theorem FieldType.sorted_rewrite_iff (hDistinct : value.distinctKeys)
    (h : type.rewrite value = some written) :
    written.sorted = value.sorted ↔ type.keeps value := by
  cases type
  case json =>
    cases h
    exact iff_of_true rfl rfl
  all_goals obtain ⟨item, hItem, rfl⟩ := Option.map_eq_some_iff.mp h
  case streamKind =>
    unfold StreamKind.fromValue at hItem
    split at hItem
    · rename_i text
      have hName : item.name = text := by simpa using List.find?_some hItem
      simp [StreamKind.toValue, hName, keeps]
    · simp [StreamKind.toValue, keeps, Value.sorted]
    · cases hItem
  case textMap => exact iff_of_true (Value.sorted_ofStringMap hDistinct hItem) rfl
  case text => exact iff_of_true (by rw [Value.asString_eq_some.mp hItem]) rfl
  case flag => exact iff_of_true (by rw [Value.asBool_eq_some.mp hItem]) rfl
  case u64 => exact iff_of_true (by rw [Value.asNat_eq_some.mp hItem]) rfl
  case i32 => exact iff_of_true (by rw [Value.eq_ofInt_of_asI32 hItem]) rfl
  case texts => exact iff_of_true (by rw [Value.eq_ofStrings_of_asStrings hItem]) rfl

/-- Reading and writing a value neither removes a float nor adds one. -/
theorem FieldType.floatFree_rewrite (hDistinct : value.distinctKeys)
    (h : type.rewrite value = some written) : written.floatFree = value.floatFree := by
  by_cases hKeeps : type.keeps value
  · rw [← Value.floatFree_sorted, (sorted_rewrite_iff hDistinct h).mpr hKeeps,
      Value.floatFree_sorted]
  · cases type with
    | streamKind =>
      rw [rewrite, Option.map_eq_some_iff] at h
      obtain ⟨kind, hKind, rfl⟩ := h
      unfold StreamKind.fromValue at hKind
      split at hKind
      · exact absurd rfl hKeeps
      · rfl
      · cases hKind
    | _ => exact absurd rfl hKeeps

end Rewrite

theorem Presence.rewrite_some {rewriteValue : Value → Option Value} (presence : Presence)
    (h : value ≠ .null) :
    presence.rewrite rewriteValue (some value) = (rewriteValue value).map some := by
  cases presence <;> cases value <;> first | rfl | exact absurd rfl h

/-- What reading a field and writing it back can do. -/
theorem Presence.rewrite_cases {presence : Presence} {rewriteValue : Value → Option Value}
    {found written : Option Value} (h : presence.rewrite rewriteValue found = some written) :
    (presence = .nullable ∧ (found = none ∨ found = some .null) ∧ written = some .null) ∨
    (presence = .skipped ∧ (found = none ∨ found = some .null) ∧ written = none) ∨
    ∃ value result, found = some value ∧ (value = .null → presence = .required) ∧
      rewriteValue value = some result ∧ written = some result := by
  unfold rewrite at h
  split at h
  · cases h
  · rename_i value
    obtain ⟨result, hResult, rfl⟩ := Option.map_eq_some_iff.mp h
    exact .inr (.inr ⟨value, result, rfl, fun _ => rfl, hResult, rfl⟩)
  · cases h
    exact .inl ⟨rfl, .inl rfl, rfl⟩
  · cases h
    exact .inl ⟨rfl, .inr rfl, rfl⟩
  · rename_i value hNull
    obtain ⟨result, hResult, rfl⟩ := Option.map_eq_some_iff.mp h
    exact .inr (.inr ⟨value, result, rfl, fun hEq => absurd hEq hNull, hResult, rfl⟩)
  · cases h
    exact .inr (.inl ⟨rfl, .inl rfl, rfl⟩)
  · cases h
    exact .inr (.inl ⟨rfl, .inr rfl, rfl⟩)
  · rename_i value hNull
    obtain ⟨result, hResult, rfl⟩ := Option.map_eq_some_iff.mp h
    exact .inr (.inr ⟨value, result, rfl, fun hEq => absurd hEq hNull, hResult, rfl⟩)

/-- Whether a field is written back as it was: an optional one without `skip_serializing_if` must be
present, one with it no explicit `null`. -/
def Field.keeps (field : Field) : Option Value → Bool
  | none => field.presence != .nullable
  | some .null => field.presence != .skipped
  | some value => field.type.keeps value

section Field

variable {field : Field} {found written : Option Value}

theorem Field.keeps_some (h : value = .null → field.presence = .required) :
    field.keeps (some value) = field.type.keeps value := by
  unfold keeps
  split
  · rename_i hNone
    cases hNone
  · rename_i hNull
    cases hNull
    rw [h rfl]
    cases field.type <;> rfl
  · rename_i hSome
    cases hSome
    rfl

theorem Field.sorted_rewrite_iff (hDistinct : ∀ value ∈ found, value.distinctKeys)
    (h : field.rewrite found = some written) :
    written.map Value.sorted = found.map Value.sorted ↔ field.keeps found := by
  rcases Presence.rewrite_cases h with ⟨hPresence, rfl | rfl, rfl⟩ | ⟨hPresence, rfl | rfl, rfl⟩ |
    ⟨value, result, rfl, hNull, hResult, rfl⟩
  · simp [keeps, hPresence]
  · simp [keeps, hPresence]
  · simp [keeps, hPresence]
  · simp [keeps, hPresence]
  · rw [keeps_some hNull, Option.map_some, Option.map_some, Option.some.injEq]
    exact FieldType.sorted_rewrite_iff (hDistinct value rfl) hResult

theorem Field.floatFree_rewrite (hDistinct : ∀ value ∈ found, value.distinctKeys)
    (h : field.rewrite found = some written) :
    (∀ value ∈ written, value.floatFree) ↔ ∀ value ∈ found, value.floatFree := by
  rcases Presence.rewrite_cases h with ⟨-, rfl | rfl, rfl⟩ | ⟨-, rfl | rfl, rfl⟩ |
    ⟨value, result, rfl, -, hResult, rfl⟩
  · simp [Value.floatFree, Value.all, Value.isFloat]
  · simp
  · simp
  · simp [Value.floatFree, Value.all, Value.isFloat]
  · simp [FieldType.floatFree_rewrite (hDistinct value rfl) hResult]

end Field

/-- `written` comes out when `found` is read and written back. -/
structure Rewritten (schema : EventSchema) (found written : Object) : Prop where
  signature : rewriteSignature schema.signature found[signatureField]? =
    some written[signatureField]?
  known : ∀ field ∈ schema.fields, field.rewrite found[field.name]? = some written[field.name]?
  unknown : ∀ name, name ∉ signatureField :: schema.fields.map Field.name →
    written[name]? = found[name]?

section Written

variable {found : Object}

theorem lookup_presentField (name other : String) (value : Option Value) :
    (presentField name value).lookup other = if other = name then value else none := by
  cases value with
  | none => simp [presentField]
  | some value =>
    by_cases hName : other = name
    · simp [presentField, hName]
    · simp [presentField, hName, List.lookup_cons, beq_eq_false_iff_ne.mpr hName]

theorem presentField_sublist (name : String) (value : Option Value) :
    ((presentField name value).map Prod.fst).Sublist [name] := by
  cases value <;> simp [presentField]

theorem rewriteFields_names {fields : List Field} (h : rewriteFields found fields = some known) :
    (known.map Prod.fst).Sublist (fields.map Field.name) := by
  induction fields generalizing known with
  | nil =>
    cases h
    exact List.Sublist.slnil
  | cons field rest ih =>
    simp only [rewriteFields, Option.bind_eq_bind, Option.bind_eq_some_iff, Option.pure_def,
      Option.some.injEq] at h
    obtain ⟨written, -, others, hOthers, rfl⟩ := h
    rw [List.map_append, List.map_cons]
    exact (presentField_sublist field.name written).append (ih hOthers)

theorem lookup_rewriteFields {fields : List Field} (hNodup : (fields.map Field.name).Nodup)
    (h : rewriteFields found fields = some known) :
    ∀ field ∈ fields, field.rewrite found[field.name]? = some (known.lookup field.name) := by
  induction fields generalizing known with
  | nil => exact fun field hField => absurd hField List.not_mem_nil
  | cons first rest ih =>
    simp only [rewriteFields, Option.bind_eq_bind, Option.bind_eq_some_iff, Option.pure_def,
      Option.some.injEq] at h
    obtain ⟨written, hWritten, others, hOthers, rfl⟩ := h
    rw [List.map_cons, List.nodup_cons] at hNodup
    intro field hField
    rw [List.lookup_append, lookup_presentField]
    rcases List.mem_cons.mp hField with rfl | hRest
    · rw [if_pos rfl, Object.lookup_eq_none (rewriteFields_names hOthers).subset hNodup.1,
        Option.or_none, hWritten]
    · have hName : field.name ≠ first.name := by
        rintro hEq
        exact hNodup.1 (hEq ▸ List.mem_map_of_mem hRest)
      rw [if_neg hName, Option.none_or]
      exact ih hNodup.2 hOthers field hRest

theorem rewritten_of_reserialize {schema : EventSchema}
    (h : schema.reserialize content = some value) :
    ∃ found written, content.asObject = some found ∧ value = .ofObject written ∧
      Rewritten schema found written := by
  simp only [EventSchema.reserialize, Option.bind_eq_bind, Option.bind_eq_some_iff,
    Option.pure_def, Option.some.injEq] at h
  obtain ⟨found, hFound, signature, hSignature, known, hKnown, rfl⟩ := h
  have hNames : ((presentField signatureField signature ++ known).map Prod.fst).Sublist
      (signatureField :: schema.fields.map Field.name) := by
    rw [List.map_append]
    exact (presentField_sublist signatureField signature).append (rewriteFields_names hKnown)
  have hDistinct := hNames.nodup schema.names_nodup
  obtain ⟨hFresh, hNodup⟩ := List.nodup_cons.mp schema.names_nodup
  have hUnknown : ∀ name, name ∈ signatureField :: schema.fields.map Field.name →
      (found.unknown (signatureField :: schema.fields.map Field.name))[name]? = none :=
    fun name hName => StringMap.getElem?_eq_none_of_not_mem (Object.unknown_fresh _ _ name hName)
  refine ⟨found, _, hFound, rfl, ⟨?_, ?_, ?_⟩⟩
  · rw [hSignature, Object.flatten_getElem? hDistinct, hUnknown _ List.mem_cons_self,
      Option.or_none, List.lookup_append, lookup_presentField, if_pos rfl,
      Object.lookup_eq_none (rewriteFields_names hKnown).subset hFresh, Option.or_none]
  · intro field hField
    have hMem : field.name ∈ schema.fields.map Field.name := List.mem_map_of_mem hField
    rw [lookup_rewriteFields hNodup hKnown field hField, Object.flatten_getElem? hDistinct,
      hUnknown _ (List.mem_cons_of_mem _ hMem), Option.or_none, List.lookup_append,
      lookup_presentField, if_neg (ne_of_mem_of_not_mem hMem hFresh), Option.none_or]
  · exact fun name hName => Object.flatten_unknown hNames.subset hDistinct hName found

end Written

/-- The content has every optional field that is written when absent, no `null` in one that is not,
and no long stream kind. -/
def EventSchema.keeps (schema : EventSchema) (found : Object) : Bool :=
  schema.fields.all fun field => field.keeps found[field.name]?

namespace Rewritten

variable {schema : EventSchema} {found written : Object}

theorem sorted_iff (h : Rewritten schema found written)
    (hDistinct : ∀ (name : String), ∀ value ∈ found[name]?, value.distinctKeys) :
    (Value.ofObject written.unsigned).sorted = (Value.ofObject found.unsigned).sorted ↔
      schema.keeps found := by
  rw [sorted_ofObject_inj, EventSchema.keeps, List.all_eq_true]
  constructor
  · intro hSame field hField
    have hName : field.name ≠ signatureField :=
      ne_of_mem_of_not_mem (List.mem_map_of_mem hField) (List.nodup_cons.mp schema.names_nodup).1
    have hField' := hSame field.name
    rw [Object.getElem?_unsigned, Object.getElem?_unsigned, if_neg hName, if_neg hName] at hField'
    exact (Field.sorted_rewrite_iff (hDistinct field.name) (h.known field hField)).mp hField'
  · intro hKeeps name
    rw [Object.getElem?_unsigned, Object.getElem?_unsigned]
    split
    · rfl
    · rename_i hName
      by_cases hKnown : name ∈ schema.fields.map Field.name
      · obtain ⟨field, hField, rfl⟩ := List.mem_map.mp hKnown
        exact (Field.sorted_rewrite_iff (hDistinct field.name) (h.known field hField)).mpr
          (hKeeps field hField)
      · rw [h.unknown name (by simp [hName, hKnown])]

theorem floatFree_iff (h : Rewritten schema found written)
    (hDistinct : ∀ (name : String), ∀ value ∈ found[name]?, value.distinctKeys) :
    (Value.ofObject written.unsigned).floatFree = (Value.ofObject found.unsigned).floatFree := by
  rw [Bool.eq_iff_iff, floatFree_ofObject, floatFree_ofObject]
  refine forall_congr' fun name => ?_
  rw [Object.getElem?_unsigned, Object.getElem?_unsigned]
  split
  · rfl
  · rename_i hName
    by_cases hKnown : name ∈ schema.fields.map Field.name
    · obtain ⟨field, hField, rfl⟩ := List.mem_map.mp hKnown
      exact Field.floatFree_rewrite (hDistinct field.name) (h.known field hField)
    · rw [h.unknown name (by simp [hName, hKnown])]

/-- The signed bytes survive exactly when every field is written back as it was, or a float keeps
both contents from being signed. -/
theorem signingBytes_iff (h : Rewritten schema found written)
    (hContent : content.asObject = some found)
    (hDistinct : ∀ (name : String), ∀ value ∈ found[name]?, value.distinctKeys) :
    signingBytes (.ofObject written) = signingBytes content ↔
      (Value.ofObject found.unsigned).floatFree = false ∨ schema.keeps found := by
  have hFloats := h.floatFree_iff hDistinct
  cases hFree : (Value.ofObject found.unsigned).floatFree with
  | false =>
    rw [hFree] at hFloats
    rw [signingBytes_float (Value.asObject_ofObject written) hFloats,
      signingBytes_float hContent hFree]
    simp
  | true =>
    rw [hFree] at hFloats
    rw [signingBytes_eq_iff (Value.asObject_ofObject written) hContent hFloats hFree,
      h.sorted_iff hDistinct]
    simp

section Verify

variable {Key : Type} {crypto : Crypto Key} {key : Key}

theorem signature_iff (h : Rewritten schema found written) (signature : Signature) :
    (written[signatureField]?.bind Signature.fromValue) = some signature ↔
      (found[signatureField]?.bind Signature.fromValue) = some signature := by
  rcases Presence.rewrite_cases h.signature with ⟨-, hFound, hWritten⟩ | ⟨-, hFound, hWritten⟩ |
    ⟨value, result, hFound, -, hResult, hWritten⟩
  · rcases hFound with hFound | hFound <;>
      simp [hFound, hWritten, Signature.fromValue, Value.asObject]
  · rcases hFound with hFound | hFound <;>
      simp [hFound, hWritten, Signature.fromValue, Value.asObject]
  · obtain ⟨parsed, hParsed, rfl⟩ := Option.map_eq_some_iff.mp hResult
    rw [hFound, hWritten, Option.bind_some, Option.bind_some, Signature.fromValue_toValue, hParsed]

theorem verify_iff (h : Rewritten schema found written) (hContent : content.asObject = some found)
    (hBytes : signingBytes (.ofObject written) = signingBytes content) :
    verify crypto key (.ofObject written) = .ok () ↔ verify crypto key content = .ok () := by
  rw [verify_eq_ok_iff, verify_eq_ok_iff, Value.asObject_ofObject, hContent, hBytes]
  constructor
  · rintro ⟨_, signature, bytes, hFields, hSignature, hRest⟩
    cases hFields
    exact ⟨found, signature, bytes, rfl, (h.signature_iff signature).mp hSignature, hRest⟩
  · rintro ⟨_, signature, bytes, hFields, hSignature, hRest⟩
    cases hFields
    exact ⟨written, signature, bytes, rfl, (h.signature_iff signature).mpr hSignature, hRest⟩

end Verify

end Rewritten

/-- A value of the struct a content was deserialized into, kept as what it serializes to. -/
structure EventSchema.Struct (schema : EventSchema) where
  toValue : Value
  parsed : ∃ content, schema.reserialize content = some toValue
  deriving DecidableEq

namespace EventSchema.Struct

variable {schema : EventSchema}

def text (event : schema.Struct) (name : String) : String :=
  ((event.toValue.field? name).bind Value.asString).getD ""

theorem field?_text (event : schema.Struct) {name : String}
    (hField : ⟨name, .text, .required⟩ ∈ schema.fields) :
    event.toValue.field? name = some (.string (event.text name)) := by
  obtain ⟨content, hParsed⟩ := event.parsed
  obtain ⟨found, written, -, hValue, hRewritten⟩ := rewritten_of_reserialize hParsed
  have hLookup : event.toValue.field? name = written[name]? := by
    rw [hValue, Value.field?, Value.asObject_ofObject, Option.bind_some]
  rcases Presence.rewrite_cases (hRewritten.known _ hField) with ⟨hPresence, -⟩ |
    ⟨hPresence, -⟩ | ⟨value, result, -, -, hResult, hWritten⟩
  · cases hPresence
  · cases hPresence
  · obtain ⟨text, -, rfl⟩ := Option.map_eq_some_iff.mp hResult
    rw [EventSchema.Struct.text, hLookup, hWritten]
    rfl

end EventSchema.Struct

end MxAgent.Protocol
