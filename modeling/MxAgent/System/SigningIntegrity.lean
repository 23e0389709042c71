import MxAgent.Protocol.SignedContent

/-! What a signature over a JSON object stands for: the object without its
top-level signature, as a JSON value, and nothing less. -/
namespace MxAgent.System.SigningIntegrity

open Std Protocol

def withoutSignature : Value → Value
  | .object fields => .object (fields.filter fun field => field.1 != signatureField)
  | value => value

/-- Equality of JSON values, which does not look at the order of object keys. -/
def Same (first second : Value) : Prop := first.sorted = second.sorted

instance (first second : Value) : Decidable (Same first second) :=
  inferInstanceAs (Decidable (first.sorted = second.sorted))

structure Signable where
  fields : List (String × Value)
  distinct : (Value.object fields).distinctKeys
  floatFree : (Value.object fields).floatFree

def Signable.value (content : Signable) : Value := .object content.fields

theorem withoutSignature_distinct {value : Value} (h : value.distinctKeys) :
    (withoutSignature value).distinctKeys := by
  cases value with
  | object fields =>
    rw [Value.distinctKeys_object] at h
    rw [withoutSignature, Value.distinctKeys_object]
    exact ⟨h.1.sublist (List.filter_sublist.map Prod.fst),
      fun field hField => h.2 field (List.mem_of_mem_filter hField)⟩
  | _ => exact h

/-- Deleting the signature from the entries is deleting it from the map. -/
theorem ofList_withoutSignature {fields : List (String × Value)}
    (h : (fields.map Prod.fst).Nodup) :
    (ExtTreeMap.ofList (fields.filter fun field => field.1 != signatureField) : Object) =
      Object.unsigned (.ofList fields) := by
  have hKept : ((fields.filter fun field => field.1 != signatureField).map Prod.fst).Nodup :=
    h.sublist (List.filter_sublist.map Prod.fst)
  apply ExtTreeMap.ext_getElem?
  intro name
  apply Option.ext
  intro value
  rw [StringMap.getElem?_ofList_iff hKept, Object.getElem?_unsigned, List.mem_filter]
  by_cases hName : name = signatureField
  · simp [hName]
  · rw [if_neg hName, StringMap.getElem?_ofList_iff h]
    simp [hName]

theorem sorted_withoutSignature {fields : List (String × Value)}
    (h : (fields.map Prod.fst).Nodup) :
    (withoutSignature (.object fields)).sorted =
      (Value.ofObject (Object.unsigned (.ofList fields))).sorted := by
  rw [withoutSignature, sorted_object (h.sublist (List.filter_sublist.map Prod.fst)),
    ofList_withoutSignature h]

/-- Below a field other than the signature, nothing is deleted. -/
theorem at?_withoutSignature {value : Value} (h : value.distinctKeys) {name : String}
    (hName : name ≠ signatureField) (path : List String) :
    (withoutSignature value).at? (name :: path) = value.at? (name :: path) := by
  have hField : (withoutSignature value).field? name = value.field? name := by
    cases value with
    | object fields =>
      rw [withoutSignature, Value.field?, Value.asObject, Option.bind_some,
        ofList_withoutSignature (Value.distinctKeys_object.mp h).1, Object.getElem?_unsigned,
        if_neg hName]
      rfl
    | _ => rfl
  rw [Value.at?, Value.at?, hField]

theorem unsigned_floatFree {fields : Object} (h : (Value.ofObject fields).floatFree) :
    (Value.ofObject fields.unsigned).floatFree := by
  rw [floatFree_ofObject] at h ⊢
  intro name value hValue
  rw [Object.getElem?_unsigned] at hValue
  split at hValue
  · cases hValue
  · exact h name value hValue

namespace Signable

variable (content : Signable)

theorem nodup : (content.fields.map Prod.fst).Nodup :=
  (Value.distinctKeys_object.mp content.distinct).1

theorem unsignedFree : (Value.ofObject (Object.unsigned (.ofList content.fields))).floatFree := by
  apply unsigned_floatFree
  rw [floatFree_ofObject]
  intro name value hValue
  exact Value.floatFree_object.mp content.floatFree (name, value)
    ((StringMap.getElem?_ofList_iff content.nodup).mp hValue)

theorem signingBytes_exists : ∃ bytes, signingBytes content.value = .ok bytes :=
  ⟨_, signingBytes_ok rfl content.unsignedFree⟩

end Signable

theorem signingBytes_eq_iff_same (first second : Signable) :
    signingBytes first.value = signingBytes second.value ↔
      Same (withoutSignature first.value) (withoutSignature second.value) := by
  rw [signingBytes_eq_iff rfl rfl first.unsignedFree second.unsignedFree, Same,
    Signable.value, Signable.value, sorted_withoutSignature first.nodup,
    sorted_withoutSignature second.nodup]

/-- A content with the signed bytes is the object up to its signature. -/
theorem same_of_signingBytes {content : Signable} {changed : Value} {bytes : ByteArray}
    (hDistinct : changed.distinctKeys) (hBytes : signingBytes content.value = .ok bytes)
    (hChanged : signingBytes changed = .ok bytes) :
    Same (withoutSignature changed) (withoutSignature content.value) := by
  cases changed with
  | object fields =>
    have hNodup := (Value.distinctKeys_object.mp hDistinct).1
    have hFree : (Value.ofObject (Object.unsigned (.ofList fields))).floatFree := by
      by_contra hFloat
      rw [signingBytes_float rfl (by simpa using hFloat)] at hChanged
      cases hChanged
    have hIff : signingBytes (.object fields) = signingBytes content.value ↔ _ :=
      signingBytes_eq_iff rfl rfl hFree content.unsignedFree
    rw [Same, sorted_withoutSignature hNodup, Signable.value,
      sorted_withoutSignature content.nodup, ← hIff, hBytes, hChanged]
  | _ => cases hChanged

/-- A content the key never signed in this form is not accepted. -/
theorem verify_error_of_not_same {Key : Type} {crypto : Crypto Key} {key : Key}
    {content : Signable} {changed : Value}
    (hIdeal : crypto.Unforgeable key fun bytes => signingBytes content.value = .ok bytes)
    (hDistinct : changed.distinctKeys)
    (hChange : ¬ Same (withoutSignature changed) (withoutSignature content.value)) :
    ∃ error, verify crypto key changed = .error error := by
  cases hVerify : verify crypto key changed with
  | error error => exact ⟨error, rfl⟩
  | ok accepted =>
    obtain ⟨bytes, hBytes, hSigned⟩ := signed_of_verify hIdeal hVerify
    exact absurd (same_of_signingBytes hDistinct hSigned hBytes) hChange

/-- The signed bytes of a float-free object stand for the object without its top-level signature;
what `sign_into` makes verifies, whatever the object carried before; and when the key signed only
this content, no other verifies, in particular none that differs below another field than the
top-level signature. -/
theorem signature_stands_for_content {Key : Type} (crypto : Crypto Key) :
    (∀ first second : Signable,
      signingBytes first.value = signingBytes second.value ↔
        Same (withoutSignature first.value) (withoutSignature second.value)) ∧
    (∀ (signingKey : SigningKey crypto) (keyId : String) (content : Signable),
      ∃ signed, signInto signingKey keyId content.value = .ok signed ∧
        verify crypto signingKey.verifyingKey signed = .ok () ∧
        ∀ (nextKey : SigningKey crypto) (nextId : String),
          ∃ again, signInto nextKey nextId signed = .ok again ∧
            verify crypto nextKey.verifyingKey again = .ok ()) ∧
    (∀ (key : Key) (content : Signable),
      crypto.Unforgeable key (fun bytes => signingBytes content.value = .ok bytes) →
      ∀ changed : Value, changed.distinctKeys →
        (¬ Same (withoutSignature changed) (withoutSignature content.value) →
          ∃ error, verify crypto key changed = .error error) ∧
        ∀ name path, name ≠ signatureField →
          (changed.at? (name :: path)).map Value.sorted ≠
            (content.value.at? (name :: path)).map Value.sorted →
          ∃ error, verify crypto key changed = .error error) := by
  refine ⟨signingBytes_eq_iff_same, ?_, ?_⟩
  · intro signingKey keyId content
    obtain ⟨bytes, hBytes⟩ := content.signingBytes_exists
    obtain ⟨signed, hSigned, hSame, hVerify⟩ := signInto_verifies signingKey keyId hBytes
    refine ⟨signed, hSigned, hVerify, fun nextKey nextId => ?_⟩
    obtain ⟨again, hAgain, -, hNext⟩ := signInto_verifies nextKey nextId hSame
    exact ⟨again, hAgain, hNext⟩
  · intro key content hIdeal changed hDistinct
    refine ⟨verify_error_of_not_same hIdeal hDistinct, fun name path hName hPath => ?_⟩
    apply verify_error_of_not_same hIdeal hDistinct
    intro hSame
    have hContent : content.value.distinctKeys := content.distinct
    apply hPath
    rw [← at?_withoutSignature hDistinct hName, ← at?_withoutSignature hContent hName]
    exact sorted_at? (name :: path) (withoutSignature_distinct hDistinct)
      (withoutSignature_distinct hContent) hSame

def nestedContent (nested : String) : Value :=
  .object [("payload", .object [("signature", .string nested)])]

/-- The content with a signature over it. -/
def nestedSignable (nested sig : String) : Signable where
  fields := [("payload", .object [("signature", .string nested)]),
    ("signature", .array [.string algEd25519, .string "mxagent-ed25519:one", .string sig])]
  distinct := rfl
  floatFree := rfl

/-- Under the content's signature a changed nested one is noticed. -/
theorem nested_signature_covered :
    ∃ message sig error, verify (oneMessage message) () (nestedSignable "a" sig).value = .ok () ∧
      verify (oneMessage message) () (nestedSignable "b" sig).value = .error error := by
  obtain ⟨message, hMessage⟩ := (nestedSignable "a" "").signingBytes_exists
  have hSigned : signingBytes (nestedSignable "a" (encodeRaw message)).value = .ok message := by
    rw [← hMessage]
    exact (signingBytes_eq_iff_same _ _).mpr rfl
  have hIdeal : (oneMessage message).Unforgeable () fun bytes =>
      signingBytes (nestedSignable "a" (encodeRaw message)).value = .ok bytes := by
    intro bytes raw hSlice
    have hBytes : bytes = message ∧ raw = message := by simpa [oneMessage] using hSlice
    rw [hBytes.1]
    exact hSigned
  have hAt (nested sig : String) : (nestedSignable nested sig).value.at? ["payload", "signature"] =
      (nestedContent nested).at? ["payload", "signature"] :=
    (at?_withoutSignature (nestedSignable nested sig).distinct (by decide) _).symm
  obtain ⟨error, hError⟩ := ((signature_stands_for_content (oneMessage message)).2.2 ()
    (nestedSignable "a" (encodeRaw message)) hIdeal (nestedSignable "b" (encodeRaw message)).value
    (nestedSignable "b" _).distinct).2 "payload" ["signature"] (by decide)
    (by rw [hAt, hAt]; decide +kernel)
  refine ⟨message, encodeRaw message, error, ?_, hError⟩
  have hField : (ExtTreeMap.ofList (nestedSignable "a" (encodeRaw message)).fields :
      Object)[signatureField]? = some (.array [.string algEd25519, .string "mxagent-ed25519:one",
        .string (encodeRaw message)]) :=
    (StringMap.getElem?_ofList_iff (nestedSignable "a" _).nodup).mpr
      (List.mem_cons_of_mem _ List.mem_cons_self)
  exact verify_eq_ok_iff.mpr ⟨_, ⟨algEd25519, "mxagent-ed25519:one", encodeRaw message⟩, message,
    rfl, congrArg (Option.bind · Signature.fromValue) hField, hSigned,
    verifySignature_eq_ok_iff.mpr ⟨rfl, message, decodeRaw_encodeRaw _, by simp [oneMessage]⟩⟩

end MxAgent.System.SigningIntegrity
