import Mathlib
import MxAgent.Protocol.CanonicalJson
import MxAgent.Protocol.Signing

/-! What the signed bytes of a content determine, and which contents verify.
Two contents have the same signed bytes when every field but the signature has
the same value in both; `verify` then depends only on those bytes and on the
signature field. -/
namespace MxAgent.Protocol

open Std

def Object.unsigned (fields : Object) : Object := fields.erase signatureField

theorem Object.getElem?_unsigned (fields : Object) (name : String) :
    fields.unsigned[name]? = if name = signatureField then none else fields[name]? := by
  rw [Object.unsigned, ExtTreeMap.getElem?_erase]
  by_cases hName : name = signatureField
  · subst hName
    simp
  · rw [if_neg hName, if_neg fun hEq => hName (LawfulEqCmp.eq_of_compare hEq).symm]

theorem Object.unsigned_insert (fields : Object) (value : Value) :
    Object.unsigned (fields.insert signatureField value) = fields.unsigned := by
  apply ExtTreeMap.ext_getElem?
  intro name
  rw [getElem?_unsigned, getElem?_unsigned]
  split
  · rfl
  · rename_i hName
    rw [ExtTreeMap.getElem?_insert, if_neg fun hEq => hName (LawfulEqCmp.eq_of_compare hEq).symm]

section Bytes

variable {content other : Value} {fields others : Object}

theorem signingBytes_ok (h : content.asObject = some fields)
    (hFree : (Value.ofObject fields.unsigned).floatFree) :
    signingBytes content =
      .ok (String.ofList (Value.ofObject fields.unsigned).sorted.text).toUTF8 := by
  simp only [signingBytes, h]
  rw [← Object.unsigned, toCanonicalString_eq hFree]

theorem signingBytes_float (h : content.asObject = some fields)
    (hFloat : (Value.ofObject fields.unsigned).floatFree = false) :
    signingBytes content = .error (.nonCanonical .nonIntegerNumber) := by
  simp only [signingBytes, h]
  rw [← Object.unsigned, toCanonicalString_error hFloat]

/-- The signed bytes are those of the unsigned fields alone. -/
theorem signingBytes_congr (h : content.asObject = some fields)
    (hOther : other.asObject = some others)
    (hSame : fields.unsigned = others.unsigned) : signingBytes content = signingBytes other := by
  simp only [signingBytes, h, hOther]
  rw [← Object.unsigned, hSame, ← Object.unsigned]

/-- Signed bytes agree exactly when every field but the signature agrees. -/
theorem signingBytes_eq_iff (h : content.asObject = some fields)
    (hOther : other.asObject = some others)
    (hFree : (Value.ofObject fields.unsigned).floatFree)
    (hOtherFree : (Value.ofObject others.unsigned).floatFree) :
    signingBytes content = signingBytes other ↔
      (Value.ofObject fields.unsigned).sorted = (Value.ofObject others.unsigned).sorted := by
  rw [← toCanonicalString_inj hFree hOtherFree, signingBytes_ok h hFree,
    signingBytes_ok hOther hOtherFree, toCanonicalString_eq hFree, toCanonicalString_eq hOtherFree,
    Except.ok.injEq, Except.ok.injEq, String.toUTF8_eq_toByteArray, String.toUTF8_eq_toByteArray,
    String.toByteArray_inj]

end Bytes

variable {bytes : ByteArray} {content : Value}

section Verify

variable {Key : Type} {crypto : Crypto Key} {key : Key}

theorem verifySignature_eq_ok_iff {signature : Signature} :
    verifySignature crypto key signature bytes = .ok () ↔
      signature.alg = algEd25519 ∧ ∃ raw, decodeRaw signature.sig = some raw ∧
        crypto.verifySlice key bytes raw = some true := by
  unfold verifySignature
  by_cases hAlg : signature.alg = algEd25519
  · rw [if_neg (not_not_intro hAlg)]
    cases hRaw : decodeRaw signature.sig with
    | none => simp
    | some raw =>
      rcases hSlice : crypto.verifySlice key bytes raw with _ | (_ | _) <;> simp [hAlg, hSlice]
  · rw [if_pos hAlg]
    simp [hAlg]

/-- A content verifies when it is an object whose signature field signs its signed bytes. -/
theorem verify_eq_ok_iff :
    verify crypto key content = .ok () ↔
      ∃ fields signature bytes, content.asObject = some fields ∧
        fields[signatureField]?.bind Signature.fromValue = some signature ∧
        signingBytes content = .ok bytes ∧
        verifySignature crypto key signature bytes = .ok () := by
  unfold verify
  cases hFields : content.asObject with
  | none => simp [Bind.bind, Except.bind]
  | some fields =>
    cases hValue : fields[signatureField]? with
    | none => simp [Bind.bind, Except.bind, hValue]
    | some value =>
      cases hSignature : Signature.fromValue value with
      | none => simp [Bind.bind, Except.bind, hValue, hSignature]
      | some signature =>
        cases hBytes : signingBytes content <;>
          simp [Bind.bind, Except.bind, hValue, hSignature]

/-- With ideal signatures, what verifies was signed. -/
theorem signed_of_verify {signed : ByteArray → Prop} (hIdeal : crypto.Unforgeable key signed)
    (h : verify crypto key content = .ok ()) :
    ∃ bytes, signingBytes content = .ok bytes ∧ signed bytes := by
  obtain ⟨_, signature, bytes, -, -, hBytes, hSignature⟩ := verify_eq_ok_iff.mp h
  obtain ⟨-, raw, -, hSlice⟩ := verifySignature_eq_ok_iff.mp hSignature
  exact ⟨bytes, hBytes, hIdeal bytes raw hSlice⟩

variable (signingKey : SigningKey crypto) (keyId : String)

theorem signBytes_verifies (bytes : ByteArray) :
    verifySignature crypto signingKey.verifyingKey (signingKey.signBytes keyId bytes) bytes =
      .ok () :=
  verifySignature_eq_ok_iff.mpr
    ⟨rfl, _, decodeRaw_encodeRaw _, signingKey.sign_verifies bytes⟩

theorem signInto_eq {fields : Object} (h : content.asObject = some fields)
    (hBytes : signingBytes content = .ok bytes) :
    signInto signingKey keyId content =
      .ok (.ofObject (fields.insert signatureField
        (signingKey.signBytes keyId bytes).toValue)) := by
  rw [signInto, sign, hBytes, h]
  rfl

/-- Signing gives a content that verifies, with the same signed bytes. -/
theorem signInto_verifies (hBytes : signingBytes content = .ok bytes) :
    ∃ signed, signInto signingKey keyId content = .ok signed ∧
      signingBytes signed = .ok bytes ∧
      verify crypto signingKey.verifyingKey signed = .ok () := by
  obtain ⟨fields, hFields⟩ : ∃ fields, content.asObject = some fields := by
    cases h : content.asObject with
    | none =>
      simp only [signingBytes, h] at hBytes
      cases hBytes
    | some fields => exact ⟨fields, rfl⟩
  refine ⟨_, signInto_eq signingKey keyId hFields hBytes, ?_⟩
  have hSigned : signingBytes (.ofObject
      (fields.insert signatureField (signingKey.signBytes keyId bytes).toValue)) = .ok bytes := by
    rw [← hBytes]
    exact signingBytes_congr (Value.asObject_ofObject _) hFields (Object.unsigned_insert _ _)
  refine ⟨hSigned, verify_eq_ok_iff.mpr ⟨_, _, bytes, Value.asObject_ofObject _, ?_, hSigned,
    signBytes_verifies signingKey keyId bytes⟩⟩
  rw [ExtTreeMap.getElem?_insert_self, Option.bind_some, Signature.fromValue_toValue]

end Verify

section Schemes

def echo : Crypto Unit where
  verifySlice _ bytes raw := some (decide (bytes = raw))
  decodeVerifyingKey _ := some ()
  keyIdForVerifyingKey _ := "mxagent-ed25519:echo"

def echoKey : SigningKey echo where
  verifyingKey := ()
  sign bytes := bytes
  sign_verifies bytes := by simp [echo]

/-- A scheme with one key, under which one message signs itself. -/
def oneMessage (message : ByteArray) : Crypto Unit where
  verifySlice _ bytes raw := some (decide (bytes = message ∧ raw = message))
  decodeVerifyingKey _ := some ()
  keyIdForVerifyingKey _ := "mxagent-ed25519:one"

end Schemes

end MxAgent.Protocol
