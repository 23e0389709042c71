import MxAgent.Foundations.Fallible
import MxAgent.Protocol.Reserialize

/-! What the signature on a task action binds. The signer and the verifier build
one JSON value from the task id, the action without its authorization and the
authorization's metadata; that value determines all three. -/
namespace MxAgent.System.TaskSignatures

open Std Protocol

section Flatten

variable {known others : List (String × Value)}

theorem getElem?_flatten_empty (hKnown : (known.map Prod.fst).Nodup) (name : String) :
    (Object.flatten known ∅)[name]? = known.lookup name := by
  rw [Object.flatten_getElem? hKnown, ExtTreeMap.getElem?_empty, Option.or_none]

theorem lookup_map_sorted (name : String) :
    (known.map fun field => (field.1, field.2.sorted)).lookup name =
      (known.lookup name).map Value.sorted := by
  induction known with
  | nil => rfl
  | cons field rest ih =>
    rw [List.map_cons, List.lookup_cons, List.lookup_cons, ih]
    cases name == field.1 <;> rfl

theorem sorted_flatten (hKnown : (known.map Prod.fst).Nodup) :
    (Value.ofObject (Object.flatten known ∅)).sorted =
      .ofObject (Object.flatten (known.map fun field => (field.1, field.2.sorted)) ∅) := by
  have hSorted : ((known.map fun field => (field.1, field.2.sorted)).map Prod.fst).Nodup := by
    rwa [List.map_map]
  rw [sorted_ofObject]
  congr 1
  apply ExtTreeMap.ext_getElem?
  intro name
  rw [ExtTreeMap.getElem?_map, getElem?_flatten_empty hKnown, getElem?_flatten_empty hSorted,
    lookup_map_sorted]

/-- Structs that are the same up to key order agree on each field. -/
theorem sorted_field (hKnown : (known.map Prod.fst).Nodup) (hOthers : (others.map Prod.fst).Nodup)
    (h : (Value.ofObject (Object.flatten known ∅)).sorted =
      (Value.ofObject (Object.flatten others ∅)).sorted) (name : String) :
    (known.lookup name).map Value.sorted = (others.lookup name).map Value.sorted := by
  have hName := sorted_ofObject_inj.mp h name
  rwa [getElem?_flatten_empty hKnown, getElem?_flatten_empty hOthers] at hName

theorem floatFree_flatten (hKnown : (known.map Prod.fst).Nodup)
    (h : ∀ field ∈ known, field.2.floatFree) :
    (Value.ofObject (Object.flatten known ∅)).floatFree := by
  rw [floatFree_ofObject]
  intro name value hValue
  rw [getElem?_flatten_empty hKnown, List.lookup_eq_some_iff] at hValue
  obtain ⟨before, after, rfl, -⟩ := hValue
  exact h (name, value) (by simp)

end Flatten

/-- The action with its JSON arguments in key order; two with the same one differ in that order
only. -/
def sortedArgs : TaskAction → TaskAction
  | .tool name args authorization => .tool name args.sorted authorization
  | .exec command cwd env timeoutMs stream authorization =>
    .exec command cwd env timeoutMs stream authorization

def argsFloatFree : TaskAction → Bool
  | .tool _ args _ => args.floatFree
  | .exec .. => true

theorem withoutAuthorization_toValue (action : TaskAction) :
    action.withoutAuthorization.toValue = .ofObject (Object.flatten action.toFields ∅) := by
  cases action <;> rfl

theorem toFields_nodup (action : TaskAction) : (action.toFields.map Prod.fst).Nodup := by
  cases action <;> simp [TaskAction.toFields]

theorem sorted_ofStrings (texts : List String) :
    (Value.ofStrings texts).sorted = Value.ofStrings texts := by
  rw [Value.ofStrings, Value.sorted, Value.sortedItems_eq, List.map_map]
  rfl

theorem ofStrings_injective {first second : List String}
    (h : Value.ofStrings first = Value.ofStrings second) : first = second := by
  have hStrings := congrArg Value.asStrings h
  rwa [Value.asStrings_ofStrings, Value.asStrings_ofStrings, Option.some.injEq] at hStrings

theorem sorted_ofStringMap (map : ExtTreeMap String String) :
    (Value.ofStringMap map).sorted = Value.ofStringMap map := by
  rw [Value.ofStringMap, sorted_ofObject]
  congr 1
  apply ExtTreeMap.ext_getElem?
  intro name
  rw [ExtTreeMap.getElem?_map, ExtTreeMap.getElem?_map, Option.map_map]
  rfl

theorem ofStringMap_injective {first second : ExtTreeMap String String}
    (h : Value.ofStringMap first = Value.ofStringMap second) : first = second := by
  have hMaps := congrArg Value.asStringMap h
  rwa [Value.asStringMap_ofStringMap, Value.asStringMap_ofStringMap, Option.some.injEq] at hMaps

theorem sorted_ofOption_ofNat (n : Option Nat) :
    (Value.ofOption Value.ofNat n).sorted = Value.ofOption Value.ofNat n := by
  cases n <;> rfl

theorem ofOption_ofNat_injective {first second : Option Nat}
    (h : Value.ofOption Value.ofNat first = Value.ofOption Value.ofNat second) :
    first = second := by
  cases first <;> cases second <;> simp_all [Value.ofOption, Value.ofNat]

/-- The value of an action without its authorization determines the action. -/
theorem action_sorted_iff (first second : TaskAction) :
    first.withoutAuthorization.toValue.sorted = second.withoutAuthorization.toValue.sorted ↔
      sortedArgs first.withoutAuthorization = sortedArgs second.withoutAuthorization := by
  rw [withoutAuthorization_toValue, withoutAuthorization_toValue]
  constructor
  · intro h
    have hField := sorted_field (toFields_nodup first) (toFields_nodup second) h
    cases first with
    | tool name args authorization =>
      cases second with
      | tool other others hAuth =>
        have hTool : some (Value.string name) = some (.string other) := hField "tool"
        have hArgs : some args.sorted = some others.sorted := hField "args"
        cases hTool
        rw [TaskAction.withoutAuthorization, TaskAction.withoutAuthorization, sortedArgs,
          sortedArgs, Option.some.inj hArgs]
      | exec =>
        have hType : some (Value.string "tool") = some (.string "exec") := hField "type"
        simp at hType
    | exec command cwd env timeoutMs stream authorization =>
      cases second with
      | tool =>
        have hType : some (Value.string "exec") = some (.string "tool") := hField "type"
        simp at hType
      | exec command' cwd' env' timeoutMs' stream' authorization' =>
        have hCommand := Option.some.inj (hField "command")
        have hCwd : some (Value.string cwd) = some (.string cwd') := hField "cwd"
        have hEnv := Option.some.inj (hField "env")
        have hTimeout := Option.some.inj (hField "timeout_ms")
        have hStream : some (Value.bool stream) = some (.bool stream') := hField "stream"
        rw [sorted_ofStrings, sorted_ofStrings] at hCommand
        rw [sorted_ofStringMap, sorted_ofStringMap] at hEnv
        rw [sorted_ofOption_ofNat, sorted_ofOption_ofNat] at hTimeout
        cases hCwd
        cases hStream
        rw [TaskAction.withoutAuthorization, TaskAction.withoutAuthorization,
          ofStrings_injective hCommand, ofStringMap_injective hEnv,
          ofOption_ofNat_injective hTimeout]
  · intro h
    cases first with
    | tool name args authorization =>
      cases second with
      | tool other others hAuth =>
        simp only [TaskAction.withoutAuthorization, sortedArgs, TaskAction.tool.injEq,
          and_true] at h
        rw [sorted_flatten (toFields_nodup _), sorted_flatten (toFields_nodup _)]
        simp only [TaskAction.toFields, List.map_cons, List.map_nil, h.1, h.2]
      | exec => cases h
    | exec command cwd env timeoutMs stream authorization =>
      cases second with
      | tool => cases h
      | exec command' cwd' env' timeoutMs' stream' authorization' =>
        cases h
        rfl

/-- A task id, an action and an authorization that are signed together. -/
structure SignedAction where
  taskId : String
  action : TaskAction
  auth : TaskActionAuthorization

variable {signed : SignedAction} {action : TaskAction}

namespace SignedAction

def value (signed : SignedAction) : Value :=
  taskActionSigningValue signed.taskId signed.action signed.auth

def Signs (signed : SignedAction) (bytes : ByteArray) : Prop :=
  ∃ text, signed.value.toCanonicalString = .ok text ∧ text.toUTF8 = bytes

/-- Agreement on all but the signature object, the authorization's unknown fields and the action's
own authorization. -/
structure Agrees (first second : SignedAction) : Prop where
  taskId : first.taskId = second.taskId
  action : sortedArgs first.action.withoutAuthorization =
    sortedArgs second.action.withoutAuthorization
  requestingAgent : first.auth.requestingAgent = second.auth.requestingAgent
  targetAgent : first.auth.targetAgent = second.auth.targetAgent
  createdAt : first.auth.createdAt = second.auth.createdAt
  expiresAt : first.auth.expiresAt = second.auth.expiresAt
  nonce : first.auth.nonce = second.auth.nonce

def authFields (auth : TaskActionAuthorization) : List (String × Value) :=
  [("requesting_agent", .string auth.requestingAgent), ("target_agent", .string auth.targetAgent),
    ("created_at", .string auth.createdAt), ("expires_at", .string auth.expiresAt),
    ("nonce", .string auth.nonce)]

def fields (signed : SignedAction) : List (String × Value) :=
  [("task_id", .string signed.taskId), ("action", signed.action.withoutAuthorization.toValue),
    ("authorization", .ofObject (Object.flatten (authFields signed.auth) ∅))]

theorem value_eq (signed : SignedAction) : signed.value =
    .ofObject (Object.flatten signed.fields ∅) :=
  rfl

theorem authFields_nodup (auth : TaskActionAuthorization) :
    ((authFields auth).map Prod.fst).Nodup := by
  simp [authFields]

theorem fields_nodup (signed : SignedAction) : (signed.fields.map Prod.fst).Nodup := by
  simp [fields]

theorem sorted_iff_agrees (first second : SignedAction) :
    first.value.sorted = second.value.sorted ↔ first.Agrees second := by
  rw [value_eq, value_eq]
  constructor
  · intro h
    have hField := sorted_field first.fields_nodup second.fields_nodup h
    have hTask : some (Value.string first.taskId) = some (.string second.taskId) :=
      hField "task_id"
    have hAction := Option.some.inj (hField "action")
    have hAuth := sorted_field (authFields_nodup first.auth) (authFields_nodup second.auth)
      (Option.some.inj (hField "authorization"))
    have hString : ∀ {a b : String}, some (Value.string a) = some (.string b) → a = b := by
      intro a b hEq
      cases hEq
      rfl
    exact ⟨hString hTask, (action_sorted_iff _ _).mp hAction, hString (hAuth "requesting_agent"),
      hString (hAuth "target_agent"), hString (hAuth "created_at"), hString (hAuth "expires_at"),
      hString (hAuth "nonce")⟩
  · intro h
    have hAction := (action_sorted_iff first.action second.action).mpr h.action
    have hAuth : authFields first.auth = authFields second.auth := by
      simp only [authFields, h.requestingAgent, h.targetAgent, h.createdAt, h.expiresAt, h.nonce]
    rw [sorted_flatten first.fields_nodup, sorted_flatten second.fields_nodup]
    simp only [fields, List.map_cons, List.map_nil, h.taskId, hAction, hAuth]

theorem Signs.floatFree {bytes : ByteArray} (h : signed.Signs bytes) : signed.value.floatFree := by
  obtain ⟨text, hText, -⟩ := h
  by_contra hFloat
  rw [toCanonicalString_error (by simpa using hFloat)] at hText
  cases hText

/-- Signed actions have the same bytes when the bound parts agree. -/
theorem Signs.iff_agrees {first second : SignedAction} {bytes : ByteArray} (h : first.Signs bytes) :
    second.Signs bytes ↔ first.Agrees second := by
  rw [← sorted_iff_agrees]
  constructor
  · intro hSecond
    rw [← toCanonicalString_inj h.floatFree hSecond.floatFree]
    obtain ⟨text, hText, hBytes⟩ := h
    obtain ⟨other, hOther, rfl⟩ := hSecond
    rw [String.toUTF8_eq_toByteArray, String.toUTF8_eq_toByteArray,
      String.toByteArray_inj] at hBytes
    rw [hText, hOther, hBytes]
  · intro hSorted
    have hFree : second.value.floatFree := by
      rw [← Value.floatFree_sorted, ← hSorted, Value.floatFree_sorted, h.floatFree]
    obtain ⟨text, hText, hBytes⟩ := h
    refine ⟨text, ?_, hBytes⟩
    rw [toCanonicalString_eq hFree, ← hSorted]
    rwa [toCanonicalString_eq (Signs.floatFree ⟨text, hText, hBytes⟩)] at hText

theorem action_floatFree (h : argsFloatFree action) :
    action.withoutAuthorization.toValue.floatFree := by
  rw [withoutAuthorization_toValue]
  apply floatFree_flatten (toFields_nodup action)
  cases action with
  | tool name args authorization =>
    simp only [TaskAction.toFields, List.forall_mem_cons]
    exact ⟨rfl, rfl, h, fun _ hMem => absurd hMem List.not_mem_nil⟩
  | exec command cwd env timeoutMs stream authorization =>
    simp only [TaskAction.toFields, List.forall_mem_cons]
    refine ⟨rfl, ?_, rfl, Value.floatFree_ofStringMap env, ?_, rfl,
      fun _ hMem => absurd hMem List.not_mem_nil⟩
    · rw [Value.ofStrings, Value.floatFree_array]
      simp [Value.floatFree, Value.all, Value.isFloat]
    · cases timeoutMs <;> rfl

theorem value_floatFree (h : argsFloatFree signed.action) : signed.value.floatFree := by
  rw [value_eq]
  apply floatFree_flatten signed.fields_nodup
  simp only [fields, List.forall_mem_cons]
  refine ⟨rfl, action_floatFree h, floatFree_flatten (authFields_nodup signed.auth) ?_,
    fun _ hMem => absurd hMem List.not_mem_nil⟩
  simp [authFields, Value.floatFree, Value.all, Value.isFloat]

/-- The signer signs the bytes that the verifier checks. -/
theorem signingBytes_eq_ok_iff (signed : SignedAction) (bytes : ByteArray) :
    signingBytes signed.value = .ok bytes ↔ signed.Signs bytes := by
  have hUnsigned : Object.unsigned (Object.flatten signed.fields ∅) =
      Object.flatten signed.fields ∅ := by
    apply ExtTreeMap.ext_getElem?
    intro name
    rw [Object.getElem?_unsigned]
    split
    · rename_i hName
      rw [hName, getElem?_flatten_empty signed.fields_nodup]
      rfl
    · rfl
  rw [Signs, value_eq]
  simp only [signingBytes, Value.asObject_ofObject]
  rw [← Object.unsigned, hUnsigned]
  cases (Value.ofObject (Object.flatten signed.fields ∅)).toCanonicalString with
  | error error => simp
  | ok text => simp

theorem exists_signs (h : argsFloatFree signed.action) : ∃ bytes, signed.Signs bytes :=
  ⟨_, _, toCanonicalString_eq (value_floatFree h), rfl⟩

end SignedAction

section Signatures

variable {Key : Type} {crypto : Crypto Key}

theorem verifyTaskActionSignature_eq_ok_iff {key : Key} (signed : SignedAction) :
    verifyTaskActionSignature crypto key signed.taskId signed.action signed.auth = .ok () ↔
      ∃ bytes, signed.Signs bytes ∧
        verifySignature crypto key signed.auth.signature bytes = .ok () := by
  unfold verifyTaskActionSignature SignedAction.Signs SignedAction.value
  cases taskActionSigningValue signed.taskId signed.action signed.auth |>.toCanonicalString with
  | error error => simp
  | ok text => simp

theorem authorization_withAuthorization (action : TaskAction) (auth : TaskActionAuthorization) :
    (action.withAuthorization auth).authorization = some auth := by
  cases action <;> rfl

theorem withoutAuthorization_withAuthorization (action : TaskAction)
    (auth : TaskActionAuthorization) :
    (action.withAuthorization auth).withoutAuthorization = action.withoutAuthorization := by
  cases action <;> rfl

/-- What signing returns has the given metadata, with a signature over its bytes. -/
theorem signTaskAction_eq_ok_iff (signingKey : SigningKey crypto) (keyId taskId : String)
    (action : TaskAction) (requestingAgent targetAgent createdAt expiresAt nonce : String)
    (auth : TaskActionAuthorization) :
    signTaskAction crypto signingKey keyId taskId action requestingAgent targetAgent createdAt
        expiresAt nonce = .ok auth ↔
      ∃ bytes, SignedAction.Signs ⟨taskId, action, unsignedAuthorization keyId requestingAgent
          targetAgent createdAt expiresAt nonce⟩ bytes ∧
        auth = { unsignedAuthorization keyId requestingAgent targetAgent createdAt expiresAt nonce
          with signature := signingKey.signBytes keyId bytes } := by
  have hValue (bytes : ByteArray) : signingBytes (taskActionSigningValue taskId action
      (unsignedAuthorization keyId requestingAgent targetAgent createdAt expiresAt nonce)) =
        .ok bytes ↔ SignedAction.Signs ⟨taskId, action, unsignedAuthorization keyId requestingAgent
          targetAgent createdAt expiresAt nonce⟩ bytes :=
    SignedAction.signingBytes_eq_ok_iff ⟨_, _, _⟩ bytes
  simp only [signTaskAction, sign, Fallible.bind_eq_ok]
  constructor
  · rintro ⟨signature, ⟨bytes, hBytes, hSignature⟩, hAuth⟩
    cases hSignature
    cases hAuth
    exact ⟨bytes, (hValue bytes).mp hBytes, rfl⟩
  · rintro ⟨bytes, hBytes, rfl⟩
    exact ⟨_, ⟨bytes, (hValue bytes).mpr hBytes, rfl⟩, rfl⟩

/-- Signing succeeds on an action without floats. -/
theorem exists_signTaskAction (signingKey : SigningKey crypto) (keyId taskId : String)
    (h : argsFloatFree action)
    (requestingAgent targetAgent createdAt expiresAt nonce : String) :
    ∃ auth, signTaskAction crypto signingKey keyId taskId action requestingAgent targetAgent
      createdAt expiresAt nonce = .ok auth := by
  obtain ⟨bytes, hBytes⟩ : ∃ bytes, SignedAction.Signs ⟨taskId, action, unsignedAuthorization keyId
    requestingAgent targetAgent createdAt expiresAt nonce⟩ bytes := SignedAction.exists_signs h
  exact ⟨_, (signTaskAction_eq_ok_iff ..).mpr ⟨bytes, hBytes, rfl⟩⟩

/-- An action signed for a task verifies for it with the authorization attached. -/
theorem verify_of_signTaskAction {signingKey : SigningKey crypto} {keyId taskId : String}
    {requestingAgent targetAgent createdAt expiresAt nonce : String}
    {auth : TaskActionAuthorization}
    (h : signTaskAction crypto signingKey keyId taskId action requestingAgent targetAgent createdAt
      expiresAt nonce = .ok auth) :
    auth.targetAgent = targetAgent ∧
      verifyTaskActionSignature crypto signingKey.verifyingKey taskId
        (action.withAuthorization auth) auth = .ok () := by
  obtain ⟨bytes, hBytes, rfl⟩ := (signTaskAction_eq_ok_iff ..).mp h
  refine ⟨rfl, (verifyTaskActionSignature_eq_ok_iff ⟨taskId, _, _⟩).mpr ⟨bytes, ?_, ?_⟩⟩
  · refine hBytes.iff_agrees.mpr ⟨rfl, ?_, rfl, rfl, rfl, rfl, rfl⟩
    exact congrArg sortedArgs (withoutAuthorization_withAuthorization ..).symm
  · exact signBytes_verifies signingKey keyId bytes

end Signatures

/-- An action signed for a task, attached, published and read back verifies for that task; a
verified action was signed by the key up to its signature object and its authorization's unknown
fields; and nothing else is left unbound. -/
theorem task_signature_binds {Key : Type} (crypto : Crypto Key) :
    (∀ (signingKey : SigningKey crypto) (keyId taskId : String) (action : TaskAction)
      (requestingAgent targetAgent createdAt expiresAt nonce : String),
      argsFloatFree action →
      ∃ auth, signTaskAction crypto signingKey keyId taskId action requestingAgent targetAgent
          createdAt expiresAt nonce = .ok auth ∧
        ∃ readBack attached,
          TaskAction.fromValue (action.withAuthorization auth).toValue = some readBack ∧
          readBack.authorization = some attached ∧
          verifyTaskActionSignature crypto signingKey.verifyingKey taskId readBack attached =
            .ok ()) ∧
    (∀ (key : Key) (history : SignedAction → Prop),
      crypto.Unforgeable key (fun bytes => ∃ signed, history signed ∧ signed.Signs bytes) →
      ∀ checked : SignedAction,
        verifyTaskActionSignature crypto key checked.taskId checked.action checked.auth = .ok () →
        ∃ signed, history signed ∧ signed.Agrees checked) ∧
    (∀ (first second : SignedAction) (bytes : ByteArray), first.Signs bytes →
      (second.Signs bytes ↔ first.Agrees second)) := by
  refine ⟨?_, ?_, fun first second bytes h => h.iff_agrees⟩
  · intro signingKey keyId taskId action requestingAgent targetAgent createdAt expiresAt nonce hFree
    obtain ⟨auth, hAuth⟩ := exists_signTaskAction signingKey keyId taskId hFree requestingAgent
      targetAgent createdAt expiresAt nonce
    exact ⟨auth, hAuth, action.withAuthorization auth, auth, TaskAction.fromValue_toValue _,
      authorization_withAuthorization action auth, (verify_of_signTaskAction hAuth).2⟩
  · intro key history hIdeal checked hVerify
    obtain ⟨bytes, hSigns, hSignature⟩ := (verifyTaskActionSignature_eq_ok_iff checked).mp hVerify
    obtain ⟨-, raw, -, hSlice⟩ := verifySignature_eq_ok_iff.mp hSignature
    obtain ⟨signed, hSigned, hBytes⟩ := hIdeal bytes raw hSlice
    exact ⟨signed, hSigned, hBytes.iff_agrees.mp hSigns⟩

theorem sampleAuth_fresh : ∀ name ∈ TaskActionAuthorization.fieldNames, name ∉ (∅ : Object) :=
  fun _ _ => ExtTreeMap.not_mem_empty

def sampleAuth (sig nonce : String) : TaskActionAuthorization where
  requestingAgent := "@planner"
  targetAgent := "@builder"
  createdAt := "2026-06-01T00:00:00Z"
  expiresAt := "2026-06-01T01:00:00Z"
  nonce
  signature := { alg := algEd25519, keyId := "mxagent-ed25519:one", sig }
  extra := ∅
  extra_fresh := sampleAuth_fresh

def sampleSigned (sig : String) : SignedAction where
  taskId := "task_1"
  action := .tool "run_tests" (.object [("suite", .string "unit")]) none
  auth := sampleAuth sig "nonce_1"

/-- Where the key signed one action, it verifies, and a verified one agrees with it. -/
theorem sample_signature_binds :
    ∃ message sig, verifyTaskActionSignature (oneMessage message) () (sampleSigned sig).taskId
        (sampleSigned sig).action (sampleSigned sig).auth = .ok () ∧
      ∃ signed, signed = sampleSigned "" ∧ signed.Agrees (sampleSigned sig) := by
  obtain ⟨message, hSigns⟩ : ∃ bytes, (sampleSigned "").Signs bytes :=
    SignedAction.exists_signs rfl
  obtain ⟨sig, hSig⟩ : ∃ sig, decodeRaw sig = some message :=
    ⟨encodeRaw message, decodeRaw_encodeRaw message⟩
  have hIdeal : (oneMessage message).Unforgeable () fun bytes =>
      ∃ signed, signed = sampleSigned "" ∧ signed.Signs bytes := by
    intro bytes raw hSlice
    have hBytes : bytes = message ∧ raw = message := by simpa [oneMessage] using hSlice
    exact ⟨_, rfl, hBytes.1 ▸ hSigns⟩
  have hRead : (sampleSigned sig).Signs message :=
    hSigns.iff_agrees.mpr ⟨rfl, rfl, rfl, rfl, rfl, rfl, rfl⟩
  have hSignature : verifySignature (oneMessage message) () (sampleSigned sig).auth.signature
      message = .ok () :=
    verifySignature_eq_ok_iff.mpr ⟨rfl, message, hSig, by simp [oneMessage]⟩
  have hVerify := (verifyTaskActionSignature_eq_ok_iff (sampleSigned sig)).mpr
    ⟨message, hRead, hSignature⟩
  exact ⟨message, sig, hVerify,
    (task_signature_binds (oneMessage message)).2.1 () _ hIdeal (sampleSigned sig) hVerify⟩

end MxAgent.System.TaskSignatures
