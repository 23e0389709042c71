import MxAgent.Protocol.Reserialize

/-! Handlers verify a signature over the typed value they have parsed, not over
the content that was received. For every signed event type this says when the
two have the same signed bytes. -/
namespace MxAgent.System.Reserialization

open Std Protocol

variable {name : String}

section Typed

variable {α : Type} {decode : Value → Option α} {encode : α → Value}
  {rewriteValue : Value → Option Value} {found extra : Object} {known : List (String × Value)}
  (hDistinct : (known.map Prod.fst).Nodup)
  (hType : ∀ value, rewriteValue value = (decode value).map encode)

include hType

/-- An optional field is absent, `null`, or a value of its type. -/
theorem rewrite_optional {presence : Presence} (hPresence : presence ≠ .required)
    {item : Option α}
    (h : Object.optional (Value.asOption decode) none found name = some item) :
    presence.rewrite rewriteValue found[name]? =
      (item.map fun result => some (some (encode result))).getD
        (presence.rewrite rewriteValue none) := by
  unfold Object.optional at h
  split at h
  · rename_i hFound
    cases h
    rw [hFound]
    rfl
  · rename_i value hFound
    rw [hFound]
    unfold Value.asOption at h
    split at h
    · cases h
      cases presence <;> first | rfl | exact absurd rfl hPresence
    · rename_i hNull
      obtain ⟨result, hResult, rfl⟩ := Option.map_eq_some_iff.mp h
      rw [Presence.rewrite_some _ hNull, hType, hResult]
      rfl

include hDistinct

theorem rewrite_required {item : α} (h : Object.required decode found name = some item)
    (hLookup : known.lookup name = some (encode item)) :
    Presence.rewrite rewriteValue .required found[name]? =
      some (Object.flatten known extra)[name]? := by
  rw [Object.flatten_getElem? hDistinct, hLookup, Option.some_or]
  obtain ⟨value, hValue, hItem⟩ := Option.bind_eq_some_iff.mp h
  rw [hValue, Presence.rewrite, hType, hItem]
  rfl

variable {item : Option α}
  (h : Object.optional (Value.asOption decode) none found name = some item)

include h

theorem rewrite_nullable (hLookup : known.lookup name = some (Value.ofOption encode item)) :
    Presence.rewrite rewriteValue .nullable found[name]? =
      some (Object.flatten known extra)[name]? := by
  rw [Object.flatten_getElem? hDistinct, hLookup, Option.some_or,
    rewrite_optional hType (by decide) h]
  cases item <;> rfl

theorem rewrite_skipped (hLookup : known.lookup name = item.map encode) (hExtra : name ∉ extra) :
    Presence.rewrite rewriteValue .skipped found[name]? =
      some (Object.flatten known extra)[name]? := by
  rw [Object.flatten_getElem? hDistinct, hLookup, ExtTreeMap.getElem?_eq_none hExtra,
    Option.or_none, rewrite_optional hType (by decide) h]
  cases item <;> rfl

end Typed

section Requests

variable {content : Value}

theorem bind_inv {α β : Type} {first : Option α} {next : α → Option β} {result : β}
    (h : (first >>= next) = some result) : ∃ item, first = some item ∧ next item = some result :=
  Option.bind_eq_some_iff.mp h

theorem execRequest_rewritten {request : ExecRequest}
    (h : ExecRequest.fromValue content = some request) :
    ∃ found written, content.asObject = some found ∧ request.toValue = .ofObject written ∧
      Rewritten ExecRequest.schema found written := by
  unfold ExecRequest.fromValue at h
  obtain ⟨found, hFound, h⟩ := bind_inv h
  obtain ⟨_, hInvocation, h⟩ := bind_inv h
  obtain ⟨_, hRequest, h⟩ := bind_inv h
  obtain ⟨_, hTarget, h⟩ := bind_inv h
  obtain ⟨_, hRequesting, h⟩ := bind_inv h
  obtain ⟨_, hCommand, h⟩ := bind_inv h
  obtain ⟨_, hCwd, h⟩ := bind_inv h
  obtain ⟨_, hEnv, h⟩ := bind_inv h
  obtain ⟨_, hStdin, h⟩ := bind_inv h
  obtain ⟨_, hStream, h⟩ := bind_inv h
  obtain ⟨_, hPty, h⟩ := bind_inv h
  obtain ⟨_, hTimeout, h⟩ := bind_inv h
  obtain ⟨_, hTask, h⟩ := bind_inv h
  obtain ⟨_, hCreated, h⟩ := bind_inv h
  obtain ⟨_, hExpires, h⟩ := bind_inv h
  obtain ⟨_, hNonce, h⟩ := bind_inv h
  obtain ⟨_, hIdempotency, h⟩ := bind_inv h
  obtain ⟨_, hSignature, h⟩ := bind_inv h
  obtain rfl := Option.some.inj h
  have hDistinct := ExecRequest.toFields_nodup
  have hNames : ExecRequest.fieldNames ⊆
      signatureField :: ExecRequest.schema.fields.map Field.name := by decide
  refine ⟨found, _, hFound, rfl, ⟨?_, ?_, fun name hName => ?_⟩⟩
  · exact rewrite_required (hDistinct _) (fun _ => rfl) hSignature rfl
  · simp only [ExecRequest.schema, List.forall_mem_cons, List.not_mem_nil, IsEmpty.forall_iff,
      implies_true, and_true]
    exact ⟨rewrite_required (hDistinct _) (fun _ => rfl) hInvocation rfl,
      rewrite_required (hDistinct _) (fun _ => rfl) hRequest rfl,
      rewrite_required (hDistinct _) (fun _ => rfl) hTarget rfl,
      rewrite_required (hDistinct _) (fun _ => rfl) hRequesting rfl,
      rewrite_required (hDistinct _) (fun _ => rfl) hCommand rfl,
      rewrite_required (hDistinct _) (fun _ => rfl) hCwd rfl,
      rewrite_required (hDistinct _) (fun _ => rfl) hEnv rfl,
      rewrite_required (hDistinct _) (fun _ => rfl) hStdin rfl,
      rewrite_required (hDistinct _) (fun _ => rfl) hStream rfl,
      rewrite_required (hDistinct _) (fun _ => rfl) hPty rfl,
      rewrite_required (hDistinct _) (fun _ => rfl) hTimeout rfl,
      rewrite_nullable (hDistinct _) (fun _ => rfl) hTask rfl,
      rewrite_required (hDistinct _) (fun _ => rfl) hCreated rfl,
      rewrite_required (hDistinct _) (fun _ => rfl) hExpires rfl,
      rewrite_required (hDistinct _) (fun _ => rfl) hNonce rfl,
      rewrite_required (hDistinct _) (fun _ => rfl) hIdempotency rfl⟩
  · exact Object.flatten_unknown (List.Subset.refl _) (hDistinct _)
      (fun hMem => hName (hNames hMem)) found

theorem callRequest_rewritten {request : CallRequest}
    (h : CallRequest.fromValue content = some request) :
    ∃ found written, content.asObject = some found ∧ request.toValue = .ofObject written ∧
      Rewritten CallRequest.schema found written := by
  unfold CallRequest.fromValue at h
  obtain ⟨found, hFound, h⟩ := bind_inv h
  obtain ⟨_, hInvocation, h⟩ := bind_inv h
  obtain ⟨_, hRequest, h⟩ := bind_inv h
  obtain ⟨_, hTool, h⟩ := bind_inv h
  obtain ⟨_, hArgs, h⟩ := bind_inv h
  obtain ⟨_, hCreated, h⟩ := bind_inv h
  obtain ⟨_, hExpires, h⟩ := bind_inv h
  obtain ⟨_, hNonce, h⟩ := bind_inv h
  obtain ⟨_, hSignature, h⟩ := bind_inv h
  obtain ⟨_, hRequesting, h⟩ := bind_inv h
  obtain ⟨_, hTarget, h⟩ := bind_inv h
  obtain rfl := Option.some.inj h
  have hDistinct := CallRequest.toFields_nodup
  have hJson : ∀ value, FieldType.json.rewrite value = (some value).map id := fun _ => rfl
  have hFresh := Object.unknown_fresh CallRequest.fieldNames found
  have hNames : CallRequest.fieldNames ⊆
      signatureField :: CallRequest.schema.fields.map Field.name := by decide
  refine ⟨found, _, hFound, rfl, ⟨?_, ?_, fun name hName => ?_⟩⟩
  · exact rewrite_required (hDistinct _) (fun _ => rfl) hSignature rfl
  · simp only [CallRequest.schema, List.forall_mem_cons, List.not_mem_nil, IsEmpty.forall_iff,
      implies_true, and_true]
    refine ⟨rewrite_required (hDistinct _) (fun _ => rfl) hInvocation rfl,
      rewrite_required (hDistinct _) (fun _ => rfl) hRequest rfl,
      rewrite_required (hDistinct _) (fun _ => rfl) hTool rfl,
      rewrite_required (hDistinct _) hJson hArgs rfl,
      rewrite_required (hDistinct _) (fun _ => rfl) hCreated rfl,
      rewrite_required (hDistinct _) (fun _ => rfl) hExpires rfl,
      rewrite_required (hDistinct _) (fun _ => rfl) hNonce rfl,
      rewrite_skipped (hDistinct _) (fun _ => rfl) hRequesting ?_ (hFresh _ (by decide)),
      rewrite_skipped (hDistinct _) (fun _ => rfl) hTarget ?_ (hFresh _ (by decide))⟩
    · simp [CallRequest.toFields, List.lookup, List.lookup_append, lookup_presentField]
    · simp [CallRequest.toFields, List.lookup, List.lookup_append, lookup_presentField]
  · exact Object.flatten_unknown (CallRequest.toFields_subset _) (hDistinct _)
      (fun hMem => hName (hNames hMem)) found

theorem approvalDecision_rewritten {decision : ApprovalDecision}
    (h : ApprovalDecision.fromValue content = some decision) :
    ∃ found written, content.asObject = some found ∧ decision.toValue = .ofObject written ∧
      Rewritten ApprovalDecision.schema found written := by
  unfold ApprovalDecision.fromValue at h
  obtain ⟨found, hFound, h⟩ := bind_inv h
  obtain ⟨_, hRequest, h⟩ := bind_inv h
  obtain ⟨_, hDecision, h⟩ := bind_inv h
  obtain ⟨_, hApprovedBy, h⟩ := bind_inv h
  obtain ⟨_, hCreated, h⟩ := bind_inv h
  obtain ⟨_, hNonce, h⟩ := bind_inv h
  obtain ⟨_, hExpires, h⟩ := bind_inv h
  obtain ⟨_, hSignature, h⟩ := bind_inv h
  obtain rfl := Option.some.inj h
  have hDistinct := ApprovalDecision.toFields_nodup
  have hFresh := Object.unknown_fresh ApprovalDecision.fieldNames found
  have hNames : ApprovalDecision.fieldNames ⊆
      signatureField :: ApprovalDecision.schema.fields.map Field.name := by decide
  refine ⟨found, _, hFound, rfl, ⟨?_, ?_, fun name hName => ?_⟩⟩
  · refine rewrite_skipped (hDistinct _) (fun _ => rfl) hSignature ?_ (hFresh _ (by decide))
    simp [ApprovalDecision.toFields, List.lookup, List.lookup_append, lookup_presentField,
      signatureField]
  · simp only [ApprovalDecision.schema, List.forall_mem_cons, List.not_mem_nil, IsEmpty.forall_iff,
      implies_true, and_true]
    refine ⟨rewrite_required (hDistinct _) (fun _ => rfl) hRequest rfl,
      rewrite_required (hDistinct _) (fun _ => rfl) hDecision rfl,
      rewrite_required (hDistinct _) (fun _ => rfl) hApprovedBy rfl,
      rewrite_required (hDistinct _) (fun _ => rfl) hCreated rfl,
      rewrite_skipped (hDistinct _) (fun _ => rfl) hNonce ?_ (hFresh _ (by decide)),
      rewrite_skipped (hDistinct _) (fun _ => rfl) hExpires ?_ (hFresh _ (by decide))⟩
    · simp [ApprovalDecision.toFields, List.lookup, List.lookup_append, lookup_presentField]
    · simp [ApprovalDecision.toFields, List.lookup, List.lookup_append, lookup_presentField]
  · exact Object.flatten_unknown (ApprovalDecision.toFields_subset _) (hDistinct _)
      (fun hMem => hName (hNames hMem)) found

end Requests

/-- The events whose signature is checked over the typed value. -/
inductive SignedEvent where
  | execRequest
  | callRequest
  | approvalDecision
  | execAccepted
  | execRejected
  | execFinished
  | execCancelled
  | streamChunk
  | streamArtifact
  | callResponse
  deriving DecidableEq, Repr

namespace SignedEvent

def schema : SignedEvent → EventSchema
  | .execRequest => ExecRequest.schema
  | .callRequest => CallRequest.schema
  | .approvalDecision => ApprovalDecision.schema
  | .execAccepted => Protocol.execAccepted
  | .execRejected => Protocol.execRejected
  | .execFinished => Protocol.execFinished
  | .execCancelled => Protocol.execCancelled
  | .streamChunk => Protocol.streamChunk
  | .streamArtifact => Protocol.streamArtifact
  | .callResponse => Protocol.callResponse

/-- The content deserialized and serialized again, as the signature steps do it in the live
handlers, `verify_approval_decision` and `verify_signed`. -/
def reserialize (event : SignedEvent) (content : Value) : Option Value :=
  match event with
  | .execRequest => (ExecRequest.fromValue content).map ExecRequest.toValue
  | .callRequest => (CallRequest.fromValue content).map CallRequest.toValue
  | .approvalDecision => (ApprovalDecision.fromValue content).map ApprovalDecision.toValue
  | _ => event.schema.reserialize content

/-- Every field is written back as it was, or nothing can be signed. -/
def kept (event : SignedEvent) (content : Value) : Bool :=
  match content.asObject with
  | none => true
  | some found => !(Value.ofObject found.unsigned).floatFree || event.schema.keeps found

theorem reserialize_rewritten {event : SignedEvent} {content written : Value}
    (h : event.reserialize content = some written) :
    ∃ found result, content.asObject = some found ∧ written = .ofObject result ∧
      Rewritten event.schema found result := by
  cases event with
  | execRequest =>
    obtain ⟨request, hRequest, rfl⟩ := Option.map_eq_some_iff.mp h
    exact execRequest_rewritten hRequest
  | callRequest =>
    obtain ⟨request, hRequest, rfl⟩ := Option.map_eq_some_iff.mp h
    exact callRequest_rewritten hRequest
  | approvalDecision =>
    obtain ⟨decision, hDecision, rfl⟩ := Option.map_eq_some_iff.mp h
    exact approvalDecision_rewritten hDecision
  | _ => exact rewritten_of_reserialize h

end SignedEvent

theorem distinctKeys_fields {content : Value} {found : Object}
    (hContent : content.asObject = some found) (hDistinct : content.distinctKeys) :
    ∀ (name : String), ∀ value ∈ found[name]?, value.distinctKeys := by
  intro name value hValue
  apply distinctKeys_field? hDistinct
  rw [Value.field?, hContent]
  exact hValue

/-- Reading a content into its type and writing it back keeps the signed bytes exactly when every
field is written back as it was; then a valid signature stays valid, and one valid for what was
written back was valid for the content. -/
theorem reserialize_keeps_signature (event : SignedEvent) {content written : Value}
    (hDistinct : content.distinctKeys) (h : event.reserialize content = some written) :
    (signingBytes written = signingBytes content ↔ event.kept content) ∧
    (event.kept content → ∀ {Key : Type} (crypto : Crypto Key) (key : Key),
      verify crypto key written = .ok () ↔ verify crypto key content = .ok ()) := by
  obtain ⟨found, result, hContent, rfl, hRewritten⟩ := SignedEvent.reserialize_rewritten h
  have hBytes := hRewritten.signingBytes_iff hContent (distinctKeys_fields hContent hDistinct)
  have hKept : event.kept content ↔
      (Value.ofObject found.unsigned).floatFree = false ∨ event.schema.keeps found := by
    simp [SignedEvent.kept, hContent]
  rw [← hKept] at hBytes
  exact ⟨hBytes, fun hKeeps _ _ _ => hRewritten.verify_iff hContent (hBytes.mpr hKeeps)⟩

/-- A call response; the error field is left out by a caller that has none. -/
def responseContent (error : Option Value) : Value :=
  .object ([("ok", .bool true), ("request_id", .string "req_1"), ("result", .ofNat 7)] ++
    presentField "error" error)

/-- With an explicit `null` error the response is written back as it was. -/
theorem explicit_null_kept :
    ∃ written, SignedEvent.callResponse.reserialize (responseContent (some .null)) = some written ∧
      signingBytes written = signingBytes (responseContent (some .null)) := by
  have h : (SignedEvent.callResponse.reserialize (responseContent (some .null))).isSome := by
    decide +kernel
  obtain ⟨written, hWritten⟩ := Option.isSome_iff_exists.mp h
  exact ⟨written, hWritten, (reserialize_keeps_signature .callResponse (by decide +kernel)
    hWritten).1.mpr (by decide +kernel)⟩

/-- A response signed without an `error` field is valid as sent and invalid once read and written
back. -/
theorem absent_error_invalidates :
    ∃ content written,
      signInto echoKey "mxagent-ed25519:echo" (responseContent none) = .ok content ∧
      content.distinctKeys ∧ SignedEvent.callResponse.reserialize content = some written ∧
      verify echo () content = .ok () ∧ signingBytes written ≠ signingBytes content ∧
      verify echo () written = .error .invalid := by
  have hRun : ((signInto echoKey "mxagent-ed25519:echo" (responseContent none)).toOption.any
      fun content => content.distinctKeys &&
        (SignedEvent.callResponse.reserialize content).any fun written =>
          decide (verify echo () content = .ok ()) &&
          decide (signingBytes written ≠ signingBytes content) &&
          decide (verify echo () written = .error .invalid)) := by
    decide +kernel
  cases hSigned : signInto echoKey "mxagent-ed25519:echo" (responseContent none) with
  | error error =>
    rw [hSigned] at hRun
    cases hRun
  | ok content =>
    cases hWritten : SignedEvent.callResponse.reserialize content with
    | none => simp [hSigned, hWritten, Except.toOption] at hRun
    | some written =>
      simp only [hSigned, Except.toOption, Option.any_some, hWritten, Bool.and_eq_true,
        decide_eq_true_eq] at hRun
      exact ⟨content, written, rfl, hRun.1, hWritten, hRun.2.1.1, hRun.2.1.2, hRun.2.2⟩

end MxAgent.System.Reserialization
