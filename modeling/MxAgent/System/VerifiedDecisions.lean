import MxAgent.Daemon.Approval
import MxAgent.Protocol.SignedContent

/-! The decisions that a scan of a room lets through. Room members can put any
events into the scan; what comes out is decided by the events that pass
verification alone. -/
namespace MxAgent.System.VerifiedDecisions

open Std Protocol Daemon

def approvalDecisionType : String := "com.mxagent.approval.decision.v1"

/-- A timeline event as the scan reads it: what is no decision is skipped, and a sender that cannot
be read is empty. -/
def decisionEvent (raw : Value) : Option DecisionEvent :=
  if (raw.field? "type").bind Value.asString = some approvalDecisionType then
    ((raw.field? "content").bind ApprovalDecision.fromValue).map fun decision =>
      (((raw.field? "sender").bind Value.asString).getD "", decision)
  else none

variable {Key : Type} (crypto : Crypto Key) (ctx : DecisionVerification Key)

/-- `read_verified_approval_decisions` over the scanned events, newest first. -/
def scanDecisions (events : List Value) : ExtTreeMap String ApprovalDecision :=
  readVerifiedApprovalDecisions crypto ctx (events.filterMap decisionEvent)

/-- The decision of an event, if it passes `verification_failure`. -/
def verifiedDecision (raw : Value) : Option ApprovalDecision :=
  (decisionEvent raw).bind fun event =>
    if (verificationFailure crypto event.2 event.1 ctx).isSome then none else some event.2

variable {crypto ctx}

variable {decision : ApprovalDecision} {sender : String}

theorem verifiedDecision_eq_some_iff {raw : Value} :
    verifiedDecision crypto ctx raw = some decision ↔
      ∃ sender, decisionEvent raw = some (sender, decision) ∧
        verificationFailure crypto decision sender ctx = none := by
  unfold verifiedDecision
  cases hEvent : decisionEvent raw with
  | none => simp
  | some event =>
    obtain ⟨sender, found⟩ := event
    cases hFailure : verificationFailure crypto found sender ctx with
    | none =>
      simp only [Option.bind_some, hFailure, Option.isSome_none, Bool.false_eq_true, if_false,
        Option.some.injEq, Prod.mk.injEq]
      exact ⟨fun hEq => ⟨sender, ⟨rfl, hEq⟩, hEq ▸ hFailure⟩, fun ⟨_, hEq, _⟩ => hEq.2⟩
    | some failure =>
      simp only [Option.bind_some, hFailure, Option.isSome_some, if_true, reduceCtorEq,
        Option.some.injEq, Prod.mk.injEq, false_iff]
      rintro ⟨_, ⟨rfl, rfl⟩, hNone⟩
      rw [hFailure] at hNone
      cases hNone

/-- The scan returns the newest verified decision under each id. -/
theorem getElem?_scanDecisions (events : List Value) (requestId : String) :
    (scanDecisions crypto ctx events)[requestId]? =
      (events.filterMap (verifiedDecision crypto ctx)).find?
        fun decision => decision.requestId == requestId := by
  rw [scanDecisions, getElem?_readVerifiedApprovalDecisions]
  induction events with
  | nil => rfl
  | cons raw rest ih =>
    rw [List.filterMap_cons, List.filterMap_cons]
    cases hEvent : decisionEvent raw with
    | none =>
      have hNone : verifiedDecision crypto ctx raw = none := by
        rw [verifiedDecision, hEvent, Option.bind_none]
      rw [hNone]
      exact ih
    | some event =>
      cases hFailure : verificationFailure crypto event.2 event.1 ctx with
      | some failure =>
        have hNone : verifiedDecision crypto ctx raw = none := by
          rw [verifiedDecision, hEvent, Option.bind_some, hFailure]
          rfl
        rw [hNone, List.find?_cons_of_neg (by simp [decides, hFailure])]
        exact ih
      | none =>
        have hSome : verifiedDecision crypto ctx raw = some event.2 := by
          rw [verifiedDecision, hEvent, Option.bind_some, hFailure]
          rfl
        rw [hSome, List.find?_cons, List.find?_cons, ← ih]
        simp only [decides, hFailure, Option.isNone_none, Bool.and_true]
        cases event.2.requestId == requestId <;> rfl

/-- An entry is the first verified decision under its id. -/
theorem scanDecisions_eq_some_iff {events : List Value} {requestId : String} :
    (scanDecisions crypto ctx events)[requestId]? = some decision ↔
      ∃ newer raw older, events = newer ++ raw :: older ∧
        verifiedDecision crypto ctx raw = some decision ∧ decision.requestId = requestId ∧
        ∀ other ∈ newer, ∀ earlier, verifiedDecision crypto ctx other = some earlier →
          earlier.requestId ≠ requestId := by
  rw [getElem?_scanDecisions, List.find?_filterMap, Option.bind_eq_some_iff]
  simp only [List.find?_eq_some_iff_append]
  constructor
  · rintro ⟨raw, ⟨hMatch, newer, older, rfl, hNewer⟩, hVerified⟩
    refine ⟨newer, raw, older, rfl, hVerified, by simpa [hVerified] using hMatch, ?_⟩
    intro other hOther earlier hEarlier hId
    simpa [hEarlier, hId] using hNewer other hOther
  · rintro ⟨newer, raw, older, rfl, hVerified, hId, hNewer⟩
    refine ⟨raw, ⟨by simp [hVerified, hId], newer, older, rfl, fun other hOther => ?_⟩, hVerified⟩
    cases hEarlier : verifiedDecision crypto ctx other with
    | none => rfl
    | some earlier => simpa using hNewer other hOther earlier hEarlier

theorem mem_scanDecisions_iff {events : List Value} {requestId : String} :
    requestId ∈ scanDecisions crypto ctx events ↔
      ∃ raw ∈ events, ∃ decision, verifiedDecision crypto ctx raw = some decision ∧
        decision.requestId = requestId := by
  rw [← ExtTreeMap.isSome_getElem?_iff_mem, getElem?_scanDecisions, List.find?_isSome]
  simp only [List.mem_filterMap, beq_iff_eq]
  constructor
  · rintro ⟨decision, ⟨raw, hRaw, hVerified⟩, hId⟩
    exact ⟨raw, hRaw, decision, hVerified, hId⟩
  · rintro ⟨raw, hRaw, decision, hVerified, hId⟩
    exact ⟨decision, ⟨raw, hRaw, hVerified⟩, hId⟩

theorem filterMap_verified (events : List Value) :
    (events.filter fun raw => (verifiedDecision crypto ctx raw).isSome).filterMap
      (verifiedDecision crypto ctx) = events.filterMap (verifiedDecision crypto ctx) := by
  rw [List.filterMap_filter]
  congr 1
  funext raw
  cases verifiedDecision crypto ctx raw <;> rfl

structure Vouched (crypto : Crypto Key) (ctx : DecisionVerification Key) (sender : String)
    (decision : ApprovalDecision) : Prop where
  sender_known : sender ≠ "" ∧ (sender = ctx.localUser ∨ sender ∈ ctx.approvers)
  nonce : decision.nonce.isSome
  expiry : ∃ expiresAt expiry, decision.expiresAt = some expiresAt ∧
    parseRfc3339ToUnix expiresAt = some expiry ∧ ctx.nowUnix < expiry
  signed : ∃ signature key, decision.signature = some signature ∧
    ctx.verifyingKeys[signature.keyId]? = some key ∧
    ctx.trust.isKeyTrusted signature.keyId ∧
    verifyApprovalDecision crypto key decision = .ok ()

theorem vouched_of_verificationFailure (h : verificationFailure crypto decision sender ctx = none) :
    Vouched crypto ctx sender decision := by
  unfold verificationFailure at h
  split at h
  · cases h
  rename_i hSender
  split at h
  · cases h
  rename_i signature hSignature
  split at h
  · cases h
  rename_i key hKey
  split at h
  · cases h
  rename_i hTrusted
  split at h
  · cases h
  rename_i hVerify
  split at h
  case h_2 => cases h
  rename_i nonce expiresAt hNonce hExpires
  split at h
  · cases h
  rename_i expiry hExpiry
  split at h
  · cases h
  rename_i hLate
  have hOk : verifyApprovalDecision crypto key decision = .ok () := by
    cases hResult : verifyApprovalDecision crypto key decision with
    | error error => simp [hResult, Except.isOk, Except.toBool] at hVerify
    | ok _ => rfl
  rw [not_or, not_and_or, not_not, not_not] at hSender
  exact
    { sender_known := hSender
      nonce := by rw [hNonce, Option.isSome_some]
      expiry := ⟨expiresAt, expiry, hExpires, hExpiry, by omega⟩
      signed := ⟨signature, key, hSignature, hKey, by simpa using hTrusted, hOk⟩ }

theorem verificationFailure_eq_none_iff :
    verificationFailure crypto decision sender ctx = none ↔ Vouched crypto ctx sender decision := by
  refine ⟨vouched_of_verificationFailure, fun h => ?_⟩
  obtain ⟨signature, key, hSignature, hKey, hTrusted, hVerify⟩ := h.signed
  obtain ⟨expiresAt, expiry, hExpires, hExpiry, hLater⟩ := h.expiry
  obtain ⟨nonce, hNonce⟩ := Option.isSome_iff_exists.mp h.nonce
  have hSender : ¬ (sender = "" ∨ (sender ≠ ctx.localUser ∧ sender ∉ ctx.approvers)) := by
    rw [not_or, not_and_or, not_not, not_not]
    exact h.sender_known
  simp [verificationFailure, hSender, hSignature, hKey, hTrusted, hVerify, hNonce, hExpires,
    hExpiry, hLater, Except.isOk, Except.toBool]

/-- With ideal signatures, a vouched decision was signed by its key. -/
theorem Vouched.bytes_signed (h : Vouched crypto ctx sender decision) :
    ∃ signature key, decision.signature = some signature ∧
      ctx.verifyingKeys[signature.keyId]? = some key ∧
      ctx.trust.isKeyTrusted signature.keyId ∧
      ∀ signed, crypto.Unforgeable key signed →
        ∃ bytes, signingBytes decision.toValue = .ok bytes ∧ signed bytes := by
  obtain ⟨signature, key, hSignature, hKey, hTrusted, hVerify⟩ := h.signed
  refine ⟨signature, key, hSignature, hKey, hTrusted, fun signed hIdeal => ?_⟩
  obtain ⟨_, _, bytes, -, -, hBytes, hOk⟩ := verify_eq_ok_iff.mp hVerify
  obtain ⟨-, raw, -, hSlice⟩ := verifySignature_eq_ok_iff.mp hOk
  exact ⟨bytes, hBytes, hIdeal bytes raw hSlice⟩

/-- For every scan and verification context, the decisions read are the newest that pass, one per
request id; passing takes an authorized sender, replay material that is still good and a valid
signature of a trusted key; and other events can be added, removed and moved without changing what
is read. -/
theorem scan_reads_newest_verified {Key : Type} (crypto : Crypto Key)
    (ctx : DecisionVerification Key) (events : List Value) :
    (∀ requestId decision, (scanDecisions crypto ctx events)[requestId]? = some decision ↔
      ∃ newer raw older, events = newer ++ raw :: older ∧
        verifiedDecision crypto ctx raw = some decision ∧ decision.requestId = requestId ∧
        ∀ other ∈ newer, ∀ earlier, verifiedDecision crypto ctx other = some earlier →
          earlier.requestId ≠ requestId) ∧
    (∀ requestId, requestId ∈ scanDecisions crypto ctx events ↔
      ∃ raw ∈ events, ∃ decision, verifiedDecision crypto ctx raw = some decision ∧
        decision.requestId = requestId) ∧
    (∀ raw decision, verifiedDecision crypto ctx raw = some decision →
      ∃ sender, decisionEvent raw = some (sender, decision) ∧
        verificationFailure crypto decision sender ctx = none ∧
        Vouched crypto ctx sender decision ∧
        ∃ signature key, decision.signature = some signature ∧
          ctx.verifyingKeys[signature.keyId]? = some key ∧
          ctx.trust.isKeyTrusted signature.keyId ∧
          ∀ signed, crypto.Unforgeable key signed →
            ∃ bytes, signingBytes decision.toValue = .ok bytes ∧ signed bytes) ∧
    (∀ others : List Value,
      others.filter (fun raw => (verifiedDecision crypto ctx raw).isSome) =
        events.filter (fun raw => (verifiedDecision crypto ctx raw).isSome) →
      scanDecisions crypto ctx others = scanDecisions crypto ctx events) := by
  refine ⟨fun _ _ => scanDecisions_eq_some_iff, fun _ => mem_scanDecisions_iff,
    fun raw decision h => ?_, fun others h => ?_⟩
  · obtain ⟨sender, hEvent, hFailure⟩ := verifiedDecision_eq_some_iff.mp h
    have hVouched := vouched_of_verificationFailure hFailure
    exact ⟨sender, hEvent, hFailure, hVouched, hVouched.bytes_signed⟩
  · apply ExtTreeMap.ext_getElem?
    intro requestId
    rw [getElem?_scanDecisions, getElem?_scanDecisions, ← filterMap_verified others, h,
      filterMap_verified]

/-- A scheme that accepts every signature, to evaluate the other checks with. -/
def lenient : Crypto Unit where
  verifySlice _ _ _ := some true
  decodeVerifyingKey _ := some ()
  keyIdForVerifyingKey _ := "mxagent-ed25519:any"

def decisionMessage (verdict : String) (signature : Option Value) : Value :=
  .object [("type", .string approvalDecisionType), ("sender", .string "@operator:host"),
    ("content", .object ([("request_id", .string "req_1"), ("decision", .string verdict),
      ("approved_by", .string "@operator:host"), ("created_at", .string "2026-06-01T00:00:00Z"),
      ("nonce", .string "nonce_1"), ("expires_at", .string "2026-06-01T01:00:00Z")] ++
      presentField "signature" signature))]

def operatorContext : DecisionVerification Unit where
  localUser := "@operator:host"
  approvers := []
  verifyingKeys := .ofList [("mxagent-ed25519:any", ())]
  trust := ⟨[⟨"@operator", "mxagent-ed25519:any", .trusted⟩]⟩
  nowUnix := 0

def unsignedDenial : Value := decisionMessage "denied" none

def signedApproval : Value :=
  decisionMessage "approved"
    (some (.array [.string algEd25519, .string "mxagent-ed25519:any", .string "c2ln"]))

/-- A newer unsigned denial neither denies nor masks a signed approval. -/
theorem unsigned_denial_ignored :
    scanDecisions lenient operatorContext [unsignedDenial, signedApproval] =
      scanDecisions lenient operatorContext [signedApproval] ∧
    "req_1" ∈ scanDecisions lenient operatorContext [signedApproval] := by
  have hDenial : verifiedDecision lenient operatorContext unsignedDenial = none := by
    decide +kernel
  have hApproval : (verifiedDecision lenient operatorContext signedApproval).map
      ApprovalDecision.requestId = some "req_1" := by
    decide +kernel
  obtain ⟨decision, hVerified, hId⟩ := Option.map_eq_some_iff.mp hApproval
  obtain ⟨-, hMem, -, hSame⟩ := scan_reads_newest_verified lenient operatorContext [signedApproval]
  exact ⟨hSame _ (by simp [hDenial]),
    (hMem "req_1").mpr ⟨_, List.mem_singleton_self _, decision, hVerified, hId⟩⟩

end MxAgent.System.VerifiedDecisions
