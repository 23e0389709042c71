import MxAgent.System.ApprovalRooms
import MxAgent.System.ExecAuthorization
import MxAgent.System.SigningIntegrity
import MxAgent.System.TaskSignatures
import MxAgent.System.VerifiedDecisions

/-! Whose key is behind an approval. A decision needs a sender who may approve and a
signature of a published and trusted key, and nothing ties the one to the other: any approver
can pass on a decision that someone else's agent has signed. -/
namespace MxAgent.System.ApproverIdentity

open Std Protocol Daemon VerifiedDecisions

section Keys

variable {Key : Type} (crypto : Crypto Key)

structure Publishes (agent : AgentState) (keyId : String) (key : Key) : Prop where
  named : agent.signingKeyId = keyId
  keyId : keyId ≠ ""
  key : verifyingKeyFromAgentState crypto agent = .ok key

def PublishedBy (agents : List AgentState) (user keyId : String) (key : Key) : Prop :=
  ∃ agent ∈ agents, agent.matrixUserId = user ∧ Publishes crypto agent keyId key

/-- The key the decision is checked with is given out by an agent of the user. -/
def SignedByAgentOf (agents : List AgentState) (user : String) (decision : ApprovalDecision) :
    Prop :=
  ∃ signature key, decision.signature = some signature ∧
    (publishedKeys crypto agents)[signature.keyId]? = some key ∧
    verifyApprovalDecision crypto key decision = .ok () ∧
    PublishedBy crypto agents user signature.keyId key

def MayApprove (env : LiveEnv) (roomId user : String) : Prop :=
  user ≠ "" ∧
    (user = env.localUser ∨ user ∈ (env.policy.rooms[roomId]?).elim [] RoomPolicy.approvers)

variable {crypto}

theorem exists_publishes {agents : List AgentState} {keyId : String} {key : Key}
    (h : (publishedKeys crypto agents)[keyId]? = some key) :
    ∃ agent ∈ agents, Publishes crypto agent keyId key := by
  induction agents using List.reverseRecOn with
  | nil => simp [publishedKeys] at h
  | append_singleton rest agent ih =>
    have hRest (hKnown : (publishedKeys crypto rest)[keyId]? = some key) :
        ∃ other ∈ rest ++ [agent], Publishes crypto other keyId key := by
      obtain ⟨other, hOther, hPublishes⟩ := ih hKnown
      exact ⟨other, List.mem_append_left _ hOther, hPublishes⟩
    rw [publishedKeys, List.foldl_append, ← publishedKeys, List.foldl_cons, List.foldl_nil] at h
    split at h
    · exact hRest h
    rename_i hId
    split at h
    · rename_i found hFound
      rw [ExtTreeMap.getElem?_insert] at h
      split at h
      · rename_i hSame
        cases h
        have hSame := LawfulEqCmp.eq_of_compare hSame
        exact ⟨agent, by simp, hSame, hSame ▸ hId, hFound⟩
      · exact hRest h
    · exact hRest h

end Keys

section Signing

variable {Key : Type} {crypto : Crypto Key}

def unsignedApproval : ApprovalDecision where
  requestId := "req-1"
  decision := "approved"
  approvedBy := "@lead:example.org"
  createdAt := "2026-06-02T12:01:00Z"
  nonce := some "decision-nonce"
  expiresAt := some "2026-06-02T13:01:00Z"
  signature := none
  extra := ∅

def approvalWith (signature : Signature) : ApprovalDecision :=
  { unsignedApproval with signature := some signature }

theorem signingBytes_approvalWith (signature : Signature) :
    signingBytes (approvalWith signature).toValue = signingBytes unsignedApproval.toValue := by
  refine signingBytes_congr (Value.asObject_ofObject _) (Value.asObject_ofObject _) ?_
  have hFields : (approvalWith signature).toFields =
      unsignedApproval.toFields ++ [(signatureField, signature.toValue)] := rfl
  apply ExtTreeMap.ext_getElem?
  intro name
  rw [Object.getElem?_unsigned, Object.getElem?_unsigned]
  split
  · rfl
  · rename_i hName
    have hLookup : (approvalWith signature).toFields.lookup name =
        unsignedApproval.toFields.lookup name := by
      rw [hFields, List.lookup_append, List.lookup_cons, beq_false_of_ne hName, List.lookup_nil,
        Option.or_none]
    have hSigned := TaskSignatures.getElem?_flatten_empty
      (ApprovalDecision.toFields_nodup (approvalWith signature)) name
    have hUnsigned := TaskSignatures.getElem?_flatten_empty
      (ApprovalDecision.toFields_nodup unsignedApproval) name
    exact hSigned.trans (hLookup.trans hUnsigned.symm)

/-- The holder of a key can sign an approval. -/
theorem exists_signed_approval (signingKey : SigningKey crypto) (keyId : String) :
    ∃ signature : Signature, signature.keyId = keyId ∧
      verifyApprovalDecision crypto signingKey.verifyingKey (approvalWith signature) = .ok () := by
  have hFree : unsignedApproval.toValue.floatFree := by decide +kernel
  obtain ⟨bytes, hBytes⟩ : ∃ bytes, signingBytes unsignedApproval.toValue = .ok bytes :=
    ⟨_, signingBytes_ok (Value.asObject_ofObject _) (SigningIntegrity.unsigned_floatFree hFree)⟩
  refine ⟨signingKey.signBytes keyId bytes, rfl, verify_eq_ok_iff.mpr ⟨_, _, bytes,
    Value.asObject_ofObject _, ?_, (signingBytes_approvalWith _).trans hBytes,
    signBytes_verifies signingKey keyId bytes⟩⟩
  have hField : (Object.flatten (approvalWith (signingKey.signBytes keyId bytes)).toFields
      ∅)[signatureField]? = some (signingKey.signBytes keyId bytes).toValue := by
    rw [TaskSignatures.getElem?_flatten_empty (ApprovalDecision.toFields_nodup _)]
    rfl
  exact (congrArg (Option.bind · Signature.fromValue) hField).trans (Signature.fromValue_toValue _)

end Signing

section Binding

variable {Key : Type} (crypto : Crypto Key)

/-- All decisions of a sender that pass, at any time, are signed with a key an agent of theirs gives
out. -/
def BoundToSender (env : LiveEnv) (roomId : String) (agents : List AgentState) (sender : String) :
    Prop :=
  ∀ (now : Int) (decision : ApprovalDecision),
    verificationFailure crypto decision sender
      (decisionVerification crypto { env with now } roomId agents) = none →
    SignedByAgentOf crypto agents sender decision

variable {crypto}

/-- A sender is bound to their own keys exactly if they may not approve, or give out every trusted
key of the room. -/
theorem boundToSender_iff (env : LiveEnv) (roomId : String) (agents : List AgentState)
    (sender : String)
    (hHeld : ∀ agent ∈ agents, ∀ key, verifyingKeyFromAgentState crypto agent = .ok key →
      ∃ signingKey : SigningKey crypto, signingKey.verifyingKey = key) :
    BoundToSender crypto env roomId agents sender ↔
      (MayApprove env roomId sender → ∀ keyId key,
        (publishedKeys crypto agents)[keyId]? = some key → env.trust.isKeyTrusted keyId →
        PublishedBy crypto agents sender keyId key) := by
  constructor
  · intro hBound hMay keyId key hKey hTrusted
    obtain ⟨agent, hAgent, hPublishes⟩ := exists_publishes hKey
    obtain ⟨signingKey, rfl⟩ := hHeld agent hAgent key hPublishes.key
    obtain ⟨signature, rfl, hSigned⟩ := exists_signed_approval signingKey keyId
    have hVouched : Vouched crypto (decisionVerification crypto { env with now := 0 } roomId agents)
        sender (approvalWith signature) :=
      { sender_known := hMay
        nonce := rfl
        expiry := ⟨_, 1780405260, rfl, by decide +kernel, (by decide : (0 : Int) < 1780405260)⟩
        signed := ⟨signature, _, rfl, hKey, hTrusted, hSigned⟩ }
    obtain ⟨_, found, hSame, hFound, -, hPublished⟩ :=
      hBound 0 (approvalWith signature) (verificationFailure_eq_none_iff.mpr hVouched)
    cases hSame
    rw [hKey, Option.some.injEq] at hFound
    exact hFound ▸ hPublished
  · intro hShared now decision hPasses
    have hVouched := vouched_of_verificationFailure hPasses
    obtain ⟨signature, key, hSignature, hKey, hTrusted, hVerify⟩ := hVouched.signed
    exact ⟨signature, key, hSignature, hKey, hVerify,
      hShared hVouched.sender_known signature.keyId key hKey hTrusted⟩

section Lab

open ApprovalRooms

/-- Keys are their own encoding; a signature is the message after the key. -/
def prefixing : Crypto String where
  verifySlice key bytes raw := some (decide (raw = key.toUTF8 ++ bytes))
  decodeVerifyingKey text := some text
  keyIdForVerifyingKey key := "mxagent-ed25519:" ++ key

def holderOf (key : String) : SigningKey prefixing where
  verifyingKey := key
  sign bytes := key.toUTF8 ++ bytes
  sign_verifies bytes := by simp [prefixing]

/-- The lead is the only one in the room. -/
theorem lone_lead_bound :
    BoundToSender prefixing (twoRoomEnv 1780000000) labRoom [leadAgent] "@lead:example.org" := by
  refine (boundToSender_iff _ _ _ _ fun _ _ key _ => ⟨holderOf key, rfl⟩).mpr ?_
  intro _ keyId key hKey _
  obtain ⟨agent, hAgent, hPublishes⟩ := exists_publishes hKey
  refine ⟨agent, hAgent, ?_, hPublishes⟩
  rw [List.mem_singleton.mp hAgent]
  rfl

/-- The lead passes on an approval that the runner's agent has signed. -/
theorem lead_passes_runner_signature :
    verificationFailure namedKeys (approvalWith (signedBy "runner")) "@lead:example.org"
        (decisionVerification namedKeys (twoRoomEnv 1780000000) labRoom
          [runnerAgent, daemonAgent, leadAgent]) = none ∧
      ¬ SignedByAgentOf namedKeys [runnerAgent, daemonAgent, leadAgent] "@lead:example.org"
        (approvalWith (signedBy "runner")) := by
  refine ⟨by decide +kernel, ?_⟩
  rintro ⟨signature, key, hSame, -, -, agent, hAgent, hUser, hPublishes⟩
  cases hSame
  have hOthers : ∀ other ∈ [runnerAgent, daemonAgent, leadAgent],
      other.matrixUserId = "@lead:example.org" →
        other.signingKeyId ≠ (signedBy "runner").keyId := by
    decide
  exact hOthers agent hAgent hUser hPublishes.named

end Lab

end Binding

end MxAgent.System.ApproverIdentity
