import MxAgent.System.ApprovalRooms
import MxAgent.System.ExecAuthorization
import MxAgent.System.SigningIntegrity
import MxAgent.System.TaskSignatures
import MxAgent.System.TrustUpdates

/-! What revoking a key of an agent amounts to. The trust store keeps one record for each
agent and key, and reports the revoked pair as untrusted. Authorization looks a key up without
the agent, so a request of the revoked agent still passes as long as the key is trusted for
another one. -/
namespace MxAgent.System.Revocations

open Protocol Daemon Fallible TrustUpdates ExecAuthorization ApprovalRooms

/-! ## Histories of the store -/

def pair : Change → String × String
  | .approve agentId keyId _ | .revoke agentId keyId => (agentId, keyId)

/-- The records after a history of approvals and revocations. -/
def recordsAfter (history : List (Change × Nat)) : TrustRecords :=
  history.foldl (fun trust change => change.1.apply change.2 trust) .default

def lastChange (history : List (Change × Nat)) (agentId keyId : String) : Option Change :=
  ((history.map Prod.fst).filter fun change => pair change == (agentId, keyId)).getLast?

/-- Some change has approved the pair. -/
def ApprovedOnce (history : List (Change × Nat)) (agentId keyId : String) : Prop :=
  ∃ approval now, (.approve agentId keyId approval, now) ∈ history

/-- The pair's last change was an approval. -/
def Stands (history : List (Change × Nat)) (agentId keyId : String) : Prop :=
  ∃ approval, lastChange history agentId keyId = some (.approve agentId keyId approval)

theorem recordsAfter_append (history : List (Change × Nat)) (change : Change) (now : Nat) :
    recordsAfter (history ++ [(change, now)]) = change.apply now (recordsAfter history) := by
  rw [recordsAfter, List.foldl_append]
  rfl

variable {change : Change} {agentId keyId roomId : String} {content : Value} {request : CallRequest}
  {trust : TrustStore}

theorem lastChange_append_same (history : List (Change × Nat)) (now : Nat)
    (h : pair change = (agentId, keyId)) :
    lastChange (history ++ [(change, now)]) agentId keyId = some change := by
  rw [lastChange, List.map_append, List.filter_append]
  simp [h]

theorem lastChange_append_other (history : List (Change × Nat)) (now : Nat)
    (h : pair change ≠ (agentId, keyId)) :
    lastChange (history ++ [(change, now)]) agentId keyId = lastChange history agentId keyId := by
  rw [lastChange, List.map_append, List.filter_append]
  simp [h, lastChange]

theorem entry_apply_other {trust : TrustRecords} {now : Nat} (h : pair change ≠ (agentId, keyId)) :
    (change.apply now trust).entry agentId keyId = trust.entry agentId keyId := by
  cases change with
  | approve otherAgent otherKey approval => exact TrustRecords.entry_approve_other (Ne.symm h)
  | revoke otherAgent otherKey =>
    exact TrustRecords.entry_modify_other (TrustRecords.keepsPair_revoke now) (Ne.symm h)

/-- No history makes two records for one pair. -/
theorem distinct_recordsAfter (history : List (Change × Nat)) :
    (recordsAfter history).Distinct := by
  induction history using List.reverseRecOn with
  | nil => exact TrustRecords.distinct_default
  | append_singleton rest change ih =>
    obtain ⟨change, now⟩ := change
    rw [recordsAfter_append]
    cases change with
    | approve agentId keyId approval => exact ih.approve approval now
    | revoke agentId keyId => exact ih.revoke now

theorem entry_isSome_iff (history : List (Change × Nat)) (agentId keyId : String) :
    ((recordsAfter history).entry agentId keyId).isSome ↔
      ApprovedOnce history agentId keyId := by
  induction history using List.reverseRecOn with
  | nil => simp [recordsAfter, TrustRecords.default, TrustRecords.entry, ApprovedOnce]
  | append_singleton rest change ih =>
    obtain ⟨change, now⟩ := change
    rw [recordsAfter_append]
    by_cases hPair : pair change = (agentId, keyId)
    · cases change with
      | approve otherAgent otherKey approval =>
        obtain ⟨rfl, rfl⟩ := Prod.mk.inj hPair
        refine iff_of_true ?_ ⟨approval, now, by simp⟩
        have hTrusted : ((recordsAfter rest).approve otherAgent otherKey approval now).isTrusted
            otherAgent otherKey := TrustRecords.isTrusted_approve
        rw [TrustRecords.isTrusted, Option.any_eq_true] at hTrusted
        obtain ⟨record, hRecord, -⟩ := hTrusted
        exact Option.isSome_iff_exists.mpr ⟨record, hRecord⟩
      | revoke otherAgent otherKey =>
        obtain ⟨rfl, rfl⟩ := Prod.mk.inj hPair
        rw [Change.apply, TrustRecords.revoke,
          TrustRecords.entry_modify (TrustRecords.keepsPair_revoke now), Option.isSome_map, ih]
        simp [ApprovedOnce]
    · rw [entry_apply_other hPair, ih]
      refine exists₂_congr fun approval time => ?_
      rw [List.mem_append, List.mem_singleton]
      refine ⟨.inl, fun h => h.resolve_right fun hSame => hPair ?_⟩
      rw [← (Prod.mk.inj hSame).1]
      rfl

/-- A pair is trusted exactly if its last change was an approval. -/
theorem isTrusted_iff (history : List (Change × Nat)) (agentId keyId : String) :
    (recordsAfter history).isTrusted agentId keyId ↔ Stands history agentId keyId := by
  induction history using List.reverseRecOn with
  | nil =>
    simp [recordsAfter, TrustRecords.default, TrustRecords.isTrusted, TrustRecords.entry, Stands,
      lastChange]
  | append_singleton rest change ih =>
    obtain ⟨change, now⟩ := change
    rw [recordsAfter_append, Stands]
    by_cases hPair : pair change = (agentId, keyId)
    · rw [lastChange_append_same rest now hPair]
      cases change with
      | approve otherAgent otherKey approval =>
        obtain ⟨rfl, rfl⟩ := Prod.mk.inj hPair
        exact iff_of_true TrustRecords.isTrusted_approve ⟨approval, rfl⟩
      | revoke otherAgent otherKey =>
        obtain ⟨rfl, rfl⟩ := Prod.mk.inj hPair
        refine iff_of_false ?_ (by simp)
        rw [TrustRecords.isTrusted, Change.apply, TrustRecords.revoke,
          TrustRecords.entry_modify (TrustRecords.keepsPair_revoke now)]
        cases (recordsAfter rest).entry otherAgent otherKey <;> simp [TrustRecord.revoke]
    · rw [lastChange_append_other rest now hPair, TrustRecords.isTrusted,
        entry_apply_other hPair]
      exact ih

/-! ## What authorization asks of the store -/

/-- A revocation works: the local store reports the pair as untrusted, and no request of the agent
signed with the key is authorized, under any keys, rooms and policies. -/
structure Effective (trust : TrustRecords) (agentId keyId : String) : Prop where
  reported : ∀ roomStates : List TrustState,
    effectiveTrust trust roomStates agentId keyId = ⟨agentId, keyId, false, .localStore⟩
  exec : ∀ (Key : Type) (crypto : Crypto Key) (regexNew : RegexNew) (content : Value)
    (request : ExecRequest) (key : Key) (policy : Policy) (roomId user localAgent : String),
    ExecRequest.fromValue content = some request → request.requestingAgent = agentId →
    request.signature.keyId = keyId → ∀ result, authorizeExecRequestWithAllowance crypto regexNew
      content key trust.toStore policy roomId user localAgent ≠ .ok result
  call : ∀ (Key : Type) (crypto : Crypto Key) (content : Value) (request : CallRequest) (key : Key)
    (policy : Policy) (roomId user : String), CallRequest.fromValue content = some request →
    request.requestingAgent = some agentId → request.signature.keyId = keyId →
    ∀ result, authorizeCallRequestWithAllowance crypto content key trust.toStore policy roomId
      user ≠ .ok result
  liveExec : ∀ (Key : Type) (crypto : Crypto Key) (regexNew : RegexNew) (env : LiveEnv)
    (room : RoomView) (content : Value) (request : ExecRequest) (roomId : String)
    (sender : Option String), env.trust = trust.toStore →
    ExecRequest.fromValue content = some request → request.requestingAgent = agentId →
    request.signature.keyId = keyId → ∀ result, authorizeLiveExec crypto regexNew env room content
      request roomId sender ≠ .ok result
  liveCall : ∀ (Key : Type) (crypto : Crypto Key) (env : LiveEnv) (room : RoomView)
    (content : Value) (request : CallRequest) (roomId : String) (sender : Option String),
    env.trust = trust.toStore → CallRequest.fromValue content = some request →
    request.requestingAgent = some agentId → request.signature.keyId = keyId →
    ∀ result, authorizeLiveCall crypto env room content request agentId roomId sender ≠ .ok result

section Authorization

variable {Key : Type} {crypto : Crypto Key} {regexNew : RegexNew}

theorem readSignature_of_callRequest (h : CallRequest.fromValue content = some request) :
    readSignature content = .ok (some request.signature) := by
  obtain ⟨fields, hFields, h⟩ := Option.bind_eq_some_iff.mp h
  -- The seven fields before the signature.
  iterate 7 obtain ⟨_, -, h⟩ := Option.bind_eq_some_iff.mp h
  obtain ⟨signature, hSignature, h⟩ := Option.bind_eq_some_iff.mp h
  iterate 2 obtain ⟨_, -, h⟩ := Option.bind_eq_some_iff.mp h
  obtain ⟨value, hValue, hParsed⟩ := Option.bind_eq_some_iff.mp hSignature
  cases h
  exact readSignature_of_field hFields hValue hParsed

theorem isKeyTrusted_of_exec {request : ExecRequest} {key : Key} {policy : Policy}
    {user localAgent : String} {result : ExecRequest × Allowance}
    (hParsed : ExecRequest.fromValue content = some request)
    (h : authorizeExecRequestWithAllowance crypto regexNew content key trust policy roomId user
      localAgent = .ok result) :
    trust.isKeyTrusted request.signature.keyId := by
  simp only [authorizeExecRequestWithAllowance, bind_eq_ok, ensure_eq_ok, mapError_eq_ok,
    verifiedSignature_eq_ok_iff, readSignature_of_fromValue hParsed] at h
  obtain ⟨signature, ⟨hSame, -⟩, -, -, -, -, -, hTrusted, -⟩ := h
  cases hSame
  exact hTrusted

theorem isKeyTrusted_of_call {key : Key} {policy : Policy} {user : String}
    {result : CallRequest × Allowance} (hParsed : CallRequest.fromValue content = some request)
    (h : authorizeCallRequestWithAllowance crypto content key trust policy roomId user =
      .ok result) :
    trust.isKeyTrusted request.signature.keyId := by
  simp only [authorizeCallRequestWithAllowance, bind_eq_ok, ensure_eq_ok, mapError_eq_ok,
    verifiedSignature_eq_ok_iff, readSignature_of_callRequest hParsed] at h
  obtain ⟨signature, ⟨hSame, -⟩, -, -, -, hTrusted, -⟩ := h
  cases hSame
  exact hTrusted

theorem isKeyTrusted_of_liveExec {env : LiveEnv} {room : RoomView} {request : ExecRequest}
    {sender : Option String} {result : ExecRequest × Allowance}
    (hParsed : ExecRequest.fromValue content = some request)
    (h : authorizeLiveExec crypto regexNew env room content request roomId sender = .ok result) :
    env.trust.isKeyTrusted request.signature.keyId := by
  simp only [authorizeLiveExec, bind_eq_ok] at h
  obtain ⟨-, -, -, -, -, -, key, -, user, -, authorized, hAuthorized, -⟩ := h
  exact isKeyTrusted_of_exec hParsed hAuthorized

theorem isKeyTrusted_of_liveCall {env : LiveEnv} {room : RoomView} {requestingAgent : String}
    {sender : Option String} {result : CallRequest × Allowance}
    (hParsed : CallRequest.fromValue content = some request)
    (h : authorizeLiveCall crypto env room content request requestingAgent roomId sender =
      .ok result) :
    env.trust.isKeyTrusted request.signature.keyId := by
  simp only [authorizeLiveCall, bind_eq_ok] at h
  obtain ⟨-, -, -, -, -, -, key, -, user, -, authorized, hAuthorized, -⟩ := h
  exact isKeyTrusted_of_call hParsed hAuthorized

end Authorization

theorem effective_of_not_isKeyTrusted {trust : TrustRecords}
    (hReported : ∀ roomStates : List TrustState,
      effectiveTrust trust roomStates agentId keyId = ⟨agentId, keyId, false, .localStore⟩)
    (h : trust.toStore.isKeyTrusted keyId = false) : Effective trust agentId keyId where
  reported := hReported
  exec Key crypto regexNew content request key policy roomId user localAgent hParsed _ hKey result
      hOk := by
    simpa [hKey, h] using isKeyTrusted_of_exec hParsed hOk
  call Key crypto content request key policy roomId user hParsed _ hKey result hOk := by
    simpa [hKey, h] using isKeyTrusted_of_call hParsed hOk
  liveExec Key crypto regexNew env room content request roomId sender hEnv hParsed _ hKey result
      hOk := by
    simpa [hEnv, hKey, h] using isKeyTrusted_of_liveExec hParsed hOk
  liveCall Key crypto env room content request roomId sender hEnv hParsed _ hKey result hOk := by
    simpa [hEnv, hKey, h] using isKeyTrusted_of_liveCall hParsed hOk

section SharedKey

/-- Keys are their own ids and encodings, and the signature under a key is the key. -/
def idKeys : Crypto String where
  verifySlice key _ raw := some (decide (raw = key.toUTF8))
  decodeVerifyingKey text := some text
  keyIdForVerifyingKey key := key

def buildCall (agentId keyId : String) : CallRequest where
  invocationId := "inv-1"
  requestId := "req-1"
  tool := "build"
  args := .object []
  createdAt := "2026-06-02T12:00:00Z"
  expiresAt := "2026-06-02T12:05:00Z"
  nonce := "request-nonce"
  signature := ⟨"ed25519", keyId, encodeRaw keyId.toUTF8⟩
  requestingAgent := some agentId
  targetAgent := some "agent-daemon"
  extra := ∅
  extra_fresh := by simp

def publishing (agentId keyId : String) : RoomView where
  agentState other :=
    .ok (if other = agentId then some ⟨agentId, "@runner:example.org", keyId, some keyId⟩ else none)
  agentStates := .ok [⟨agentId, "@runner:example.org", keyId, some keyId⟩]

def labEnvWith (trust : TrustStore) : LiveEnv := { twoRoomEnv 1780000000 with trust }

theorem buildCall_verifies (agentId keyId : String) :
    verify idKeys keyId (buildCall agentId keyId).toValue = .ok () := by
  have hSignature : (buildCall agentId keyId).signature.toValue.floatFree := by
    refine TaskSignatures.floatFree_flatten (Signature.toFields_nodup _) ?_
    simp [Signature.toFields, Value.floatFree, Value.all, Value.isFloat]
  have hFree : (buildCall agentId keyId).toValue.floatFree := by
    refine TaskSignatures.floatFree_flatten (CallRequest.toFields_nodup _) ?_
    simpa [CallRequest.toFields, buildCall, presentField, Value.floatFree, Value.all,
      Value.allFields, Value.isFloat] using hSignature
  have hBytes := signingBytes_ok (Value.asObject_ofObject _)
    (SigningIntegrity.unsigned_floatFree hFree)
  refine verify_eq_ok_iff.mpr ⟨_, (buildCall agentId keyId).signature, _,
    Value.asObject_ofObject _, ?_, hBytes,
    verifySignature_eq_ok_iff.mpr ⟨rfl, keyId.toUTF8, decodeRaw_encodeRaw _, by simp [idKeys]⟩⟩
  have hField : (Object.flatten (buildCall agentId keyId).toFields ∅)[signatureField]? =
      some (buildCall agentId keyId).signature.toValue := by
    rw [TaskSignatures.getElem?_flatten_empty (CallRequest.toFields_nodup _)]
    rfl
  exact (congrArg (Option.bind · Signature.fromValue) hField).trans (Signature.fromValue_toValue _)

/-- While its key is trusted for anyone, an agent that publishes it has its calls authorized. -/
theorem buildCall_authorized (agentId : String) (h : trust.isKeyTrusted keyId) :
    ∃ result, authorizeLiveCall idKeys (labEnvWith trust) (publishing agentId keyId)
      (buildCall agentId keyId).toValue (buildCall agentId keyId) agentId labRoom
      (some "@runner:example.org") = .ok result := by
  have hParsed := CallRequest.fromValue_toValue (buildCall agentId keyId)
  obtain ⟨allowance, hAllowance, hDevice⟩ : ∃ allowance,
      twoRoomPolicy.evaluateCall ⟨labRoom, "@runner:example.org", "build"⟩ = .allow allowance ∧
        allowance.requireVerifiedDevice = false := ⟨_, rfl, rfl⟩
  have hInner : authorizeCallRequestWithAllowance idKeys (buildCall agentId keyId).toValue keyId
      trust twoRoomPolicy labRoom "@runner:example.org" =
        .ok (buildCall agentId keyId, allowance) := by
    have hVerified : verifiedSignature idKeys keyId (buildCall agentId keyId).toValue =
        .ok (buildCall agentId keyId).signature :=
      verifiedSignature_eq_ok_iff.mpr
        ⟨readSignature_of_callRequest hParsed, buildCall_verifies agentId keyId⟩
    simp only [authorizeCallRequestWithAllowance, bind_eq_ok, mapError_eq_ok, okOr_eq_ok,
      ensure_eq_ok, hVerified, hParsed]
    refine ⟨_, rfl, _, rfl, (), h, ?_⟩
    simp only [buildCall, hAllowance]
    rfl
  have hKey : verifyingKeyFromAgentState idKeys
      ⟨agentId, "@runner:example.org", keyId, some keyId⟩ = .ok keyId :=
    verifyingKeyFromAgentState_eq_ok_iff.mpr ⟨⟨keyId, rfl, rfl⟩, rfl⟩
  refine ⟨(buildCall agentId keyId, allowance), ?_⟩
  simp only [authorizeLiveCall, publishing, bind_eq_ok, mapError_eq_ok, okOr_eq_ok, ensure_eq_ok,
    if_pos]
  refine ⟨_, rfl, _, rfl, (), beq_self_eq_true keyId, keyId, hKey, _, rfl, _, hInner, (), ?_, rfl⟩
  exact enforceVerifiedDevice_iff.mpr (by simp [hDevice])

end SharedKey

/-- A revoked pair is reported as untrusted, whatever a room says. -/
theorem effectiveTrust_revoked {history : List (Change × Nat)}
    (hApproved : ApprovedOnce history agentId keyId) (hStands : ¬ Stands history agentId keyId)
    (roomStates : List TrustState) :
    effectiveTrust (recordsAfter history) roomStates agentId keyId =
      ⟨agentId, keyId, false, .localStore⟩ := by
  obtain ⟨record, hRecord⟩ :=
    Option.isSome_iff_exists.mp ((entry_isSome_iff history agentId keyId).mpr hApproved)
  rw [← isTrusted_iff, TrustRecords.isTrusted, hRecord, Option.any_some, Bool.not_eq_true]
    at hStands
  simp only [effectiveTrust, hRecord, hStands]

/-- A key is trusted while it stands approved for anyone. -/
theorem isKeyTrusted_recordsAfter (history : List (Change × Nat)) (keyId : String) :
    (recordsAfter history).toStore.isKeyTrusted keyId ↔
      ∃ agentId, Stands history agentId keyId := by
  rw [(distinct_recordsAfter history).isKeyTrusted_iff]
  exact exists_congr fun agentId => isTrusted_iff history agentId keyId

/-- Revoking an approved pair works exactly if the key is not approved for another agent. -/
theorem revocation_effective_iff (history : List (Change × Nat)) (agentId keyId : String)
    (hApproved : ApprovedOnce history agentId keyId)
    (hRevoked : lastChange history agentId keyId = some (.revoke agentId keyId)) :
    Effective (recordsAfter history) agentId keyId ↔
      ∀ other, other ≠ agentId → ¬ Stands history other keyId := by
  have hStands : ¬ Stands history agentId keyId := by
    rintro ⟨approval, hApproval⟩
    rw [hRevoked] at hApproval
    cases hApproval
  constructor
  · intro hEffective other _ hOther
    have hTrusted := (isKeyTrusted_recordsAfter history keyId).mpr ⟨other, hOther⟩
    obtain ⟨result, hResult⟩ := buildCall_authorized agentId hTrusted
    exact hEffective.liveCall _ _ _ _ _ _ _ _ rfl (CallRequest.fromValue_toValue _) rfl rfl _
      hResult
  · intro hOthers
    refine effective_of_not_isKeyTrusted (effectiveTrust_revoked hApproved hStands) ?_
    rw [← Bool.not_eq_true, isKeyTrusted_recordsAfter]
    rintro ⟨other, hOther⟩
    by_cases hSame : other = agentId
    · exact hStands (hSame ▸ hOther)
    · exact hOthers other hSame hOther

section Runner

def runnerKey : String := "mxagent-ed25519:runner"

def byOwner : Approval := ⟨none, none, some "@owner:example.org"⟩

def runnerRevoked : List (Change × Nat) :=
  [(.approve "agent-runner" runnerKey byOwner, 100), (.revoke "agent-runner" runnerKey, 300)]

def keyShared : List (Change × Nat) :=
  [(.approve "agent-runner" runnerKey byOwner, 100),
    (.approve "agent-backup" runnerKey byOwner, 200), (.revoke "agent-runner" runnerKey, 300)]

theorem runner_revocation_effective :
    Effective (recordsAfter runnerRevoked) "agent-runner" runnerKey := by
  refine (revocation_effective_iff runnerRevoked "agent-runner" runnerKey
    ⟨byOwner, 100, by simp [runnerRevoked]⟩ rfl).mpr ?_
  rintro other hOther ⟨approval, hStands⟩
  have hNone : lastChange runnerRevoked other runnerKey = none := by
    simp [lastChange, runnerRevoked, pair, Ne.symm hOther]
  rw [hNone] at hStands
  cases hStands

/-- The runner's key is revoked, and still signs an authorized call. -/
theorem shared_key_still_authorizes :
    ApprovedOnce keyShared "agent-runner" runnerKey ∧
      lastChange keyShared "agent-runner" runnerKey = some (.revoke "agent-runner" runnerKey) ∧
      ¬ Effective (recordsAfter keyShared) "agent-runner" runnerKey ∧
      ∃ result, authorizeLiveCall idKeys (labEnvWith (recordsAfter keyShared).toStore)
        (publishing "agent-runner" runnerKey) (buildCall "agent-runner" runnerKey).toValue
        (buildCall "agent-runner" runnerKey) "agent-runner" labRoom
        (some "@runner:example.org") = .ok result := by
  have hAuthorized := buildCall_authorized "agent-runner"
    (show (recordsAfter keyShared).toStore.isKeyTrusted runnerKey = true by decide)
  refine ⟨⟨byOwner, 100, by simp [keyShared]⟩, rfl, fun hEffective => ?_, hAuthorized⟩
  obtain ⟨result, hResult⟩ := hAuthorized
  exact hEffective.liveCall _ _ _ _ _ _ _ _ rfl (CallRequest.fromValue_toValue _) rfl rfl _ hResult

end Runner

end MxAgent.System.Revocations
