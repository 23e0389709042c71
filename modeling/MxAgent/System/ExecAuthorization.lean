import MxAgent.Policy.Tightening
import MxAgent.Daemon.Exec

/-! What it takes to have a live exec request authorized. The checks are spread over
four functions; together they amount to one list of conditions, and the list only gets
shorter when keys are trusted or the policy is loosened. -/
namespace MxAgent.System.ExecAuthorization

open Protocol Daemon Fallible Std

variable {Key : Type} (crypto : Crypto Key) (regexNew : RegexNew)

/-- The live authorization of a signed content, for the request parsed from it and the authenticated
sender, if known. -/
def authorizeContent (env : LiveEnv) (room : RoomView) (content : Value) (roomId : String)
    (sender : Option String) : Except ExecRejection (ExecRequest × Allowance) := do
  let request ← okOr (ExecRequest.fromValue content) .malformed
  authorizeLiveExec crypto regexNew env room content request roomId sender

structure Granted (env : LiveEnv) (room : RoomView) (content : Value) (roomId : String)
    (sender : Option String) (requester : AgentState) (key : Key) (request : ExecRequest)
    (allowance : Allowance) : Prop where
  parsed : ExecRequest.fromValue content = some request
  published : room.agentState request.requestingAgent = .ok (some requester)
  keyId : requester.signingKeyId = request.signature.keyId
  publicKey : ∃ publicKey ∈ requester.signingPublicKey,
    crypto.decodeVerifyingKey publicKey = some key
  hashed : crypto.keyIdForVerifyingKey key = requester.signingKeyId
  sent : ∀ user ∈ sender, requester.matrixUserId = user
  signed : verify crypto key content = .ok ()
  trusted : env.trust.isKeyTrusted request.signature.keyId
  allowed : env.policy.evaluateExec regexNew
    ⟨roomId, requester.matrixUserId, request.command, request.cwd⟩ = .allow allowance
  device : allowance.requireVerifiedDevice →
    env.senderVerified requester.matrixUserId = some true
  sandboxed : allowance.requireSandbox → sandboxBackend allowance.sandbox ≠ .none
  overrides : ∀ name ∈ request.env, disallowedOverride allowance.envAllowlist name = false

/-- A handler finds less: fewer trusted keys, a tighter policy, fewer verified devices. -/
structure Tightens (stricter looser : LiveEnv) : Prop where
  trust : ∀ keyId, stricter.trust.isKeyTrusted keyId → looser.trust.isKeyTrusted keyId
  policy : stricter.policy.Tightens looser.policy
  senderVerified : ∀ user, stricter.senderVerified user = some true →
    looser.senderVerified user = some true

variable {crypto regexNew}

variable {content : Value} {request granted : ExecRequest} {key : Key} {sender : Option String}
  {allowance : Allowance} {roomId : String} {room : RoomView}

theorem readSignature_of_fromValue (h : ExecRequest.fromValue content = some request) :
    readSignature content = .ok (some request.signature) := by
  obtain ⟨fields, hFields, h⟩ := Option.bind_eq_some_iff.mp h
  -- The sixteen fields before the signature.
  iterate 16 obtain ⟨_, -, h⟩ := Option.bind_eq_some_iff.mp h
  obtain ⟨signature, hSignature, hRequest⟩ := Option.bind_eq_some_iff.mp h
  obtain ⟨value, hValue, hParsed⟩ := Option.bind_eq_some_iff.mp hSignature
  cases hRequest
  exact readSignature_of_field hFields hValue hParsed

theorem verifiedSignature_eq_ok_iff {signature : Signature} :
    verifiedSignature crypto key content = .ok signature ↔
      readSignature content = .ok (some signature) ∧ verify crypto key content = .ok () := by
  simp only [verifiedSignature, bind_eq_ok, okOr_eq_ok, mapError_eq_ok]
  constructor
  · rintro ⟨_, hRead, found, rfl, ⟨⟩, hVerify, hPure⟩
    cases hPure
    exact ⟨hRead, hVerify⟩
  · rintro ⟨hRead, hVerify⟩
    exact ⟨_, hRead, signature, rfl, (), hVerify, rfl⟩

theorem verifyingKeyFromAgentState_eq_ok_iff {agent : AgentState} :
    verifyingKeyFromAgentState crypto agent = .ok key ↔
      (∃ publicKey ∈ agent.signingPublicKey, crypto.decodeVerifyingKey publicKey = some key) ∧
        crypto.keyIdForVerifyingKey key = agent.signingKeyId := by
  simp only [verifyingKeyFromAgentState, bind_eq_ok, okOr_eq_ok, ensure_eq_ok, beq_iff_eq]
  constructor
  · rintro ⟨publicKey, hPublic, found, hDecode, ⟨⟩, hHash, hPure⟩
    cases hPure
    exact ⟨⟨publicKey, hPublic, hDecode⟩, hHash⟩
  · rintro ⟨⟨publicKey, hPublic, hDecode⟩, hHash⟩
    exact ⟨publicKey, hPublic, key, hDecode, (), hHash, rfl⟩

theorem firstDisallowedRemoteOverride_eq_none_iff {env : ExtTreeMap String String}
    {allowlist : List String} :
    firstDisallowedRemoteOverride env allowlist = none ↔
      ∀ name ∈ env, disallowedOverride allowlist name = false := by
  simp [firstDisallowedRemoteOverride]

theorem policyIdentity_eq_some_iff {requesterUser user : String} :
    policyIdentity requesterUser sender = some user ↔
      (∀ other ∈ sender, requesterUser = other) ∧ user = requesterUser := by
  cases sender with
  | none => simp [policyIdentity, eq_comm]
  | some other =>
    by_cases h : other = requesterUser
    · simp [policyIdentity, h, eq_comm]
    · simp [policyIdentity, h, Ne.symm h]

theorem enforceVerifiedDevice_iff {verified : Option Bool} :
    enforceVerifiedDevice allowance verified ↔
      (allowance.requireVerifiedDevice → verified = some true) := by
  cases h : allowance.requireVerifiedDevice <;> simp [enforceVerifiedDevice, h]

theorem checkSandboxFloor_iff :
    checkSandboxFloor allowance ↔
      (allowance.requireSandbox → sandboxBackend allowance.sandbox ≠ .none) := by
  cases h : allowance.requireSandbox <;> simp [checkSandboxFloor, h]

/-- The checks on the content. The pipeline passes the request's target as the local agent, so that
check cannot fail. -/
theorem authorizeExecRequestWithAllowance_eq_ok_iff {trust : TrustStore} {policy : Policy}
    {user : String} (hParsed : ExecRequest.fromValue content = some request) :
    authorizeExecRequestWithAllowance crypto regexNew content key trust policy roomId user
        request.targetAgent = .ok (granted, allowance) ↔
      granted = request ∧ verify crypto key content = .ok () ∧
        trust.isKeyTrusted request.signature.keyId ∧
        policy.evaluateExec regexNew ⟨roomId, user, request.command, request.cwd⟩ =
          .allow allowance := by
  have hRead := readSignature_of_fromValue hParsed
  simp only [authorizeExecRequestWithAllowance, bind_eq_ok, ensure_eq_ok, mapError_eq_ok,
    verifiedSignature_eq_ok_iff, okOr_eq_ok, hRead, hParsed]
  constructor
  · rintro ⟨signature, ⟨hSame, hVerify⟩, parsed, hSameRequest, -, -, -, hTrusted, hPolicy⟩
    cases hSame
    cases hSameRequest
    split at hPolicy
    · rename_i hAllow
      cases hPolicy
      exact ⟨rfl, hVerify, hTrusted, hAllow⟩
    · cases hPolicy
  · rintro ⟨rfl, hVerify, hTrusted, hAllow⟩
    refine ⟨granted.signature, ⟨rfl, hVerify⟩, granted, rfl, (), beq_self_eq_true _, (), hTrusted,
      ?_⟩
    rw [hAllow]
    rfl

theorem authorizeLiveExec_eq_ok_iff {env : LiveEnv}
    (hParsed : ExecRequest.fromValue content = some request) :
    authorizeLiveExec crypto regexNew env room content request roomId sender =
        .ok (granted, allowance) ↔
      ∃ requester key,
        Granted crypto regexNew env room content roomId sender requester key granted allowance := by
  simp only [authorizeLiveExec, bind_eq_ok, ensure_eq_ok, mapError_eq_ok, okOr_eq_ok,
    verifyingKeyFromAgentState_eq_ok_iff, policyIdentity_eq_some_iff, beq_iff_eq,
    enforceVerifiedDevice_iff, checkSandboxFloor_iff]
  constructor
  · rintro ⟨_, hState, requester, rfl, -, hKeyId, key, ⟨hPublic, hHash⟩, _, ⟨hSent, rfl⟩,
      ⟨authorized, limits⟩, hAuthorized, -, hDevice, -, hFloor, hScreen⟩
    rw [authorizeExecRequestWithAllowance_eq_ok_iff hParsed] at hAuthorized
    obtain ⟨rfl, hVerify, hTrusted, hAllow⟩ := hAuthorized
    split at hScreen
    · cases hScreen
    · rename_i hOverrides
      cases hScreen
      exact ⟨requester, key, ⟨hParsed, hState, hKeyId, hPublic, hHash, hSent, hVerify, hTrusted,
        hAllow, hDevice, hFloor, firstDisallowedRemoteOverride_eq_none_iff.mp hOverrides⟩⟩
  · rintro ⟨requester, key, h⟩
    obtain rfl : request = granted := Option.some.inj (hParsed.symm.trans h.parsed)
    refine ⟨_, h.published, requester, rfl, (), h.keyId, key, ⟨h.publicKey, h.hashed⟩,
      requester.matrixUserId, ⟨h.sent, rfl⟩, (request, allowance),
      (authorizeExecRequestWithAllowance_eq_ok_iff hParsed).mpr
        ⟨rfl, h.signed, h.trusted, h.allowed⟩, (), h.device, (), h.sandboxed, ?_⟩
    simp only [firstDisallowedRemoteOverride_eq_none_iff.mpr h.overrides]
    rfl

theorem authorizeContent_eq_ok_iff {env : LiveEnv} :
    authorizeContent crypto regexNew env room content roomId sender = .ok (granted, allowance) ↔
      ∃ requester key,
        Granted crypto regexNew env room content roomId sender requester key granted allowance := by
  rw [authorizeContent, bind_eq_ok]
  constructor
  · rintro ⟨request, hParsed, h⟩
    exact (authorizeLiveExec_eq_ok_iff (okOr_eq_ok.mp hParsed)).mp h
  · rintro ⟨requester, key, h⟩
    exact ⟨granted, okOr_eq_ok.mpr h.parsed,
      (authorizeLiveExec_eq_ok_iff h.parsed).mpr ⟨requester, key, h⟩⟩

theorem disallowedOverride_of_subset {stricter looser : List String} {name : String}
    (h : stricter ⊆ looser) (hAllowed : disallowedOverride stricter name = false) :
    disallowedOverride looser name = false := by
  simp only [disallowedOverride, isAllowedVar, Bool.or_eq_false_iff, Bool.not_eq_false',
    Bool.or_eq_true, List.contains_iff_mem] at hAllowed ⊢
  exact ⟨hAllowed.1, hAllowed.2.imp_right (h ·)⟩

/-- A grant stays when more keys are trusted, the policy is loosened or more devices are
verified. -/
theorem Granted.loosen {stricter looser : LiveEnv} {requester : AgentState}
    (hTighter : Tightens stricter looser)
    (h : Granted crypto regexNew stricter room content roomId sender requester key request
      allowance) :
    ∃ other, allowance.Tightens other ∧
      Granted crypto regexNew looser room content roomId sender requester key request other := by
  obtain ⟨other, hAllow, hLimits⟩ := Policy.evaluateExec_of_tightens hTighter.policy h.allowed
  refine ⟨other, hLimits, { h with
    trusted := hTighter.trust _ h.trusted
    allowed := hAllow
    device := fun hRequired =>
      hTighter.senderVerified _ (h.device (hLimits.requireVerifiedDevice hRequired))
    sandboxed := fun hRequired => ?_
    overrides := fun name hName =>
      disallowedOverride_of_subset hLimits.envAllowlist (h.overrides name hName) }⟩
  rw [← hLimits.sandbox]
  exact h.sandboxed (hLimits.requireSandbox hRequired)

/-- Live exec authorization is exact: it gives the content's request and the policy's own allowance
exactly when every condition is met. And it is antitone: what passes where less is trusted and
allowed, passes where more is. -/
theorem authorizeContent_exact_and_antitone (crypto : Crypto Key) (regexNew : RegexNew)
    (room : RoomView) (content : Value) (roomId : String) (sender : Option String) :
    (∀ env request allowance,
      authorizeContent crypto regexNew env room content roomId sender = .ok (request, allowance) ↔
        ∃ requester key,
          Granted crypto regexNew env room content roomId sender requester key request allowance) ∧
      ∀ stricter looser request allowance, Tightens stricter looser →
        authorizeContent crypto regexNew stricter room content roomId sender =
          .ok (request, allowance) →
        ∃ other, allowance.Tightens other ∧
          authorizeContent crypto regexNew looser room content roomId sender =
            .ok (request, other) := by
  refine ⟨fun _ _ _ => authorizeContent_eq_ok_iff, ?_⟩
  intro stricter looser request allowance hTighter h
  obtain ⟨requester, key, hGranted⟩ := authorizeContent_eq_ok_iff.mp h
  obtain ⟨other, hLimits, hOther⟩ := hGranted.loosen hTighter
  exact ⟨other, hLimits, authorizeContent_eq_ok_iff.mpr ⟨requester, key, hOther⟩⟩

end MxAgent.System.ExecAuthorization
