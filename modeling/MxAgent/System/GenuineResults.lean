import MxAgent.Daemon.ResultVerify

/-! Whether a genuine result is accepted. The executing agent is looked up by its
Matrix user alone, so a result of one agent is checked with the key of the first
agent of the same user. -/
namespace MxAgent.System.GenuineResults

open Std Protocol Daemon

variable {Key : Type} (crypto : Crypto Key)

/-- A listed agent of a user that publishes a key under its key id, and is trusted under it. -/
structure Executor (agents : List AgentState) (trust : TrustStore) (user : String) where
  agent : AgentState
  listed : agent ∈ agents
  matrixUserId : agent.matrixUserId = user
  key : Key
  published : verifyingKeyFromAgentState crypto agent = .ok key
  trusted : trust.isKeyTrusted agent.signingKeyId

structure SignedBy (key : Key) (keyId : String) (content : Value) : Prop where
  verifies : verify crypto key content = .ok ()
  named : ∃ fields signature, content.asObject = some fields ∧
    fields[signatureField]?.bind Signature.fromValue = some signature ∧ signature.keyId = keyId

def FirstPublishes (agents : List AgentState) (user : String) (key : Key) : Prop :=
  ∃ first, agents.find? (fun agent => agent.matrixUserId == user) = some first ∧
    verifyingKeyFromAgentState crypto first = .ok key

/-- Ideal primitives: a key id stands for one key, and a signature for one message. -/
structure Ideal : Prop where
  keyId_injective : Function.Injective crypto.keyIdForVerifyingKey
  one_message : ∀ key first second raw, crypto.verifySlice key first raw = some true →
    crypto.verifySlice key second raw = some true → first = second

variable {crypto} {agents : List AgentState} {trust : TrustStore} {user : String}

theorem field?_key_id (signature : Signature) :
    (signature.toValue.field? "key_id").bind Value.asString = some signature.keyId := by
  rw [Value.field?, Signature.toValue, Value.asObject_ofObject, Option.bind_some,
    Object.flatten_getElem? (by simp [Signature.toFields])]
  rfl

/-- In what is serialized, the embedded key id is the signature's. -/
theorem embeddedKeyId_of_rewritten {schema : EventSchema} {found written : Object}
    (h : Rewritten schema found written) {signature : Signature}
    (hSignature : written[signatureField]?.bind Signature.fromValue = some signature) :
    embeddedKeyId (.ofObject written) = some signature.keyId := by
  rcases Presence.rewrite_cases h.signature with ⟨-, -, hWritten⟩ | ⟨-, -, hWritten⟩ |
    ⟨value, result, -, -, hResult, hWritten⟩
  · rw [hWritten] at hSignature
    cases hSignature
  · rw [hWritten] at hSignature
    cases hSignature
  · obtain ⟨parsed, -, rfl⟩ := Option.map_eq_some_iff.mp hResult
    rw [hWritten, Option.bind_some, Signature.fromValue_toValue, Option.some.injEq] at hSignature
    rw [embeddedKeyId, Value.field?, Value.asObject_ofObject, Option.bind_some, hWritten,
      ← hSignature]
    exact field?_key_id parsed

section Check

variable (executor : Executor crypto agents trust user) {rooms : String → Option RoomView}
  {room : RoomView} {roomId : String} {result : Value}

/-- A result under the executor's key id is checked with the key the user's first state
publishes. -/
theorem check_eq_ok_iff (hRoom : rooms roomId = some room) (hAgents : room.agentStates = .ok agents)
    (hKeyId : embeddedKeyId result = some executor.agent.signingKeyId) :
    (do let agentState ← executorState rooms roomId user
        verifyResultSignature crypto result agentState trust) = .ok () ↔
      ∃ first key, agents.find? (fun agent => agent.matrixUserId == user) = some first ∧
        verifyingKeyFromAgentState crypto first = .ok key ∧
        first.signingKeyId = executor.agent.signingKeyId ∧
        verify crypto key result = .ok () := by
  simp only [Fallible.bind_eq_ok, executorState_eq_ok_iff, verifyResultSignature_eq_ok_iff, hKeyId]
  constructor
  · rintro ⟨first, ⟨_, _, hFound, hStates, hFirst⟩, key, hKey, hVerify, hSame, -⟩
    rw [hRoom, Option.some.injEq] at hFound
    subst hFound
    rw [hAgents, Except.ok.injEq] at hStates
    subst hStates
    exact ⟨first, key, hFirst, hKey, (Option.some.inj hSame).symm, hVerify⟩
  · rintro ⟨first, key, hFirst, hKey, hSame, hVerify⟩
    exact ⟨first, ⟨room, agents, hRoom, hAgents, hFirst⟩, key, hKey, hVerify,
      congrArg some hSame.symm, hSame ▸ executor.trusted⟩

theorem Executor.keyId : crypto.keyIdForVerifyingKey executor.key = executor.agent.signingKeyId :=
  keyId_of_verifyingKeyFromAgentState executor.published

theorem check_of_firstPublishes (hRoom : rooms roomId = some room)
    (hAgents : room.agentStates = .ok agents)
    (hKeyId : embeddedKeyId result = some executor.agent.signingKeyId)
    (hVerify : verify crypto executor.key result = .ok ())
    (hFirst : FirstPublishes crypto agents user executor.key) :
    (do let agentState ← executorState rooms roomId user
        verifyResultSignature crypto result agentState trust) = .ok () := by
  obtain ⟨first, hFound, hKey⟩ := hFirst
  refine (check_eq_ok_iff executor hRoom hAgents hKeyId).mpr
    ⟨first, executor.key, hFound, hKey, ?_, hVerify⟩
  rw [← keyId_of_verifyingKeyFromAgentState hKey, executor.keyId]

/-- With ideal key ids, what passes was checked with the executor's key. -/
theorem firstPublishes_of_check (hIdeal : Ideal crypto) (hRoom : rooms roomId = some room)
    (hAgents : room.agentStates = .ok agents)
    (hKeyId : embeddedKeyId result = some executor.agent.signingKeyId)
    (h : (do let agentState ← executorState rooms roomId user
             verifyResultSignature crypto result agentState trust) = .ok ()) :
    FirstPublishes crypto agents user executor.key ∧ verify crypto executor.key result =
      .ok () := by
  obtain ⟨first, key, hFound, hKey, hSame, hVerify⟩ :=
    (check_eq_ok_iff executor hRoom hAgents hKeyId).mp h
  obtain rfl : key = executor.key := hIdeal.keyId_injective (by
    rw [keyId_of_verifyingKeyFromAgentState hKey, hSame, executor.keyId])
  exact ⟨⟨first, hFound, hKey⟩, hVerify⟩

end Check

/-! ## Typed events -/

theorem toValue_rewritten (event : ForwardedExecEvent) :
    ∃ schema found written, event.toValue = .ofObject written ∧
      Rewritten schema found written := by
  have hStruct {schema : EventSchema} (struct : schema.Struct) :
      ∃ found written, struct.toValue = .ofObject written ∧ Rewritten schema found written := by
    obtain ⟨content, hParsed⟩ := struct.parsed
    obtain ⟨found, written, -, hValue, hRewritten⟩ := rewritten_of_reserialize hParsed
    exact ⟨found, written, hValue, hRewritten⟩
  cases event with
  | _ struct => exact ⟨_, hStruct struct⟩

theorem SignedBy.embeddedKeyId_event {key : Key} {keyId : String} {event : ForwardedExecEvent}
    (h : SignedBy crypto key keyId event.toValue) :
    embeddedKeyId event.toValue = some keyId := by
  obtain ⟨fields, signature, hFields, hSignature, rfl⟩ := h.named
  obtain ⟨schema, found, written, hValue, hRewritten⟩ := toValue_rewritten event
  rw [hValue, Value.asObject_ofObject, Option.some.injEq] at hFields
  subst hFields
  rw [hValue]
  exact embeddedKeyId_of_rewritten hRewritten hSignature

/-- With ideal signatures, contents with the same valid signature have the same signed bytes. -/
theorem signingBytes_eq_of_verify (hIdeal : Ideal crypto) {key : Key} {first second : Value}
    {fields others : Object} {signature : Signature} (hFirst : first.asObject = some fields)
    (hSecond : second.asObject = some others) (hVerify : verify crypto key first = .ok ())
    (hOther : verify crypto key second = .ok ())
    (hSignature : fields[signatureField]?.bind Signature.fromValue = some signature)
    (hSame : others[signatureField]?.bind Signature.fromValue = some signature) :
    signingBytes second = signingBytes first := by
  obtain ⟨_, _, bytes, hFields, hRead, hBytes, hValid⟩ := verify_eq_ok_iff.mp hVerify
  obtain ⟨_, _, otherBytes, hOthers, hOtherRead, hOtherBytes, hOtherValid⟩ :=
    verify_eq_ok_iff.mp hOther
  cases hFirst.symm.trans hFields
  cases hSecond.symm.trans hOthers
  cases hSignature.symm.trans hRead
  cases hSame.symm.trans hOtherRead
  obtain ⟨-, raw, hRaw, hSlice⟩ := verifySignature_eq_ok_iff.mp hValid
  obtain ⟨-, otherRaw, hOtherRaw, hOtherSlice⟩ := verifySignature_eq_ok_iff.mp hOtherValid
  cases hRaw.symm.trans hOtherRaw
  rw [hBytes, hOtherBytes, hIdeal.one_message key otherBytes bytes raw hOtherSlice hSlice]

/-! ## Received call responses -/

/-- The optional fields of a call response are both there, possibly `null`. -/
def spelledOut (content : Value) : Bool :=
  (content.field? "result").isSome && (content.field? "error").isSome

variable {type : FieldType}

theorem keeps_value (hType : type ≠ .streamKind) (value : Value) : type.keeps value := by
  cases type <;> first | rfl | exact absurd rfl hType

theorem keeps_nullable {name : String} (hType : type ≠ .streamKind)
    (found : Option Value) : Field.keeps ⟨name, type, .nullable⟩ found = found.isSome := by
  cases found with
  | none => rfl
  | some value => cases value <;> simp [Field.keeps, keeps_value hType]

theorem keeps_required {name : String} (hType : type ≠ .streamKind)
    (found : Option Value) : Field.keeps ⟨name, type, .required⟩ found := by
  cases found with
  | none => rfl
  | some value => cases value <;> simp [Field.keeps, keeps_value hType]

theorem keeps_callResponse (found : Object) :
    callResponse.keeps found = (found["result"]?.isSome && found["error"]?.isSome) := by
  simp [EventSchema.keeps, callResponse, keeps_nullable, keeps_required]

/-- A response read and written back carries its signature, which is valid if the optional fields
are spelled out. -/
theorem SignedBy.reserialize {key : Key} {keyId : String} {content written : Value}
    (h : SignedBy crypto key keyId content) (hDistinct : content.distinctKeys)
    (hParsed : callResponse.reserialize content = some written) :
    embeddedKeyId written = some keyId ∧
      (spelledOut content → verify crypto key written = .ok ()) ∧
      (Ideal crypto → verify crypto key written = .ok () → spelledOut content) := by
  obtain ⟨found, result, hContent, rfl, hRewritten⟩ := rewritten_of_reserialize hParsed
  obtain ⟨fields, signature, hFields, hSignature, rfl⟩ := h.named
  obtain rfl : found = fields := Option.some.inj (hContent.symm.trans hFields)
  have hSpelled : spelledOut content = callResponse.keeps found := by
    simp [spelledOut, keeps_callResponse, Value.field?, hContent]
  have hFree : (Value.ofObject found.unsigned).floatFree := by
    obtain ⟨_, _, bytes, -, -, hBytes, -⟩ := verify_eq_ok_iff.mp h.verifies
    by_contra hFloat
    rw [signingBytes_float hContent (by simpa using hFloat)] at hBytes
    cases hBytes
  have hSame : signingBytes (.ofObject result) = signingBytes content ↔
      spelledOut content := by
    rw [hRewritten.signingBytes_iff hContent fun name value hValue =>
      distinctKeys_field? hDistinct (by rw [Value.field?, hContent]; exact hValue), hSpelled, hFree]
    simp
  refine ⟨embeddedKeyId_of_rewritten hRewritten
    ((hRewritten.signature_iff signature).mpr hSignature),
    fun hKept => (hRewritten.verify_iff hContent (hSame.mpr hKept)).mpr h.verifies,
    fun hIdeal hVerify => hSame.mp ?_⟩
  exact signingBytes_eq_of_verify hIdeal hContent (Value.asObject_ofObject result) h.verifies
    hVerify hSignature ((hRewritten.signature_iff signature).mpr hSignature)

/-- A genuine result passes if its user's first state publishes the key of the agent that signed it,
and so does a genuine call response with both its optional fields. With ideal primitives, no other
passes. -/
theorem genuine_accepted_iff (crypto : Crypto Key) (agents : List AgentState) (trust : TrustStore)
    (user : String) (executor : Executor crypto agents trust user)
    (rooms : String → Option RoomView) (room : RoomView) (roomId : String)
    (hRoom : rooms roomId = some room) (hAgents : room.agentStates = .ok agents) :
    (∀ (eventMeta : EventMeta) (event : ForwardedExecEvent), eventMeta.roomId = roomId →
      eventMeta.sender = user →
      SignedBy crypto executor.key executor.agent.signingKeyId event.toValue →
      (FirstPublishes crypto agents user executor.key →
        verifyForwardedEvent crypto rooms trust eventMeta event = .ok ()) ∧
      (Ideal crypto → (verifyForwardedEvent crypto rooms trust eventMeta event = .ok () ↔
        FirstPublishes crypto agents user executor.key))) ∧
    ∀ content : Value, content.distinctKeys →
      (callResponse.reserialize content).isSome →
      SignedBy crypto executor.key executor.agent.signingKeyId content →
      (FirstPublishes crypto agents user executor.key ∧ spelledOut content →
        verifyCallResponseSignature crypto rooms trust roomId content user = .ok ()) ∧
      (Ideal crypto →
        (verifyCallResponseSignature crypto rooms trust roomId content user = .ok () ↔
          FirstPublishes crypto agents user executor.key ∧ spelledOut content)) := by
  constructor
  · rintro eventMeta event rfl rfl hSigned
    have hPasses := check_of_firstPublishes executor hRoom hAgents hSigned.embeddedKeyId_event
      hSigned.verifies
    refine ⟨hPasses, fun hIdeal => ⟨fun h => ?_, hPasses⟩⟩
    exact (firstPublishes_of_check executor hIdeal hRoom hAgents hSigned.embeddedKeyId_event h).1
  · intro content hDistinct hParsed hSigned
    obtain ⟨written, hWritten⟩ := Option.isSome_iff_exists.mp hParsed
    obtain ⟨hKeyId, hKept, hOnly⟩ := hSigned.reserialize hDistinct hWritten
    have hCall : verifyCallResponseSignature crypto rooms trust roomId content user = .ok () ↔
        (do let agentState ← executorState rooms roomId user
            verifyResultSignature crypto written agentState trust) = .ok () := by
      simp [verifyCallResponseSignature, hWritten, Fallible.bind_eq_ok]
    have hPasses (h : FirstPublishes crypto agents user executor.key ∧ spelledOut content) :
        verifyCallResponseSignature crypto rooms trust roomId content user = .ok () :=
      hCall.mpr (check_of_firstPublishes executor hRoom hAgents hKeyId (hKept h.2) h.1)
    refine ⟨hPasses, fun hIdeal => ⟨fun h => ?_, hPasses⟩⟩
    obtain ⟨hFirst, hVerify⟩ :=
      firstPublishes_of_check executor hIdeal hRoom hAgents hKeyId (hCall.mp h)
    exact ⟨hFirst, hOnly hIdeal hVerify⟩

/-! ## Two agents of one user -/

/-- A scheme in which a signature is the name of the key it was made with. -/
def named : Crypto String where
  verifySlice key _ raw := some (decide (raw = key.toUTF8))
  decodeVerifyingKey text := some text
  keyIdForVerifyingKey key := "mxagent-ed25519:" ++ key

def laptop : AgentState := ⟨"@laptop", "@dev:host", "mxagent-ed25519:a", some "a"⟩

def server : AgentState := ⟨"@server", "@dev:host", "mxagent-ed25519:b", some "b"⟩

def bothTrusted : TrustStore :=
  ⟨[⟨"@laptop", "mxagent-ed25519:a", .trusted⟩, ⟨"@server", "mxagent-ed25519:b", .trusted⟩]⟩

def roomOf (agents : List AgentState) : RoomView := ⟨fun _ => .ok none, .ok agents⟩

def fromDev : EventMeta := ⟨"com.mxagent.exec.rejected.v1", "!room:host", "@dev:host", none, none⟩

def serverSignature : Value :=
  Signature.toValue ⟨algEd25519, "mxagent-ed25519:b", encodeRaw "b".toUTF8⟩

def rejectedContent : Value :=
  .object [("invocation_id", .string "inv_1"), ("reason", .string "policy_denied"),
    ("signature", serverSignature)]

def serverRejected : ForwardedExecEvent :=
  .execRejected ⟨rejectedContent, rejectedContent, by decide +kernel⟩

def serverResponse : Value :=
  .object [("error", .null), ("ok", .bool true), ("request_id", .string "req_1"),
    ("result", .ofNat 7), ("signature", serverSignature)]

theorem rejected_signedBy : SignedBy named "b" server.signingKeyId serverRejected.toValue :=
  ⟨by decide +kernel, _, ⟨algEd25519, "mxagent-ed25519:b", encodeRaw "b".toUTF8⟩, rfl,
    by decide +kernel, rfl⟩

theorem response_signedBy : SignedBy named "b" server.signingKeyId serverResponse :=
  ⟨by decide +kernel, _, ⟨algEd25519, "mxagent-ed25519:b", encodeRaw "b".toUTF8⟩, rfl,
    by decide +kernel, rfl⟩

/-- What the server has signed passes where the server is listed first. -/
theorem server_first_accepted :
    verifyForwardedEvent named (fun _ => some (roomOf [server, laptop])) bothTrusted fromDev
      serverRejected = .ok () ∧
    verifyCallResponseSignature named (fun _ => some (roomOf [server, laptop])) bothTrusted
      "!room:host" serverResponse "@dev:host" = .ok () := by
  obtain ⟨hEvents, hResponses⟩ := genuine_accepted_iff named [server, laptop] bothTrusted
    "@dev:host" ⟨server, by decide, rfl, "b", by decide +kernel, by decide +kernel⟩
    (fun _ => some (roomOf [server, laptop])) _ "!room:host" rfl rfl
  have hFirst : FirstPublishes named [server, laptop] "@dev:host" "b" :=
    ⟨server, rfl, by decide +kernel⟩
  exact ⟨(hEvents fromDev serverRejected rfl rfl rejected_signedBy).1 hFirst,
    (hResponses serverResponse (by decide +kernel) (by decide +kernel) response_signedBy).1
      ⟨hFirst, by decide +kernel⟩⟩

/-- Where another agent of the same user is listed first, both are rejected. -/
theorem laptop_first_rejected :
    server ∈ [laptop, server] ∧ server.matrixUserId = fromDev.sender ∧
    verifyingKeyFromAgentState named server = .ok "b" ∧
    bothTrusted.isKeyTrusted server.signingKeyId ∧
    SignedBy named "b" server.signingKeyId serverRejected.toValue ∧
    verifyForwardedEvent named (fun _ => some (roomOf [laptop, server])) bothTrusted fromDev
      serverRejected = .error .invalid ∧
    SignedBy named "b" server.signingKeyId serverResponse ∧
    verifyCallResponseSignature named (fun _ => some (roomOf [laptop, server])) bothTrusted
      "!room:host" serverResponse "@dev:host" = .error "invalid_signature" :=
  ⟨by decide, rfl, by decide +kernel, by decide +kernel, rejected_signedBy, by decide +kernel,
    response_signedBy, by decide +kernel⟩

end MxAgent.System.GenuineResults
