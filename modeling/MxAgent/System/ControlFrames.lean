import MxAgent.Daemon.LiveControl
import MxAgent.System.VerifiedDecisions

/-! The control frames that reach a live session. The three handlers share the
session's set of nonces, which only authorized frames enter, so that what is applied
depends on the authorized frames alone. -/
namespace MxAgent.System.ControlFrames

open Std Protocol Daemon VerifiedDecisions

variable {Key : Type} (crypto : Crypto Key) (agents : List AgentState) (trust : TrustStore)

def roomOf : RoomView where
  agentState _ := .ok none
  agentStates := .ok agents

def forwarded : LiveExecControls → List ControlFrame → List (ControlFrame × List ControlSend)
  | _, [] => []
  | controls, frame :: rest =>
    let (controls, sends) := frame.handle crypto (roomOf agents) trust controls
    if sends = [] then forwarded controls rest
    else (frame, sends) :: forwarded controls rest

def accepts (session : LiveExecControl) (frame : ControlFrame) : Bool :=
  authorizeControlFromStates crypto agents session.requesterAgent frame.toValue
    frame.signature.keyId trust = .ok ()

def carriesEffect (session : LiveExecControl) : ControlFrame → Bool
  | .stdin frame =>
    match Base64.decode frame.data with
    | none => false
    | some data => !data.isEmpty || frame.eof
  | .cancel _ => true
  | .resize _ => session.terminal

/-- The frame is to be applied: it is authorized, no earlier authorized one has its nonce, and it
carries an effect. -/
def due (session : LiveExecControl) (earlier : List ControlFrame) (frame : ControlFrame) : Bool :=
  accepts crypto agents trust session frame &&
    !session.seenControlNonces.contains frame.nonce &&
    !(earlier.any fun other =>
      accepts crypto agents trust session other && other.nonce == frame.nonce) &&
    carriesEffect session frame

def dueFrames (session : LiveExecControl) : List ControlFrame → List ControlFrame →
    List ControlFrame
  | _, [] => []
  | earlier, frame :: rest =>
    if due crypto agents trust session earlier frame then
      frame :: dueFrames session (earlier ++ [frame]) rest
    else dueFrames session (earlier ++ [frame]) rest

variable {crypto agents trust}

variable {session : LiveExecControl} {frame : ControlFrame} {controls : LiveExecControls}
  {invocationId : String}

theorem carriesEffect_iff : carriesEffect session frame ↔ frame.sends session ≠ [] := by
  cases frame with
  | stdin frame =>
    simp only [carriesEffect, ControlFrame.sends, stdinSends]
    cases Base64.decode frame.data with
    | none => simp
    | some data => cases data <;> cases frame.eof <;> simp
  | cancel frame => simp [carriesEffect, ControlFrame.sends, cancelSends]
  | resize frame =>
    simp only [carriesEffect, ControlFrame.sends, resizeSends]
    cases session.terminal <;> simp

/-! ## One frame -/

theorem authorizeLiveControl_roomOf (content : Value) (keyId requesterAgentId : String) :
    authorizeLiveControl crypto (roomOf agents) trust content keyId requesterAgentId =
      authorizeControlFromStates crypto agents requesterAgentId content keyId trust := rfl

theorem handle_other (hOther : frame.invocationId ≠ invocationId) :
    (frame.handle crypto (roomOf agents) trust controls).1[invocationId]? =
      controls[invocationId]? := by
  rw [ControlFrame.handle_eq, handleLiveControl]
  split
  · rfl
  · split
    · rfl
    · rw [ExtTreeMap.getElem?_insert, if_neg fun hEq => hOther (LawfulEqCmp.eq_of_compare hEq)]

theorem handle_denied (hSession : controls[frame.invocationId]? = some session)
    (hDenied : accepts crypto agents trust session frame = false) :
    frame.handle crypto (roomOf agents) trust controls = (controls, []) := by
  rw [ControlFrame.handle_eq, handleLiveControl, hSession]
  simp only [authorizeLiveControl_roomOf]
  cases hAuthorize : authorizeControlFromStates crypto agents session.requesterAgent
      frame.toValue frame.signature.keyId trust with
  | error error => rfl
  | ok done => simp [accepts, hAuthorize] at hDenied

/-- An authorized frame leaves its nonce, and sends what it carries if the nonce is new. -/
theorem handle_accepted (hSession : controls[frame.invocationId]? = some session)
    (hAccepted : accepts crypto agents trust session frame) :
    frame.handle crypto (roomOf agents) trust controls =
      (controls.insert frame.invocationId
        { session with seenControlNonces := session.seenControlNonces.insert frame.nonce },
        if session.seenControlNonces.contains frame.nonce then [] else frame.sends session) := by
  have hAuthorize : authorizeControlFromStates crypto agents session.requesterAgent
      frame.toValue frame.signature.keyId trust = .ok () := by
    simpa [accepts] using hAccepted
  have hSends : frame.sends
      { session with seenControlNonces := session.seenControlNonces.insert frame.nonce } =
      frame.sends session := by
    cases frame <;> rfl
  rw [ControlFrame.handle_eq, handleLiveControl, hSession]
  simp only [authorizeLiveControl_roomOf, hAuthorize, LiveExecControl.admitControlNonce, hSends]
  cases session.seenControlNonces.contains frame.nonce <;> rfl

/-! ## A sequence of frames -/

variable (crypto agents trust) in
/-- The session after some frames: the nonces of the authorized ones were added, nothing else
changed. -/
structure After (session : LiveExecControl) (earlier : List ControlFrame)
    (current : LiveExecControl) : Prop where
  requesterAgent : current.requesterAgent = session.requesterAgent
  terminal : current.terminal = session.terminal
  seen : ∀ nonce, current.seenControlNonces.contains nonce =
    (session.seenControlNonces.contains nonce || earlier.any fun other =>
      accepts crypto agents trust session other && other.nonce == nonce)

namespace After

variable {session current : LiveExecControl} {earlier : List ControlFrame} {frame : ControlFrame}

theorem start (session : LiveExecControl) : After crypto agents trust session [] session :=
  ⟨rfl, rfl, by simp⟩

theorem accepts_eq (h : After crypto agents trust session earlier current) :
    accepts crypto agents trust current = accepts crypto agents trust session := by
  funext frame
  simp only [accepts, h.requesterAgent]

theorem sends_eq (h : After crypto agents trust session earlier current) :
    frame.sends current = frame.sends session := by
  cases frame with
  | resize frame => simp only [ControlFrame.sends, resizeSends, h.terminal]
  | _ => rfl

theorem denied (h : After crypto agents trust session earlier current)
    (hDenied : accepts crypto agents trust session frame = false) :
    After crypto agents trust session (earlier ++ [frame]) current :=
  ⟨h.requesterAgent, h.terminal, fun nonce => by simp [h.seen, hDenied]⟩

theorem accepted (h : After crypto agents trust session earlier current)
    (hAccepted : accepts crypto agents trust session frame) :
    After crypto agents trust session (earlier ++ [frame])
      { current with seenControlNonces := current.seenControlNonces.insert frame.nonce } := by
  refine ⟨h.requesterAgent, h.terminal, fun nonce => ?_⟩
  have hInsert : (current.seenControlNonces.insert frame.nonce).contains nonce =
      (frame.nonce == nonce || current.seenControlNonces.contains nonce) := by
    rw [ExtTreeSet.contains_insert, Bool.eq_iff_iff]
    simp
  simp only [hInsert, h.seen, List.any_append, List.any_cons, List.any_nil, Bool.or_false,
    hAccepted, Bool.true_and]
  cases frame.nonce == nonce <;> simp

/-- A frame is due when it is authorized, its nonce is new by then, and it has something to send. -/
theorem due_iff (h : After crypto agents trust session earlier current) :
    due crypto agents trust session earlier frame ↔
      accepts crypto agents trust session frame ∧
        current.seenControlNonces.contains frame.nonce = false ∧ frame.sends session ≠ [] := by
  rw [h.seen, ← carriesEffect_iff]
  simp [due, and_assoc]

end After

variable (crypto agents trust) in
def forwardedTo (invocationId : String) (controls : LiveExecControls)
    (frames : List ControlFrame) : List (ControlFrame × List ControlSend) :=
  (forwarded crypto agents trust controls frames).filter fun entry =>
    entry.1.invocationId == invocationId

theorem forwardedTo_other (hOther : frame.invocationId ≠ invocationId) (rest : List ControlFrame) :
    forwardedTo crypto agents trust invocationId controls (frame :: rest) =
      forwardedTo crypto agents trust invocationId
        (frame.handle crypto (roomOf agents) trust controls).1 rest := by
  simp only [forwardedTo, forwarded]
  split <;> simp [hOther]

theorem forwardedTo_cons (rest : List ControlFrame) :
    forwardedTo crypto agents trust frame.invocationId controls (frame :: rest) =
      (if (frame.handle crypto (roomOf agents) trust controls).2 = [] then []
        else [(frame, (frame.handle crypto (roomOf agents) trust controls).2)]) ++
      forwardedTo crypto agents trust frame.invocationId
        (frame.handle crypto (roomOf agents) trust controls).1 rest := by
  simp only [forwardedTo, forwarded]
  split <;> simp

/-- The frames forwarded are those due, with what they carry. -/
theorem forwardedTo_eq_due {current : LiveExecControl} {earlier : List ControlFrame}
    (hCurrent : controls[invocationId]? = some current)
    (hAfter : After crypto agents trust session earlier current) (frames : List ControlFrame) :
    forwardedTo crypto agents trust invocationId controls frames =
      (dueFrames crypto agents trust session earlier
        (frames.filter fun frame => frame.invocationId == invocationId)).map
          fun frame => (frame, frame.sends session) := by
  induction frames generalizing controls current earlier with
  | nil => rfl
  | cons frame rest ih =>
    by_cases hOther : frame.invocationId = invocationId
    case neg =>
      rw [forwardedTo_other hOther, ih ((handle_other hOther).trans hCurrent) hAfter,
        List.filter_cons_of_neg (by simpa using hOther)]
    subst hOther
    rw [forwardedTo_cons, List.filter_cons_of_pos (by simp), dueFrames]
    cases hAccepts : accepts crypto agents trust session frame with
    | false =>
      have hDue : due crypto agents trust session earlier frame = false := by
        simp [due, hAccepts]
      rw [handle_denied hCurrent (by rw [hAfter.accepts_eq, hAccepts])]
      simp [hDue, ih hCurrent (hAfter.denied hAccepts)]
    | true =>
      have hDue : due crypto agents trust session earlier frame ↔ _ := hAfter.due_iff
      rw [handle_accepted hCurrent (by rw [hAfter.accepts_eq, hAccepts]),
        hAfter.sends_eq]
      rw [ih ExtTreeMap.getElem?_insert_self (hAfter.accepted hAccepts)]
      cases hSeen : current.seenControlNonces.contains frame.nonce with
      | true =>
        have hNot : due crypto agents trust session earlier frame = false := by
          simpa [hAccepts, hSeen] using hDue
        simp [hNot]
      | false =>
        by_cases hSends : frame.sends session = []
        · have hNot : due crypto agents trust session earlier frame = false := by
            simpa [hAccepts, hSeen, hSends] using hDue
          simp [hNot, hSends]
        · have hNow : due crypto agents trust session earlier frame := by
            simpa [hAccepts, hSeen, hSends] using hDue
          simp [hNow, hSends]

/-- Frames that are not authorized do not matter for what is due. -/
theorem dueFrames_filter_accepts {earlier others : List ControlFrame}
    (hSame : others.filter (accepts crypto agents trust session) =
      earlier.filter (accepts crypto agents trust session)) (frames : List ControlFrame) :
    dueFrames crypto agents trust session others
        (frames.filter (accepts crypto agents trust session)) =
      dueFrames crypto agents trust session earlier frames := by
  induction frames generalizing earlier others with
  | nil => rfl
  | cons frame rest ih =>
    have hDue : due crypto agents trust session others frame =
        due crypto agents trust session earlier frame := by
      simp only [due, ← List.any_filter, hSame]
    cases hAccepts : accepts crypto agents trust session frame with
    | false =>
      have hNot : due crypto agents trust session earlier frame = false := by
        simp [due, hAccepts]
      rw [List.filter_cons_of_neg (by simp [hAccepts]), dueFrames, hNot]
      exact ih (by simp [hSame, hAccepts])
    | true =>
      have hNext : (others ++ [frame]).filter (accepts crypto agents trust session) =
          (earlier ++ [frame]).filter (accepts crypto agents trust session) := by
        simp [hSame]
      rw [List.filter_cons_of_pos hAccepts, dueFrames, dueFrames, hDue, ih hNext]

variable (crypto agents trust) in
/-- The frames forwarded to a session are, in order of arrival, the authorized ones whose nonce no
earlier authorized frame had and that carry an effect; they are the same without the unauthorized
frames; and with ideal signatures an authorized frame was signed with the requester's published key,
a trusted one. -/
theorem control_frames_applied_once (invocationId : String) (controls : LiveExecControls)
    (session : LiveExecControl) (hSession : controls[invocationId]? = some session)
    (frames : List ControlFrame) :
    forwardedTo crypto agents trust invocationId controls frames =
      (dueFrames crypto agents trust session []
        (frames.filter fun frame => frame.invocationId == invocationId)).map
          (fun frame => (frame, frame.sends session)) ∧
    forwardedTo crypto agents trust invocationId controls
        (frames.filter (accepts crypto agents trust session)) =
      forwardedTo crypto agents trust invocationId controls frames ∧
    ∀ signed : Key → ByteArray → Prop, (∀ key, crypto.Unforgeable key (signed key)) →
      ∀ frame, accepts crypto agents trust session frame →
        ∃ agent key bytes,
          agents.find? (fun agent => agent.agentId == session.requesterAgent) = some agent ∧
          verifyingKeyFromAgentState crypto agent = .ok key ∧
          frame.signature.keyId = agent.signingKeyId ∧
          trust.isKeyTrusted agent.signingKeyId ∧
          signingBytes frame.toValue = .ok bytes ∧ signed key bytes := by
  have hForwarded (frames : List ControlFrame) :
      forwardedTo crypto agents trust invocationId controls frames = _ :=
    forwardedTo_eq_due hSession (After.start session) frames
  refine ⟨hForwarded frames, ?_, ?_⟩
  · rw [hForwarded, hForwarded, List.filter_comm, dueFrames_filter_accepts rfl]
  · intro signed hIdeal frame hAccepts
    obtain ⟨agent, key, hAgent, hKeyId, hKey, hVerify, hTrusted⟩ :=
      authorizeControlFromStates_eq_ok_iff.mp (of_decide_eq_true hAccepts)
    obtain ⟨bytes, hBytes, hSigned⟩ := signed_of_verify (hIdeal key) hVerify
    exact ⟨agent, key, bytes, hAgent, hKey, hKeyId.symm, hKeyId ▸ hTrusted, hBytes, hSigned⟩

def callerSession : LiveExecControl := ⟨"@caller", false, ∅⟩

def callerSignature (keyId : String) : Signature := ⟨algEd25519, keyId, "c2ln"⟩

def stdinFrame (data nonce : String) : ControlFrame :=
  .stdin ⟨"inv_1", data, false, "1970-01-01T00:00:00Z", nonce,
    callerSignature "mxagent-ed25519:any", ∅, fun _ _ => ExtTreeMap.not_mem_empty⟩

def cancelFrame (keyId : String) : ControlFrame :=
  .cancel ⟨"inv_1", "stop", "1970-01-01T00:00:00Z", "n2", callerSignature keyId, ∅,
    fun _ _ => ExtTreeMap.not_mem_empty⟩

/-- The second copy of a frame is dropped, and so is a cancel under a foreign key, which does not
use up the nonce. -/
theorem replay_dropped :
    forwardedTo lenient [⟨"@caller", "@caller:host", "mxagent-ed25519:any", some "key"⟩]
        ⟨[⟨"@caller", "mxagent-ed25519:any", .trusted⟩]⟩ "inv_1"
        (ExtTreeMap.ofList [("inv_1", callerSession)])
        [stdinFrame "AQ==" "n1", stdinFrame "AQ==" "n1", cancelFrame "mxagent-ed25519:other",
          cancelFrame "mxagent-ed25519:any"] =
      [(stdinFrame "AQ==" "n1", [.stdin (some [1])]),
        (cancelFrame "mxagent-ed25519:any", [.cancel "stop"])] :=
  (control_frames_applied_once lenient _ _ "inv_1" _ callerSession (by decide +kernel)
    _).1.trans (by decide +kernel)

end MxAgent.System.ControlFrames
