import MxAgent.Daemon.Identity
import MxAgent.Foundations.Base64

/-! The controls of a live invocation: stdin, cancel and resize frames that the
invocation's requester signs, and that are applied once per session. -/
namespace MxAgent.Daemon

open Std Protocol

structure PtyWinsize where
  rows : UInt16
  cols : UInt16
  pixelWidth : UInt16
  pixelHeight : UInt16
  deriving DecidableEq

/-- What a handler sends. On stdin `none` is the end of the input. -/
inductive ControlSend where
  | stdin (frame : Option (List UInt8))
  | cancel (reason : String)
  | resize (size : PtyWinsize)
  deriving DecidableEq

structure LiveExecControl where
  requesterAgent : String
  /-- Whether there is a resize channel: an invocation with a terminal has one. -/
  terminal : Bool
  seenControlNonces : ExtTreeSet String
  deriving DecidableEq

abbrev LiveExecControls := ExtTreeMap String LiveExecControl

/-- `admit_control_nonce`: whether the nonce is new, and the session with it. -/
def LiveExecControl.admitControlNonce (control : LiveExecControl) (nonce : String) :
    Bool × LiveExecControl :=
  (!control.seenControlNonces.contains nonce,
    { control with seenControlNonces := control.seenControlNonces.insert nonce })

variable {Key : Type} (crypto : Crypto Key)

def authorizeControlFromStates (agents : List AgentState) (requesterAgentId : String)
    (content : Value) (keyId : String) (trust : TrustStore) : Except Unit Unit := do
  let agent ← Fallible.okOr (agents.find? fun agent => agent.agentId == requesterAgentId) ()
  Fallible.ensure (agent.signingKeyId == keyId) ()
  let verifyingKey ← (verifyingKeyFromAgentState crypto agent).mapError fun _ => ()
  (verify crypto verifyingKey content).mapError fun _ => ()
  Fallible.ensure (trust.isKeyTrusted keyId) ()

def authorizeLiveControl (room : RoomView) (trust : TrustStore) (content : Value)
    (keyId requesterAgentId : String) : Except Unit Unit := do
  let agents ← room.agentStates.mapError fun _ => ()
  authorizeControlFromStates crypto agents requesterAgentId content keyId trust

/-- What the three handlers share: the session is looked up, the frame authorized, its nonce
admitted, and `sends` goes out. -/
def handleLiveControl (room : RoomView) (trust : TrustStore) (controls : LiveExecControls)
    (invocationId : String) (content : Value) (keyId nonce : String)
    (sends : LiveExecControl → List ControlSend) : LiveExecControls × List ControlSend :=
  match controls[invocationId]? with
  | none => (controls, [])
  | some control =>
    match authorizeLiveControl crypto room trust content keyId control.requesterAgent with
    | .error _ => (controls, [])
    | .ok _ =>
      let (fresh, control) := control.admitControlNonce nonce
      (controls.insert invocationId control, if fresh then sends control else [])

/-- Malformed data is dropped, together with the end of the input. -/
def stdinSends (stdin : ExecStdin) : List ControlSend :=
  match Base64.decode stdin.data with
  | none => []
  | some data =>
    (if data.isEmpty then [] else [.stdin (some data)]) ++
      if stdin.eof then [.stdin none] else []

def cancelSends (cancel : ExecCancel) : List ControlSend := [.cancel cancel.reason]

def resizeSends (resize : PtyResize) (control : LiveExecControl) : List ControlSend :=
  if control.terminal then
    [.resize ⟨resize.rows, resize.cols, resize.pixelWidth, resize.pixelHeight⟩]
  else []

def handleLiveExecStdin (room : RoomView) (trust : TrustStore) (controls : LiveExecControls)
    (content : Value) (stdin : ExecStdin) : LiveExecControls × List ControlSend :=
  handleLiveControl crypto room trust controls stdin.invocationId content stdin.signature.keyId
    stdin.nonce fun _ => stdinSends stdin

def handleLiveExecCancel (room : RoomView) (trust : TrustStore) (controls : LiveExecControls)
    (content : Value) (cancel : ExecCancel) : LiveExecControls × List ControlSend :=
  handleLiveControl crypto room trust controls cancel.invocationId content
    cancel.signature.keyId cancel.nonce fun _ => cancelSends cancel

def handleLivePtyResize (room : RoomView) (trust : TrustStore) (controls : LiveExecControls)
    (content : Value) (resize : PtyResize) : LiveExecControls × List ControlSend :=
  handleLiveControl crypto room trust controls resize.invocationId content
    resize.signature.keyId resize.nonce (resizeSends resize)

inductive ControlFrame where
  | stdin (frame : ExecStdin)
  | cancel (frame : ExecCancel)
  | resize (frame : PtyResize)
  deriving DecidableEq

namespace ControlFrame

def invocationId : ControlFrame → String
  | stdin frame => frame.invocationId
  | cancel frame => frame.invocationId
  | resize frame => frame.invocationId

def nonce : ControlFrame → String
  | stdin frame => frame.nonce
  | cancel frame => frame.nonce
  | resize frame => frame.nonce

def signature : ControlFrame → Signature
  | stdin frame => frame.signature
  | cancel frame => frame.signature
  | resize frame => frame.signature

def toValue : ControlFrame → Value
  | stdin frame => frame.toValue
  | cancel frame => frame.toValue
  | resize frame => frame.toValue

def sends (control : LiveExecControl) : ControlFrame → List ControlSend
  | stdin frame => stdinSends frame
  | cancel frame => cancelSends frame
  | resize frame => resizeSends frame control

/-- The control arms of `handle_routed_events`. -/
def handle (room : RoomView) (trust : TrustStore) (controls : LiveExecControls) :
    ControlFrame → LiveExecControls × List ControlSend
  | stdin frame => handleLiveExecStdin crypto room trust controls frame.toValue frame
  | cancel frame => handleLiveExecCancel crypto room trust controls frame.toValue frame
  | resize frame => handleLivePtyResize crypto room trust controls frame.toValue frame

variable {crypto}

theorem handle_eq (room : RoomView) (trust : TrustStore) (controls : LiveExecControls)
    (frame : ControlFrame) :
    frame.handle crypto room trust controls =
      handleLiveControl crypto room trust controls frame.invocationId frame.toValue
        frame.signature.keyId frame.nonce fun control => frame.sends control := by
  cases frame <;> rfl

end ControlFrame

variable {crypto}

/-- An authorized frame carries the key id of its requester's first state, whose key verifies the
content and is trusted. -/
theorem authorizeControlFromStates_eq_ok_iff {agents : List AgentState} {requesterAgentId : String}
    {content : Value} {keyId : String} {trust : TrustStore} :
    authorizeControlFromStates crypto agents requesterAgentId content keyId trust = .ok () ↔
      ∃ agent verifyingKey,
        agents.find? (fun agent => agent.agentId == requesterAgentId) = some agent ∧
        agent.signingKeyId = keyId ∧
        verifyingKeyFromAgentState crypto agent = .ok verifyingKey ∧
        verify crypto verifyingKey content = .ok () ∧ trust.isKeyTrusted keyId := by
  simp only [authorizeControlFromStates, Fallible.bind_eq_ok, Fallible.okOr_eq_ok,
    Fallible.ensure_eq_ok, Fallible.mapError_eq_ok, beq_iff_eq]
  constructor
  · rintro ⟨agent, hAgent, -, hKeyId, verifyingKey, hKey, ⟨⟩, hVerify, hTrusted⟩
    exact ⟨agent, verifyingKey, hAgent, hKeyId, hKey, hVerify, hTrusted⟩
  · rintro ⟨agent, verifyingKey, hAgent, hKeyId, hKey, hVerify, hTrusted⟩
    exact ⟨agent, hAgent, (), hKeyId, verifyingKey, hKey, (), hVerify, hTrusted⟩

end MxAgent.Daemon
