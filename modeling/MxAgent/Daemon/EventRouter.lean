import MxAgent.Protocol.Schema
import MxAgent.Daemon.Replay

/-! The sync router. It parses each incoming event and admits execution
requests through its replay cache before anything is dispatched. -/
namespace MxAgent.Daemon

open Protocol

structure IncomingEvent where
  eventType : String
  roomId : String
  sender : String
  eventId : Option String
  stateKey : Option String
  encrypted : Bool
  content : Value
  deriving DecidableEq

structure EventMeta where
  eventType : String
  roomId : String
  sender : String
  eventId : Option String
  stateKey : Option String
  deriving DecidableEq

inductive EventCategory where
  | execRequest | execAccepted | execRejected | execFinished | execStdin | execCancel
  | execCancelled | ptyResize | callRequest | callResponse | streamChunk | streamArtifact
  | task | invocation | approvalRequest | approvalDecision | heartbeat
  deriving DecidableEq, Repr

def encryptedEventType : String := "m.room.encrypted"

def classify (eventType : String) : Option EventCategory :=
  match eventType with
  | "com.mxagent.exec.request.v1" => some .execRequest
  | "com.mxagent.exec.accepted.v1" => some .execAccepted
  | "com.mxagent.exec.rejected.v1" => some .execRejected
  | "com.mxagent.exec.finished.v1" => some .execFinished
  | "com.mxagent.exec.stdin.v1" => some .execStdin
  | "com.mxagent.exec.cancel.v1" => some .execCancel
  | "com.mxagent.exec.cancelled.v1" => some .execCancelled
  | "com.mxagent.pty.resize.v1" => some .ptyResize
  | "com.mxagent.call.request.v1" => some .callRequest
  | "com.mxagent.call.response.v1" => some .callResponse
  | "com.mxagent.stream.chunk.v1" => some .streamChunk
  | "com.mxagent.stream.artifact.v1" => some .streamArtifact
  | "com.mxagent.approval.request.v1" => some .approvalRequest
  | "com.mxagent.approval.decision.v1" => some .approvalDecision
  | "com.mxagent.heartbeat.v1" => some .heartbeat
  | "com.mxagent.task.v1" => some .task
  | "com.mxagent.invocation.v1" => some .invocation
  | _ => none

/-- A parsed event. Routing looks into the two request payloads only. -/
inductive RoutedEvent where
  | execRequest (request : ExecRequest)
  | callRequest (request : CallRequest)
  | other (category : EventCategory) (content : Value)
  deriving DecidableEq

inductive RouteOutcome where
  | dispatched (category : EventCategory)
  | ignored
  | skippedEncrypted
  | malformed (category : EventCategory)
  | replayRejected (category : EventCategory)
  deriving DecidableEq, Repr

def RouteOutcome.wasDispatched : RouteOutcome → Bool
  | .dispatched _ => true
  | _ => false

/-- `parse_routed`. `wellFormed` stands for the other deserializers. -/
def parseRouted (wellFormed : EventCategory → Value → Bool) (category : EventCategory)
    (content : Value) : Option RoutedEvent :=
  match category with
  | .execRequest => (ExecRequest.fromValue content).map .execRequest
  | .callRequest => (CallRequest.fromValue content).map .callRequest
  | category => if wellFormed category content then some (.other category content) else none

def RoutedEvent.nonceUse : RoutedEvent → Option NonceUse
  | .execRequest request => some ⟨request.nonce, request.expiresAt⟩
  | .callRequest request => some ⟨request.nonce, request.expiresAt⟩
  | .other .. => none

structure EventRouter where
  replay : ReplayCache
  deriving DecidableEq

namespace EventRouter

variable (order : EvictionOrder) (wellFormed : EventCategory → Value → Bool)

/-- `admit_decision_nonce`: burn a decision's nonce in the router's own cache. -/
def admitDecisionNonce (router : EventRouter) (nonce expiresAt : String) (now : Int)
    (write : IoResult) (disk : ReplayDisk) : Bool × EventRouter × ReplayDisk :=
  let (result, replay, disk) := router.replay.admitAt order nonce expiresAt now write disk
  (result.isOk, ⟨replay⟩, disk)

/-- Steps 1 to 3 of `route`, before the nonce is looked at. -/
def parseEvent (event : IncomingEvent) : Except RouteOutcome (EventCategory × RoutedEvent) :=
  if event.encrypted ∨ event.eventType = encryptedEventType then .error .skippedEncrypted
  else match classify event.eventType with
    | none => .error .ignored
    | some category =>
      match parseRouted wellFormed category event.content with
      | none => .error (.malformed category)
      | some routed => .ok (category, routed)

/-- `route`. A dispatched event is handed on with its metadata. -/
def route (router : EventRouter) (event : IncomingEvent) (now : Int) (write : IoResult)
    (disk : ReplayDisk) :
    RouteOutcome × Option (EventMeta × RoutedEvent) × EventRouter × ReplayDisk :=
  let eventMeta : EventMeta :=
    ⟨event.eventType, event.roomId, event.sender, event.eventId, event.stateKey⟩
  match parseEvent wellFormed event with
  | .error outcome => (outcome, none, router, disk)
  | .ok (category, routed) =>
    match routed.nonceUse with
    | none => (.dispatched category, some (eventMeta, routed), router, disk)
    | some use =>
      let (result, replay, disk) :=
        router.replay.admitAt order use.nonce use.expiresAt now write disk
      match result with
      | .ok () => (.dispatched category, some (eventMeta, routed), ⟨replay⟩, disk)
      | .error _ => (.replayRejected category, none, ⟨replay⟩, disk)

def presentedUse (event : IncomingEvent) : Option NonceUse :=
  match parseEvent wellFormed event with
  | .error _ => none
  | .ok (_, routed) => routed.nonceUse

theorem presentedUse_execRequest (event : IncomingEvent) (request : ExecRequest)
    (hClear : event.encrypted = false) (hType : event.eventType = "com.mxagent.exec.request.v1")
    (hContent : event.content = request.toValue) :
    presentedUse wellFormed event = some ⟨request.nonce, request.expiresAt⟩ := by
  have hPlain : ¬ (event.encrypted ∨ event.eventType = encryptedEventType) := by
    rw [hClear, hType]
    decide
  have hCategory : classify event.eventType = some .execRequest := by
    rw [hType]
    rfl
  have hRouted : parseRouted wellFormed .execRequest event.content =
      some (.execRequest request) := by
    rw [parseRouted, hContent, ExecRequest.fromValue_toValue]
    rfl
  have hParse : parseEvent wellFormed event = .ok (.execRequest, .execRequest request) := by
    rw [parseEvent, if_neg hPlain, hCategory]
    simp only [hRouted]
  rw [presentedUse, hParse]
  rfl

theorem route_of_presentedUse_none (router : EventRouter) {event : IncomingEvent} (now : Int)
    (write : IoResult) (disk : ReplayDisk) (h : presentedUse wellFormed event = none) :
    (route order wellFormed router event now write disk).2.2 = (router, disk) := by
  unfold presentedUse at h
  unfold route
  cases hParse : parseEvent wellFormed event with
  | error outcome => rfl
  | ok parsed =>
    simp only [hParse] at h
    simp only [h]

/-- An event that presents a nonce is dispatched exactly when it is admitted, with the cache and
file of the admission. -/
theorem route_of_presentedUse (router : EventRouter) {event : IncomingEvent} (now : Int)
    (write : IoResult) (disk : ReplayDisk) {use : NonceUse}
    (h : presentedUse wellFormed event = some use) :
    (route order wellFormed router event now write disk).1.wasDispatched =
        (router.replay.admitAt order use.nonce use.expiresAt now write disk).1.isOk ∧
      (route order wellFormed router event now write disk).2.2 =
        (⟨(router.replay.admitAt order use.nonce use.expiresAt now write disk).2.1⟩,
          (router.replay.admitAt order use.nonce use.expiresAt now write disk).2.2) := by
  unfold presentedUse at h
  unfold route
  cases hParse : parseEvent wellFormed event with
  | error outcome => simp [hParse] at h
  | ok parsed =>
    simp only [hParse] at h
    simp only [h]
    cases hAdmit : (router.replay.admitAt order use.nonce use.expiresAt now write disk).1 <;>
      exact ⟨rfl, rfl⟩

end EventRouter

end MxAgent.Daemon
