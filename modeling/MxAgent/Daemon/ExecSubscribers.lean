import MxAgent.Daemon.ResultVerify

/-! The registry of subscribers that wait for results, and its channels. -/
namespace MxAgent.Daemon

open Protocol

/-- A registered subscriber. `tx` names the channel it is served by. -/
structure Subscriber where
  key : ExecSubscriptionKey
  id : Nat
  expectedSender : String
  tx : Nat
  deriving DecidableEq

/-- The registry's lists by key, as one list of entries with a key. -/
structure ExecSubscriberRegistry where
  nextId : Nat
  subscribers : List Subscriber
  deriving DecidableEq

structure ForwardStats where
  delivered : Nat
  pruned : Nat
  filtered : Nat
  deriving DecidableEq

inductive SendOutcome where
  | filtered
  | delivered
  | pruned
  deriving DecidableEq

def SendOutcome.stays : SendOutcome → Bool
  | .pruned => false
  | _ => true

namespace ExecSubscriberRegistry

def new : ExecSubscriberRegistry := ⟨0, []⟩

def subscribe (registry : ExecSubscriberRegistry) (key : ExecSubscriptionKey)
    (expectedSender : String) (tx : Nat) : Nat × ExecSubscriberRegistry :=
  (registry.nextId,
    { nextId := min (registry.nextId + 1) (2 ^ 64 - 1)
      subscribers := registry.subscribers ++ [⟨key, registry.nextId, expectedSender, tx⟩] })

/-- Dropping an `ExecSubscription` takes out what has its key and id. -/
def unregister (registry : ExecSubscriberRegistry) (key : ExecSubscriptionKey) (id : Nat) :
    ExecSubscriberRegistry :=
  { registry with
    subscribers := registry.subscribers.filter fun sub => !(sub.key == key && sub.id == id) }

/-- One turn of the loop, for a subscriber. It fails without a receiver. -/
def turn (isOpen : Nat → Bool) (sender : String) (sub : Subscriber) : SendOutcome :=
  if sub.expectedSender ≠ sender then .filtered
  else if isOpen sub.tx then .delivered
  else .pruned

def recipients (registry : ExecSubscriberRegistry) (isOpen : Nat → Bool)
    (event : ForwardedExecEvent) (sender : String) : List Subscriber :=
  registry.subscribers.filter fun sub =>
    sub.key == event.key && turn isOpen sender sub == .delivered

def publish (registry : ExecSubscriberRegistry) (isOpen : Nat → Bool)
    (event : ForwardedExecEvent) (sender : String) : ForwardStats × ExecSubscriberRegistry :=
  let turns := (registry.subscribers.filter fun sub => sub.key == event.key).map
    (turn isOpen sender)
  (⟨turns.count .delivered, turns.count .pruned, turns.count .filtered⟩,
    { registry with
      subscribers := registry.subscribers.filter fun sub =>
        sub.key != event.key || (turn isOpen sender sub).stays })

variable {registry : ExecSubscriberRegistry} {isOpen : Nat → Bool} {event : ForwardedExecEvent}
  {sender : String} {sub : Subscriber}

theorem mem_recipients :
    sub ∈ registry.recipients isOpen event sender ↔
      sub ∈ registry.subscribers ∧ sub.key = event.key ∧ sub.expectedSender = sender ∧
        isOpen sub.tx := by
  have hTurn : turn isOpen sender sub = .delivered ↔
      sub.expectedSender = sender ∧ isOpen sub.tx := by
    unfold turn
    by_cases hSender : sub.expectedSender = sender
    · cases hOpen : isOpen sub.tx <;> simp [hSender]
    · simp [hSender]
  simp [recipients, List.mem_filter, hTurn]

/-- Only a subscriber whose receiver is gone goes out. -/
theorem mem_publish :
    sub ∈ (registry.publish isOpen event sender).2.subscribers ↔
      sub ∈ registry.subscribers ∧
        ¬ (sub.key = event.key ∧ sub.expectedSender = sender ∧ isOpen sub.tx = false) := by
  have hTurn : (turn isOpen sender sub).stays ↔
      (sub.expectedSender = sender → isOpen sub.tx) := by
    unfold turn
    by_cases hSender : sub.expectedSender = sender
    · cases hOpen : isOpen sub.tx <;> simp [hSender, SendOutcome.stays]
    · simp [hSender, SendOutcome.stays]
  simp only [publish, List.mem_filter, Bool.or_eq_true, bne_iff_ne, hTurn,
    ← Bool.not_eq_true (isOpen sub.tx)]
  refine and_congr_right fun _ => ?_
  tauto

end ExecSubscriberRegistry

/-- `publish_forwarded`: the registry afterwards, and who is sent the event. -/
def publishForwarded {Key : Type} (crypto : Crypto Key) (rooms : String → Option RoomView)
    (trust : TrustStore) (registry : ExecSubscriberRegistry) (isOpen : Nat → Bool)
    (eventMeta : EventMeta) (event : ForwardedExecEvent) :
    ExecSubscriberRegistry × List Subscriber :=
  match verifyForwardedEvent crypto rooms trust eventMeta event with
  | .error _ => (registry, [])
  | .ok _ =>
    ((registry.publish isOpen event eventMeta.sender).2,
      registry.recipients isOpen event eventMeta.sender)

end MxAgent.Daemon
