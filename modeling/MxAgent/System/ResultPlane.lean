import MxAgent.Daemon.ExecSubscribers

/-! The result plane of the daemon: clients subscribe and leave, and events come
in from the room. An event that is delivered was verified for the sender that the
client pinned when it subscribed. -/
namespace MxAgent.System.ResultPlane

open Protocol Daemon

structure Incoming where
  rooms : String → Option RoomView
  trust : TrustStore
  eventMeta : EventMeta
  event : ForwardedExecEvent

/-- A client's subscription. Its receiver can be closed before it is dropped. -/
structure Lease where
  key : ExecSubscriptionKey
  id : Nat
  expectedSender : String
  held : Bool
  isOpen : Bool

structure Delivery where
  channel : Nat
  incoming : Incoming

/-- The registry, the leases by channel, and what was delivered so far. -/
structure Plane where
  registry : ExecSubscriberRegistry
  leases : List Lease
  deliveries : List Delivery

def start : Plane := ⟨.new, [], []⟩

inductive Label where
  | subscribe (key : ExecSubscriptionKey) (expectedSender : String)
  | drop (channel : Nat)
  | hangUp (channel : Nat)
  | event (incoming : Incoming)

namespace Plane

def isOpen (plane : Plane) (channel : Nat) : Bool := plane.leases[channel]?.any Lease.isOpen

def pin (plane : Plane) (channel : Nat) : Option (ExecSubscriptionKey × String) :=
  plane.leases[channel]?.map fun lease => (lease.key, lease.expectedSender)

def deliveriesTo (plane : Plane) (channel : Nat) : List Delivery :=
  plane.deliveries.filter fun delivery => delivery.channel == channel

end Plane

variable {Key : Type} (crypto : Crypto Key)

def step (plane : Plane) : Label → Plane
  | .subscribe key expectedSender =>
    let (id, registry) := plane.registry.subscribe key expectedSender plane.leases.length
    { plane with registry, leases := plane.leases ++ [⟨key, id, expectedSender, true, true⟩] }
  | .drop channel =>
    match plane.leases[channel]? with
    | none => plane
    | some lease =>
      if lease.held then
        { plane with
          registry := plane.registry.unregister lease.key lease.id
          leases := plane.leases.set channel { lease with held := false, isOpen := false } }
      else plane
  | .hangUp channel =>
    { plane with
      leases := plane.leases.modify channel fun lease => { lease with isOpen := false } }
  | .event incoming =>
    let (registry, recipients) := publishForwarded crypto incoming.rooms incoming.trust
      plane.registry plane.isOpen incoming.eventMeta incoming.event
    { plane with
      registry
      deliveries := plane.deliveries ++ recipients.map fun sub => ⟨sub.tx, incoming⟩ }

def run (labels : List Label) : Plane := labels.foldl (step crypto) start

/-- The event carries the id, comes from the sender, and is signed with a trusted key that an agent
of the sender publishes under its key id. -/
structure Genuine (key : ExecSubscriptionKey) (expectedSender : String) (incoming : Incoming) :
    Prop where
  id : (∃ id, key = .invocation id ∧
      incoming.event.toValue.field? "invocation_id" = some (.string id)) ∨
    ∃ id, key = .request id ∧ incoming.event.toValue.field? "request_id" = some (.string id)
  sender : incoming.eventMeta.sender = expectedSender
  signed : ∃ room agents agent verifyingKey,
    incoming.rooms incoming.eventMeta.roomId = some room ∧ room.agentStates = .ok agents ∧
    agent ∈ agents ∧ agent.matrixUserId = incoming.eventMeta.sender ∧
    verifyingKeyFromAgentState crypto agent = .ok verifyingKey ∧
    crypto.keyIdForVerifyingKey verifyingKey = agent.signingKeyId ∧
    verify crypto verifyingKey incoming.event.toValue = .ok () ∧
    embeddedKeyId incoming.event.toValue = some agent.signingKeyId ∧
    incoming.trust.isKeyTrusted agent.signingKeyId

variable {crypto}

/-! ## One step -/

variable {plane : Plane}

theorem pin_step {label : Label} {channel : Nat} {pinned : ExecSubscriptionKey × String}
    (h : plane.pin channel = some pinned) :
    (step crypto plane label).pin channel = some pinned := by
  obtain ⟨lease, hLease, rfl⟩ := Option.map_eq_some_iff.mp h
  obtain ⟨hLength, -⟩ := List.getElem?_eq_some_iff.mp hLease
  cases label with
  | subscribe key expectedSender =>
    simp only [step, Plane.pin]
    rw [List.getElem?_append_left hLength, hLease]
    rfl
  | drop dropped =>
    simp only [step]
    split
    · exact h
    · rename_i found hFound
      split
      · by_cases hSame : dropped = channel
        · subst hSame
          rw [hLease, Option.some.injEq] at hFound
          simp [Plane.pin, hLength, hFound]
        · simp [Plane.pin, List.getElem?_set_ne hSame, hLease]
      · exact h
  | hangUp closed =>
    simp only [step, Plane.pin, List.getElem?_modify, hLease]
    split <;> rfl
  | event incoming => exact h

/-- A registered subscriber was registered before, or has just subscribed. -/
theorem mem_subscribers_step {label : Label} {sub : Subscriber}
    (h : sub ∈ (step crypto plane label).registry.subscribers) :
    sub ∈ plane.registry.subscribers ∨
      (step crypto plane label).pin sub.tx = some (sub.key, sub.expectedSender) := by
  cases label with
  | subscribe key expectedSender =>
    simp only [step, ExecSubscriberRegistry.subscribe, List.mem_append,
      List.mem_singleton] at h
    rcases h with hOld | rfl
    · exact .inl hOld
    · right
      simp [step, Plane.pin]
  | drop channel =>
    left
    simp only [step] at h
    split at h
    · exact h
    · split at h
      · exact (List.mem_filter.mp h).1
      · exact h
  | hangUp channel => exact .inl h
  | event incoming =>
    left
    simp only [step, publishForwarded] at h
    split at h
    · exact h
    · exact (ExecSubscriberRegistry.mem_publish.mp h).1

/-- A step delivers a verified event, to subscribers of its key who pinned its sender. -/
theorem mem_deliveries_step {label : Label} {delivery : Delivery}
    (h : delivery ∈ (step crypto plane label).deliveries) :
    delivery ∈ plane.deliveries ∨
      label = .event delivery.incoming ∧
      verifyForwardedEvent crypto delivery.incoming.rooms delivery.incoming.trust
        delivery.incoming.eventMeta delivery.incoming.event = .ok () ∧
      ∃ sub ∈ plane.registry.subscribers, sub.tx = delivery.channel ∧
        sub.key = delivery.incoming.event.key ∧
        sub.expectedSender = delivery.incoming.eventMeta.sender := by
  cases label with
  | subscribe key expectedSender => exact .inl h
  | drop channel =>
    left
    simp only [step] at h
    split at h
    · exact h
    · split at h
      · exact h
      · exact h
  | hangUp channel => exact .inl h
  | event incoming =>
    simp only [step, publishForwarded, List.mem_append, List.mem_map] at h
    rcases h with hOld | ⟨sub, hSub, rfl⟩
    · exact .inl hOld
    right
    split at hSub
    · cases hSub
    · rename_i hVerify
      obtain ⟨hMem, hKey, hSender, -⟩ := ExecSubscriberRegistry.mem_recipients.mp hSub
      exact ⟨rfl, hVerify, sub, hMem, rfl, hKey, hSender⟩

/-- A verified event is genuine for the key it has and the sender it comes from. -/
theorem genuine_of_verified {incoming : Incoming}
    (h : verifyForwardedEvent crypto incoming.rooms incoming.trust incoming.eventMeta
      incoming.event = .ok ()) :
    Genuine crypto incoming.event.key incoming.eventMeta.sender incoming := by
  obtain ⟨agent, hExecutor, hResult⟩ := Fallible.bind_eq_ok.mp h
  obtain ⟨room, agents, hRoom, hAgents, hFind⟩ := executorState_eq_ok_iff.mp hExecutor
  obtain ⟨verifyingKey, hKey, hVerify, hKeyId, hTrusted⟩ :=
    verifyResultSignature_eq_ok_iff.mp hResult
  exact ⟨incoming.event.key_cases, rfl, room, agents, agent, verifyingKey, hRoom, hAgents,
    List.mem_of_find?_eq_some hFind, by simpa using List.find?_some hFind, hKey,
    keyId_of_verifyingKeyFromAgentState hKey, hVerify, hKeyId, hTrusted⟩

/-! ## Runs -/

variable (crypto) in
/-- Registered subscribers stand for their channels' leases, and every delivery was genuine for its
lease. -/
structure Invariant (plane : Plane) : Prop where
  pinned : ∀ sub ∈ plane.registry.subscribers,
    plane.pin sub.tx = some (sub.key, sub.expectedSender)
  genuine : ∀ delivery ∈ plane.deliveries, ∃ key expectedSender,
    plane.pin delivery.channel = some (key, expectedSender) ∧
      Genuine crypto key expectedSender delivery.incoming

theorem Invariant.step (h : Invariant crypto plane) (label : Label) :
    Invariant crypto (step crypto plane label) where
  pinned sub hSub := by
    rcases mem_subscribers_step hSub with hOld | hNew
    · exact pin_step (h.pinned sub hOld)
    · exact hNew
  genuine delivery hDelivery := by
    rcases mem_deliveries_step hDelivery with
      hOld | ⟨-, hVerify, sub, hSub, hChannel, hKey, hSender⟩
    · obtain ⟨key, expectedSender, hPin, hGenuine⟩ := h.genuine delivery hOld
      exact ⟨key, expectedSender, pin_step hPin, hGenuine⟩
    · refine ⟨_, _, pin_step (hChannel ▸ h.pinned sub hSub), ?_⟩
      rw [hKey, hSender]
      exact genuine_of_verified hVerify

theorem invariant_run (labels : List Label) : Invariant crypto (run crypto labels) := by
  unfold run
  have hStart : Invariant crypto start :=
    ⟨by simp [start, ExecSubscriberRegistry.new], by simp [start]⟩
  generalize start = plane at hStart
  induction labels generalizing plane with
  | nil => exact hStart
  | cons label rest ih => exact ih _ (hStart.step label)

theorem registered_of_event (incoming : Incoming) {sub : Subscriber}
    (hSub : sub ∈ plane.registry.subscribers) (hOpen : plane.isOpen sub.tx) :
    sub ∈ (step crypto plane (.event incoming)).registry.subscribers := by
  simp only [step, publishForwarded]
  split
  · exact hSub
  · exact ExecSubscriberRegistry.mem_publish.mpr ⟨hSub, by simp [hOpen]⟩

/-- An event that is not genuine for a subscription is not delivered to it. -/
theorem deliveriesTo_of_not_genuine (h : Invariant crypto plane) {incoming : Incoming}
    {channel : Nat} {key : ExecSubscriptionKey} {expectedSender : String}
    (hPin : plane.pin channel = some (key, expectedSender))
    (hForged : ¬ Genuine crypto key expectedSender incoming) :
    (step crypto plane (.event incoming)).deliveriesTo channel = plane.deliveriesTo channel := by
  simp only [step, Plane.deliveriesTo, publishForwarded, List.filter_append]
  split
  · simp
  · rename_i hVerify
    rw [List.append_right_eq_self, List.filter_eq_nil_iff]
    rintro delivery hDelivery hChannel
    obtain ⟨sub, hSub, rfl⟩ := List.mem_map.mp hDelivery
    obtain ⟨hMem, hKey, hSender, -⟩ := ExecSubscriberRegistry.mem_recipients.mp hSub
    obtain rfl : sub.tx = channel := beq_iff_eq.mp hChannel
    have hSame : (sub.key, sub.expectedSender) = (key, expectedSender) :=
      Option.some.inj ((h.pinned sub hMem).symm.trans hPin)
    obtain ⟨rfl, rfl⟩ := Prod.mk.inj hSame
    rw [hKey, hSender] at hForged
    exact hForged (genuine_of_verified hVerify)

variable (crypto) in
/-- In every run, an event is delivered only to subscriptions it is genuine for: made for its id and
its sender, and signed with a trusted key that an agent of the sender publishes; with ideal
signatures, this key has signed it. Any other event is not delivered, and none takes out a
subscriber whose receiver is open. -/
theorem result_plane_sound (labels : List Label) :
    (∀ delivery ∈ (run crypto labels).deliveries, ∃ key expectedSender,
      (run crypto labels).pin delivery.channel = some (key, expectedSender) ∧
      Genuine crypto key expectedSender delivery.incoming) ∧
    (∀ incoming : Incoming,
      (∀ sub ∈ (run crypto labels).registry.subscribers,
        (run crypto labels).isOpen sub.tx →
        sub ∈ (step crypto (run crypto labels) (.event incoming)).registry.subscribers) ∧
      ∀ channel key expectedSender,
        (run crypto labels).pin channel = some (key, expectedSender) →
        ¬ Genuine crypto key expectedSender incoming →
        (step crypto (run crypto labels) (.event incoming)).deliveriesTo channel =
          (run crypto labels).deliveriesTo channel) ∧
    ∀ signed : Key → ByteArray → Prop, (∀ key, crypto.Unforgeable key (signed key)) →
      ∀ key expectedSender incoming, Genuine crypto key expectedSender incoming →
        ∃ room agents agent verifyingKey bytes,
          incoming.rooms incoming.eventMeta.roomId = some room ∧ room.agentStates = .ok agents ∧
          agent ∈ agents ∧ agent.matrixUserId = expectedSender ∧
          verifyingKeyFromAgentState crypto agent = .ok verifyingKey ∧
          signingBytes incoming.event.toValue = .ok bytes ∧ signed verifyingKey bytes := by
  have hInvariant : Invariant crypto (run crypto labels) := invariant_run labels
  refine ⟨hInvariant.genuine, fun incoming => ⟨fun sub hSub hOpen =>
    registered_of_event incoming hSub hOpen, fun channel key expectedSender hPin hForged =>
      deliveriesTo_of_not_genuine hInvariant hPin hForged⟩, ?_⟩
  rintro signed hIdeal key expectedSender incoming ⟨-, hSender, room, agents, agent, verifyingKey,
    hRoom, hAgents, hMem, hUser, hKey, -, hVerify, -, -⟩
  obtain ⟨bytes, hBytes, hSigned⟩ := signed_of_verify (hIdeal verifyingKey) hVerify
  exact ⟨room, agents, agent, verifyingKey, bytes, hRoom, hAgents, hMem, hUser.trans hSender,
    hKey, hBytes, hSigned⟩

end MxAgent.System.ResultPlane
