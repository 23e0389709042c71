import MxAgent.Foundations.Run
import MxAgent.System.ApprovalRooms

/-! Replay protection at the sync router. The router admits a request's nonce before
anything about the request is verified, and its cache is bounded: to make room, the entry
that expires soonest is evicted. So a nonce is safe from replays until its own expiry only
as long as the cache is not filled up with nonces that expire no sooner. -/
namespace MxAgent.System.RouterReplay

open Protocol Daemon ApprovalRooms LabelledRun

structure State where
  router : EventRouter
  disk : ReplayDisk
  now : Int
  deriving DecidableEq

/-- An event from sync and the time it is routed at. Cache writes succeed. -/
structure Label where
  event : IncomingEvent
  now : Int
  deriving DecidableEq

variable (order : EvictionOrder) (wellFormed : EventCategory → Value → Bool)

def route (s : State) (label : Label) :
    RouteOutcome × Option (EventMeta × RoutedEvent) × EventRouter × ReplayDisk :=
  s.router.route order wellFormed label.event label.now (.ok ()) s.disk

def step (s : State) (label : Label) : State :=
  let (_, _, router, disk) := route order wellFormed s label
  ⟨router, disk, label.now⟩

def dispatches (s : State) (label : Label) : Bool :=
  (route order wellFormed s label).1.wasDispatched

def Ordered (s : State) (label : Label) : Prop := s.now ≤ label.now

instance (s : State) (label : Label) : Decidable (Ordered s label) :=
  inferInstanceAs (Decidable (_ ≤ _))

def fresh (cache : ReplayCache) (now : Int) (use : NonceUse) : Bool :=
  match parseRfc3339ToUnix use.expiresAt with
  | some expiry => decide (now < expiry) && !cache.nonces.contains use.nonce
  | none => false

/-- When a new nonce is recorded, fewer unexpired ones than the capacity expire no sooner than
`expiry`. -/
def Spares (expiry : Int) (s : State) (label : Label) : Prop :=
  Ordered s label ∧ ∀ use ∈ EventRouter.presentedUse wellFormed label.event,
    fresh s.router.replay label.now use →
      ((s.router.replay.nonces.pruneExpired label.now).expiringFrom expiry).size <
        s.router.replay.capacity

instance (expiry : Int) (s : State) (label : Label) : Decidable
    (Spares wellFormed expiry s label) :=
  inferInstanceAs (Decidable (_ ∧ _))

variable {order wellFormed}

variable (order) in
/-- Routing an event leaves the cache alone and dispatches no request, or records its nonce. -/
theorem step_cases (s : State) (label : Label) :
    ((step order wellFormed s label).router = s.router ∧
      ∀ use ∈ EventRouter.presentedUse wellFormed label.event,
        dispatches order wellFormed s label = false) ∨
    ∃ use ∈ EventRouter.presentedUse wellFormed label.event, ∃ expiry,
      parseRfc3339ToUnix use.expiresAt = some expiry ∧
      fresh s.router.replay label.now use ∧ use.nonce ∉ s.router.replay.nonces ∧
      dispatches order wellFormed s label ∧
      (step order wellFormed s label).router.replay =
        s.router.replay.record order use.nonce expiry label.now := by
  cases hUse : EventRouter.presentedUse wellFormed label.event with
  | none =>
    have hState := EventRouter.route_of_presentedUse_none order wellFormed s.router label.now
      (.ok ()) s.disk hUse
    exact .inl ⟨congrArg Prod.fst hState, by simp⟩
  | some use =>
    obtain ⟨hOutcome, hState⟩ := EventRouter.route_of_presentedUse order wellFormed s.router
      label.now (.ok ()) s.disk hUse
    have hRouter := congrArg Prod.fst hState
    rcases ReplayCache.admitAt_written order s.router.replay use.nonce use.expiresAt label.now
      s.disk with ⟨error, hDenied⟩ | ⟨expiry, hParse, hLater, hFresh, hAdmit⟩
    · rw [hDenied] at hOutcome hRouter
      exact .inl ⟨hRouter, fun _ _ => hOutcome⟩
    · rw [hAdmit] at hOutcome hRouter
      refine .inr ⟨use, rfl, expiry, hParse, ?_, hFresh, hOutcome,
        congrArg EventRouter.replay hRouter⟩
      have hUnseen : s.router.replay.nonces.contains use.nonce = false :=
        Bool.eq_false_iff.mpr fun hSeen => hFresh (Std.ExtTreeMap.contains_iff_mem.mp hSeen)
      simp [fresh, hParse, hLater, hUnseen]

def Remembers (use : NonceUse) (s : State) : Prop :=
  nonceLifetime.live s.now use → s.router.replay.nonces.Holds use

theorem remembers_step {use : NonceUse} {expiry : Int} {s : State} {label : Label}
    (hParse : parseRfc3339ToUnix use.expiresAt = some expiry)
    (hGuard : Spares wellFormed expiry s label) (h : Remembers use s) :
    Remembers use (step order wellFormed s label) := by
  intro hLive
  have hHeld : s.router.replay.nonces.Holds use := h (nonceLifetime.antitone hGuard.1 hLive)
  rcases step_cases order s label with
    ⟨hSame, -⟩ | ⟨other, hOther, later, -, hFresh, hNew, -, hRecord⟩
  · rwa [hSame]
  · rw [hRecord]
    exact ReplayCache.record_spares hParse (hGuard.2 other hOther hFresh) hNew hHeld hLive

/-- The nonce of a dispatched request is not dispatched again before the request expires, whatever
is routed in between, unless the cache had to choose among as many unexpired nonces as it can hold
that expire no sooner. -/
theorem replay_refused {start middle : State} {first second : Label} {labels : List Label}
    {use again : NonceUse} {expiry : Int}
    (hFirst : EventRouter.presentedUse wellFormed first.event = some use)
    (hDispatched : dispatches order wellFormed start first)
    (hParse : parseRfc3339ToUnix use.expiresAt = some expiry)
    (run : Run (Spares wellFormed expiry) (step order wellFormed)
      (step order wellFormed start first)
      labels middle)
    (hSecond : EventRouter.presentedUse wellFormed second.event = some again)
    (hNonce : again.nonce = use.nonce) (hTime : middle.now ≤ second.now)
    (hUnexpired : second.now < expiry) :
    dispatches order wellFormed middle second = false := by
  have hStart : Remembers use (step order wellFormed start first) := by
    rcases step_cases order start first with
      ⟨-, hRefused⟩ | ⟨recorded, hRecorded, later, hLater, -, -, -, hRecord⟩
    · rw [hRefused use hFirst] at hDispatched
      cases hDispatched
    · obtain rfl : use = recorded := Option.some.inj (hFirst.symm.trans hRecorded)
      intro _
      rw [hRecord]
      exact ReplayCache.record_holds_self hLater
  have hMiddle : Remembers use middle :=
    run.invariant hStart fun _ _ hGuard h => remembers_step hParse hGuard h
  have hHeld : middle.router.replay.nonces.Holds use :=
    hMiddle ⟨expiry, hParse, lt_of_le_of_lt hTime hUnexpired⟩
  rcases step_cases order middle second with
    ⟨-, hRefused⟩ | ⟨recorded, hRecorded, -, -, -, hNew, -⟩
  · exact hRefused again hSecond
  · obtain rfl : again = recorded := Option.some.inj (hSecond.symm.trans hRecorded)
    exact absurd (hNonce ▸ hHeld.mem) hNew

def buildAt (nonce : String) (now : Int) : Label where
  event :=
    { eventType := "com.mxagent.exec.request.v1"
      roomId := labRoom
      sender := "@runner:example.org"
      eventId := none
      stateKey := none
      encrypted := false
      content := { buildRequest ["make"] with nonce }.toValue }
  now

theorem presentedUse_buildAt (nonce : String) (now : Int) :
    EventRouter.presentedUse (fun _ _ => true) (buildAt nonce now).event =
      some ⟨nonce, "2026-06-02T12:05:00Z"⟩ :=
  EventRouter.presentedUse_execRequest _ _ { buildRequest ["make"] with nonce } rfl rfl rfl

/-- An event with a nonce is routed as the nonce is admitted. -/
theorem route_of_use (s : State) {label : Label} {use : NonceUse}
    (h : EventRouter.presentedUse wellFormed label.event = some use) :
    let admitted := s.router.replay.admitAt order use.nonce use.expiresAt label.now (.ok ()) s.disk
    dispatches order wellFormed s label = admitted.1.isOk ∧
      step order wellFormed s label = ⟨⟨admitted.2.1⟩, admitted.2.2, label.now⟩ := by
  obtain ⟨hOutcome, hState⟩ := EventRouter.route_of_presentedUse order wellFormed s.router
    label.now (.ok ()) s.disk h
  exact ⟨hOutcome,
    congrArg (fun rest : EventRouter × ReplayDisk => State.mk rest.1 rest.2 _) hState⟩

theorem dispatches_buildAt (s : State) (nonce : String) (now : Int) :
    dispatches .byNonce (fun _ _ => true) s (buildAt nonce now) =
      (s.router.replay.admitAt .byNonce nonce "2026-06-02T12:05:00Z" now (.ok ()) s.disk).1.isOk :=
  (route_of_use s (presentedUse_buildAt nonce now)).1

theorem step_buildAt (s : State) (nonce : String) (now : Int) :
    step .byNonce (fun _ _ => true) s (buildAt nonce now) =
      let admitted := s.router.replay.admitAt .byNonce nonce "2026-06-02T12:05:00Z" now (.ok ())
        s.disk
      ⟨⟨admitted.2.1⟩, admitted.2.2, now⟩ :=
  (route_of_use s (presentedUse_buildAt nonce now)).2

def emptyRouter (capacity : Nat) (h : 0 < capacity) : State :=
  ⟨⟨⟨capacity, ∅, h⟩⟩, ⟨none, false⟩, 1780401600⟩

/-- With room for two nonces, one other request in between does no harm. -/
theorem replay_refused_after_one :
    dispatches .byNonce (fun _ _ => true)
      ([buildAt "first" 1780401601, buildAt "other" 1780401602].foldl
        (step .byNonce fun _ _ => true) (emptyRouter 2 (by decide)))
      (buildAt "first" 1780401603) = false := by
  have hParse : parseRfc3339ToUnix "2026-06-02T12:05:00Z" = some 1780401900 := by decide +kernel
  rw [List.foldl_cons]
  refine replay_refused (presentedUse_buildAt "first" _) ?_ hParse
    (Allowed.run (⟨⟨?_, ?_⟩, trivial⟩ : Allowed _ _ _ [buildAt "other" 1780401602]))
    (presentedUse_buildAt "first" _) rfl ?_ (by decide)
  all_goals simp only [List.foldl_cons, List.foldl_nil, dispatches_buildAt, step_buildAt,
    presentedUse_buildAt, Ordered]
  all_goals decide +kernel

/-- With room for one nonce, one other, unauthorized request opens the way for a replay. -/
theorem replay_dispatched_after_flood :
    ¬ ∀ (order : EvictionOrder) (wellFormed : EventCategory → Value → Bool) (start middle : State)
        (first second : Label) (labels : List Label) (use again : NonceUse) (expiry : Int),
        EventRouter.presentedUse wellFormed first.event = some use →
        dispatches order wellFormed start first →
        parseRfc3339ToUnix use.expiresAt = some expiry →
        Run Ordered (step order wellFormed) (step order wellFormed start first) labels middle →
        EventRouter.presentedUse wellFormed second.event = some again →
        again.nonce = use.nonce → middle.now ≤ second.now → second.now < expiry →
        dispatches order wellFormed middle second = false := by
  intro hClaim
  have hParse : parseRfc3339ToUnix "2026-06-02T12:05:00Z" = some 1780401900 := by decide +kernel
  have hRefused := hClaim .byNonce (fun _ _ => true) (emptyRouter 1 (by decide)) _
    (buildAt "first" 1780401601) (buildAt "first" 1780401603) [buildAt "other" 1780401602] _ _ _
    (presentedUse_buildAt "first" _) (by rw [dispatches_buildAt]; decide +kernel) hParse
    (Allowed.run ⟨by rw [step_buildAt]; decide, trivial⟩) (presentedUse_buildAt "first" _) rfl
    (by rw [List.foldl_cons, step_buildAt]; decide) (by decide)
  simp only [List.foldl_cons, List.foldl_nil, dispatches_buildAt, step_buildAt] at hRefused
  revert hRefused
  decide +kernel

end MxAgent.System.RouterReplay
