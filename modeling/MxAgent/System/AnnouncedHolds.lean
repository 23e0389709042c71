import MxAgent.Foundations.Run
import MxAgent.Daemon.LiveEvents
import MxAgent.System.ApprovalRooms

/-! What was announced and what runs. An operator sees the approval request that
a hold sends to the room and decides by its request id; the request that then runs is
the one the queue holds under that id. The requester chooses the id, and putting a
second hold under an id replaces the first. -/
namespace MxAgent.System.AnnouncedHolds

open Protocol Daemon LabelledRun

/-- The live daemon and, for each id, the request first announced since the id was last absent from
the stored queue. -/
structure State where
  live : LiveState
  announced : String → Option HeldRequest

def announcedId : LiveEffect → Option String
  | .approvalRequested _ approval => some approval.requestId
  | _ => none

/-- An announcement counts for an id that the queue did not hold before. -/
def announce (queue : ApprovalQueue) (request : Option HeldRequest) (effects : List LiveEffect)
    (announced : String → Option HeldRequest) : String → Option HeldRequest := fun requestId =>
  if queue.get requestId = none ∧ requestId ∈ effects.filterMap announcedId then request
  else announced requestId

variable {Key : Type} (crypto : Crypto Key) (regexNew : RegexNew) (order : EvictionOrder)

def step (s : State) (event : LiveEvent) : State :=
  let (live, effects) := event.handle crypto regexNew order s.live
  ⟨live, announce s.live.file.queue event.request effects s.announced⟩

def start (live : LiveState) : State :=
  ⟨live, fun requestId => (live.file.queue.get requestId).bind PendingApproval.heldRequest⟩

def Gated (_ : State) (event : LiveEvent) : Prop :=
  event.request.isSome → event.needsApproval crypto regexNew

instance (s : State) (event : LiveEvent) : Decidable (Gated crypto regexNew s event) :=
  inferInstanceAs (Decidable (_ → _))

/-- A request for approval under a stored id is the one held there. -/
def NotReused (s : State) (event : LiveEvent) : Prop :=
  event.needsApproval crypto regexNew → ∀ held ∈ event.request,
    ∀ pending ∈ s.live.file.queue.get held.requestId, pending.heldRequest = some held

instance (s : State) (event : LiveEvent) : Decidable (NotReused crypto regexNew s event) :=
  inferInstanceAs (Decidable (_ → _))

def HoldsAnnounced (s : State) : Prop :=
  ∀ requestId pending held, s.live.file.queue.get requestId = some pending →
    pending.heldRequest = some held → s.announced requestId = some held

variable {crypto regexNew order}

theorem holdsAnnounced_start (live : LiveState) : HoldsAnnounced (start live) := by
  intro requestId pending held hGet hHeld
  simp only [start] at hGet ⊢
  rw [hGet, Option.bind_some, hHeld]

variable {pending : PendingApproval}

/-- What a hold leaves in the queue file is the hold itself or was there before. -/
theorem get_enqueueHold {env : LiveEnv} {file : QueueFile} {other : PendingApproval}
    {requestId : String} (h : (enqueueHold env file pending).queue.get requestId = some other) :
    (pending.requestId = requestId ∧ other = pending) ∨
      file.queue.get requestId = some other := by
  unfold enqueueHold at h
  cases hWrite : env.queueWrite with
  | error kind =>
    rw [hWrite, ApprovalQueue.save_error] at h
    exact .inr h
  | ok _ =>
    rw [hWrite, ApprovalQueue.queue_save_ok, KeyedQueue.Queue.get_put] at h
    split at h
    · rename_i hId
      exact .inl ⟨hId, (Option.some.inj h).symm⟩
    · exact .inr (ApprovalQueue.get_of_loadOrDefault h)

theorem get_of_removeHold {env : LiveEnv} {file : QueueFile} {removed requestId : String}
    (h : (removeHold env file removed).queue.get requestId = some pending) :
    file.queue.get requestId = some pending := by
  unfold removeHold at h
  cases hWrite : env.queueWrite with
  | error kind =>
    rw [hWrite, ApprovalQueue.save_error] at h
    exact h
  | ok _ =>
    rw [hWrite, ApprovalQueue.queue_save_ok, KeyedQueue.Queue.get_remove] at h
    split at h
    · cases h
    · exact ApprovalQueue.get_of_loadOrDefault h

theorem announcedId_of_silent {effects : List LiveEffect}
    (h : ∀ roomId approval, .approvalRequested roomId approval ∉ effects) :
    effects.filterMap announcedId = [] := by
  rw [List.filterMap_eq_nil_iff]
  intro effect hEffect
  cases effect with
  | approvalRequested roomId approval => exact absurd hEffect (h roomId approval)
  | _ => rfl

/-- Nothing is announced anew under an id that no approval request names. -/
theorem announce_of_silent {queue : ApprovalQueue} {request : Option HeldRequest}
    {effects : List LiveEffect} {announced : String → Option HeldRequest}
    (h : ∀ roomId approval, .approvalRequested roomId approval ∉ effects) :
    announce queue request effects announced = announced := by
  funext requestId
  simp [announce, announcedId_of_silent h]

theorem holdsAnnounced_of_notHeld {s : State} {event : LiveEvent} (h : HoldsAnnounced s)
    (hQuiet : LiveEvent.NotHeld s.live (event.handle crypto regexNew order s.live)) :
    HoldsAnnounced (step crypto regexNew order s event) := by
  have hSame : step crypto regexNew order s event = s := by
    simp only [step, announce_of_silent hQuiet.silent, hQuiet.state]
  rwa [hSame]

/-- A hold is announced under its id if that is free; else it is the one announced there. -/
theorem holdsAnnounced_of_held {s : State} {event : LiveEvent} {held : HeldRequest}
    (h : HoldsAnnounced s) (hNeeds : event.needsApproval crypto regexNew)
    (hNotReused : NotReused crypto regexNew s event)
    (hHeld : LiveEvent.Held event pending held s.live
      (event.handle crypto regexNew order s.live)) :
    HoldsAnnounced (step crypto regexNew order s event) := by
  intro requestId other request hGet hRequest
  simp only [step, hHeld.state] at hGet
  simp only [step, hHeld.effects, hHeld.request]
  rcases get_enqueueHold hGet with ⟨hId, rfl⟩ | hOld
  · obtain rfl : request = held := Option.some.inj (hRequest.symm.trans hHeld.hold.heldRequest)
    cases hQueued : s.live.file.queue.get requestId with
    | none =>
      have hNamed : requestId ∈ [LiveEffect.approvalRequested other.roomId other.request].filterMap
          announcedId := List.mem_singleton.mpr hId.symm
      rw [announce, if_pos ⟨hQueued, hNamed⟩]
    | some queued =>
      have hSame : queued.heldRequest = some request :=
        hNotReused hNeeds request hHeld.request queued
          (by rwa [← hHeld.hold.requestId, hId])
      rw [announce, if_neg (by simp [hQueued])]
      exact h requestId queued request hQueued hSame
  · rw [announce, if_neg (by simp [hOld])]
    exact h requestId other request hOld hRequest

theorem holdsAnnounced_decision {s : State} (h : HoldsAnnounced s) (env : LiveEnv)
    (eventMeta : EventMeta) (decision : ApprovalDecision) :
    HoldsAnnounced (step crypto regexNew order s (.approvalDecision env eventMeta decision)) := by
  intro requestId pending held hGet hHeld
  simp only [step, LiveEvent.handle] at hGet ⊢
  rcases handleLiveApprovalDecision_cases crypto regexNew order env s.live eventMeta decision with
    ⟨hFile, hEffects⟩ | ⟨settled, request, room, -, -, hFile, hEffects⟩
  · rw [announce_of_silent (by simp [hEffects])]
    exact h requestId pending held (hFile ▸ hGet) hHeld
  · rw [announce_of_silent (hEffects ▸ settleHold_silent)]
    exact h requestId pending held (get_of_removeHold (hFile ▸ hGet)) hHeld

theorem holdsAnnounced_step (s : State) (event : LiveEvent)
    (hNotReused : NotReused crypto regexNew s event) (h : HoldsAnnounced s) :
    HoldsAnnounced (step crypto regexNew order s event) := by
  rcases event.handle_cases crypto regexNew order s.live with ⟨env, eventMeta, decision, rfl⟩ |
    ⟨-, hQuiet⟩ | ⟨hNeeds, pending, held, hHeld⟩
  · exact holdsAnnounced_decision h env eventMeta decision
  · exact holdsAnnounced_of_notHeld h hQuiet
  · exact holdsAnnounced_of_held h hNeeds hNotReused hHeld

/-- In a run that does not reuse the id of a queued hold for another request, whatever a decision
runs, releases or denies is the request announced under its id. The queue file may fail at any
step. -/
theorem settled_was_announced {live : LiveState} {events : List LiveEvent} {s : State}
    (run : Run (NotReused crypto regexNew) (step crypto regexNew order) (start live) events s)
    (env : LiveEnv) (eventMeta : EventMeta) (decision : ApprovalDecision) {effect : LiveEffect}
    (hEffect : effect ∈
      (handleLiveApprovalDecision crypto regexNew order env s.live eventMeta decision).2)
    {held : HeldRequest} (hHeld : effect.held = some held) :
    s.announced decision.requestId = some held := by
  have hAnnounced : HoldsAnnounced s :=
    run.invariant (holdsAnnounced_start live) holdsAnnounced_step
  rcases handleLiveApprovalDecision_cases crypto regexNew order env s.live eventMeta decision with
    ⟨-, hEffects⟩ | ⟨pending, request, room, hHold, -, -, hEffects⟩
  · rw [hEffects] at hEffect
    cases hEffect
  · rw [hEffects] at hEffect
    obtain ⟨hGet, hRequest⟩ := get_of_liveHold hHold
    rw [(settleHold_concerns hEffect).2 held hHeld]
    exact hAnnounced _ pending request hGet hRequest

section ReusedId

open ApprovalRooms

/-- In the lab whatever the runner or the lead runs needs an approval. -/
def approvalPolicy : Policy where
  execution := ExecutionPolicy.empty
  rooms := .ofList [(labRoom, { RoomPolicy.empty with
    trusted := true
    approvers := ["@lead:example.org"]
    agents := .ofList [("@runner:example.org", buildPolicy true),
      ("@lead:example.org", buildPolicy true)] })]

def labEnv (now : Int) : LiveEnv := { twoRoomEnv now with policy := approvalPolicy }

def noon : Int := 1780401660

def requestEvent (request : ExecRequest) : LiveEvent :=
  .execRequest (labEnv noon)
    ⟨"com.mxagent.exec.request.v1", labRoom, "@runner:example.org", none, none⟩ request

def docsRequest : ExecRequest := buildRequest ["make", "docs"]

def deployRequest : ExecRequest :=
  { buildRequest ["make", "deploy"] with
    invocationId := "inv-2"
    nonce := "other-nonce"
    idempotencyKey := "exec:inv-2" }

def idle : LiveState := ⟨.absent, some freshRouter, ⟨none, false⟩⟩

def afterEvents (events : List LiveEvent) : State :=
  events.foldl (step namedKeys (fun _ => none) .byNonce) (start idle)

def leadDecides (s : LiveState) : LiveState × List LiveEffect :=
  handleLiveApprovalDecision namedKeys (fun _ => none) .byNonce (labEnv noon) s
    (decisionMeta labRoom "@lead:example.org") leadApproves

/-- One hold, delivered twice, and its approval. -/
theorem settled_was_announced_redelivered :
    .execSpawned labRoom docsRequest
        { Allowance.empty with requiresApproval := true } ∈
      (leadDecides (afterEvents [requestEvent docsRequest, requestEvent docsRequest]).live).2 ∧
    (afterEvents [requestEvent docsRequest, requestEvent docsRequest]).announced "req-1" =
      some (.exec docsRequest) := by
  have hSpawned : .execSpawned labRoom docsRequest
        { Allowance.empty with requiresApproval := true } ∈
      (leadDecides (afterEvents [requestEvent docsRequest, requestEvent docsRequest]).live).2 := by
    decide +kernel
  refine ⟨hSpawned, ?_⟩
  exact settled_was_announced (Allowed.run (by decide +kernel)) (labEnv noon)
    (decisionMeta labRoom "@lead:example.org") leadApproves hSpawned rfl

/-- The lead is shown a build of the documentation; a deployment under its id runs on their
approval. -/
theorem unannounced_request_runs :
    ¬ ∀ (crypto : Crypto String) (regexNew : RegexNew) (order : EvictionOrder)
        (live : LiveState) (events : List LiveEvent) (s : State) (env : LiveEnv)
        (eventMeta : EventMeta) (decision : ApprovalDecision) (effect : LiveEffect)
        (held : HeldRequest),
        Run (Gated crypto regexNew) (step crypto regexNew order) (start live) events s →
        effect ∈
          (handleLiveApprovalDecision crypto regexNew order env s.live eventMeta decision).2 →
        effect.held = some held → s.announced decision.requestId = some held := by
  intro hClaim
  have hAnnounced := hClaim namedKeys (fun _ => none) .byNonce idle
    [requestEvent docsRequest, requestEvent deployRequest]
    (afterEvents [requestEvent docsRequest, requestEvent deployRequest]) (labEnv noon)
    (decisionMeta labRoom "@lead:example.org") leadApproves
    (.execSpawned labRoom deployRequest { Allowance.empty with requiresApproval := true })
    (.exec deployRequest) (Allowed.run (by decide +kernel)) (by decide +kernel) rfl
  revert hAnnounced
  decide +kernel

end ReusedId

end MxAgent.System.AnnouncedHolds
