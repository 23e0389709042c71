import MxAgent.Daemon.Call

/-! The live consumer of approval decisions. It looks a hold up by request id,
verifies the decision with the authorities of the room the decision arrived in,
takes the hold out of the queue and then rejects or releases it. -/
namespace MxAgent.Daemon

open Protocol

structure LiveState where
  file : QueueFile
  router : Option EventRouter
  replayDisk : ReplayDisk
  deriving DecidableEq

variable {Key : Type} (crypto : Crypto Key) (regexNew : RegexNew) (order : EvictionOrder)

/-- Step 1: the live hold a decision names, if the queue can be read. -/
def liveHold (env : LiveEnv) (file : QueueFile) (decision : ApprovalDecision) :
    Option (PendingApproval × HeldRequest) :=
  match ApprovalQueue.load file env.queueRead with
  | .error _ => none
  | .ok queue => do
      let pending ← queue.get decision.requestId
      let held ← pending.heldRequest
      pure (pending, held)

/-- Step 3: who may decide in the room of arrival, with which keys. -/
def decisionVerification (env : LiveEnv) (roomId : String) (agents : List AgentState) :
    DecisionVerification Key where
  localUser := env.localUser
  approvers := (env.policy.rooms[roomId]?).elim [] RoomPolicy.approvers
  verifyingKeys := publishedKeys crypto agents
  trust := env.trust
  nowUnix := env.now

/-- Steps 2 to 4: the room of arrival, if it is there, its agents can be read and the decision
verifies. -/
def decisionRoom (env : LiveEnv) (eventMeta : EventMeta) (decision : ApprovalDecision) :
    Option RoomView := do
  let room ← env.room eventMeta.roomId
  let agents ← room.agentStates.toOption
  match verificationFailure crypto decision eventMeta.sender
      (decisionVerification crypto env eventMeta.roomId agents) with
  | some _ => none
  | none => some room

/-- Steps 7 and 8: reject the hold, or release it. -/
def settleHold (env : LiveEnv) (room : RoomView) (roomId : String) (decision : ApprovalDecision)
    (held : HeldRequest) (requesterUser : Option String) : List LiveEffect :=
  if !decisionPermitsSpawn decision then
    match held with
    | .exec request => denyHeldExec env roomId request
    | .call request => denyHeldCall env roomId request
  else
    match held with
    | .exec request => releaseHeldExec crypto regexNew env room roomId request requesterUser
    | .call request => releaseHeldCall crypto env room roomId request requesterUser

/-- Step 6: load again, remove, save. A queue that cannot be read counts as empty, and a failed save
is only logged. -/
def removeHold (env : LiveEnv) (file : QueueFile) (requestId : String) : QueueFile :=
  ApprovalQueue.save ((ApprovalQueue.loadOrDefault file env.queueReload).remove requestId)
    env.queueWrite file

def handleLiveApprovalDecision (env : LiveEnv) (s : LiveState) (eventMeta : EventMeta)
    (decision : ApprovalDecision) : LiveState × List LiveEffect :=
  match liveHold env s.file decision, decisionRoom crypto env eventMeta decision with
  | some (pending, held), some room =>
    let (burned, router, replayDisk) :=
      burnDecisionNonce order s.router decision env.now env.replayWrite s.replayDisk
    if !burned then ({ s with router, replayDisk }, [])
    else
      (⟨removeHold env s.file decision.requestId, router, replayDisk⟩,
        settleHold crypto regexNew env room eventMeta.roomId decision held
          pending.requesterUser)
  | _, _ => (s, [])

/-- A decision passes every check before the queue is touched. -/
def Honoured (env : LiveEnv) (s : LiveState) (eventMeta : EventMeta) (decision : ApprovalDecision)
    (room : RoomView) : Prop :=
  decisionRoom crypto env eventMeta decision = some room ∧
    (burnDecisionNonce order s.router decision env.now env.replayWrite s.replayDisk).1

variable {crypto} {order}

variable {env : LiveEnv} {decision : ApprovalDecision}

theorem get_of_liveHold {file : QueueFile} {pending : PendingApproval} {held : HeldRequest}
    (h : liveHold env file decision = some (pending, held)) :
    file.queue.get decision.requestId = some pending ∧ pending.heldRequest = some held := by
  unfold liveHold at h
  cases hLoad : ApprovalQueue.load file env.queueRead with
  | error kind => simp [hLoad] at h
  | ok queue =>
    simp only [hLoad, Option.bind_eq_bind, Option.bind_eq_some_iff] at h
    obtain ⟨found, hFound, request, hRequest, hPair⟩ := h
    cases hPair
    exact ⟨ApprovalQueue.get_of_load hLoad hFound, hRequest⟩

variable {room : RoomView}

/-- A decision that is honoured takes its hold out of the queue and settles it in the room of
arrival. -/
theorem handleLiveApprovalDecision_honoured {s : LiveState} {eventMeta : EventMeta}
    {pending : PendingApproval} {held : HeldRequest}
    (hHold : liveHold env s.file decision = some (pending, held))
    (h : Honoured crypto order env s eventMeta decision room) :
    (handleLiveApprovalDecision crypto regexNew order env s eventMeta decision).1.file =
        removeHold env s.file decision.requestId ∧
      (handleLiveApprovalDecision crypto regexNew order env s eventMeta decision).2 =
        settleHold crypto regexNew env room eventMeta.roomId decision held
          pending.requesterUser := by
  unfold handleLiveApprovalDecision
  simp [hHold, h.1, h.2]

variable (crypto order) in
theorem handleLiveApprovalDecision_cases (env : LiveEnv) (s : LiveState) (eventMeta : EventMeta)
    (decision : ApprovalDecision) :
    ((handleLiveApprovalDecision crypto regexNew order env s eventMeta decision).1.file = s.file ∧
      (handleLiveApprovalDecision crypto regexNew order env s eventMeta decision).2 = []) ∨
    ∃ pending held room, liveHold env s.file decision = some (pending, held) ∧
      Honoured crypto order env s eventMeta decision room ∧
      (handleLiveApprovalDecision crypto regexNew order env s eventMeta decision).1.file =
        removeHold env s.file decision.requestId ∧
      (handleLiveApprovalDecision crypto regexNew order env s eventMeta decision).2 =
        settleHold crypto regexNew env room eventMeta.roomId decision held
          pending.requesterUser := by
  unfold handleLiveApprovalDecision
  cases hHold : liveHold env s.file decision with
  | none => exact .inl ⟨rfl, rfl⟩
  | some hold =>
    cases hRoom : decisionRoom crypto env eventMeta decision with
    | none => exact .inl ⟨rfl, rfl⟩
    | some room =>
      dsimp only
      split
      · exact .inl ⟨rfl, rfl⟩
      · rename_i hBurned
        exact .inr ⟨hold.1, hold.2, room, rfl, ⟨hRoom, by simpa using hBurned⟩, rfl, rfl⟩

def LiveEffect.roomId : LiveEffect → String
  | .execRejected roomId _ _ | .execAccepted roomId _ | .execSpawned roomId _ _
  | .callRejected roomId _ _ | .callExecuted roomId _ _ | .approvalRequested roomId _
  | .holdReleased roomId _ | .holdDenied roomId _ => roomId

def LiveEffect.held : LiveEffect → Option HeldRequest
  | .execSpawned _ request _ => some (.exec request)
  | .callExecuted _ request _ => some (.call request)
  | .holdReleased _ held | .holdDenied _ held => some held
  | _ => none

/-- An effect takes place in a room and concerns no request but the given one. -/
def LiveEffect.Concerns (effect : LiveEffect) (roomId : String) (held : HeldRequest) : Prop :=
  effect.roomId = roomId ∧ ∀ request ∈ effect.held, request = held

variable {regexNew}

section Settling

variable {roomId : String} {held : HeldRequest} {requesterUser : Option String}

theorem settleHold_effects : ∀ effect ∈ settleHold crypto regexNew env room roomId decision held
    requesterUser, effect.Concerns roomId held ∧
      ∀ target approval, effect ≠ .approvalRequested target approval := by
  cases held with
  | exec request =>
    simp only [settleHold, denyHeldExec, rejectHeldExec, releaseHeldExec]
    cases hAuthorized : authorizeLiveExec crypto regexNew env room request.toValue request roomId
        requesterUser with
    | error rejection =>
      split <;> split <;> simp [LiveEffect.Concerns, LiveEffect.roomId, LiveEffect.held]
    | ok result =>
      have hSame := (authorizeLiveExec_ok hAuthorized).1
      split <;> split <;>
        simp [LiveEffect.Concerns, LiveEffect.roomId, LiveEffect.held,
          spawnAuthorizedLiveExec, hSame]
  | call request =>
    simp only [settleHold, denyHeldCall, rejectHeldCall, releaseHeldCall]
    cases hAuthorized : authorizeLiveCall crypto env room request.toValue request
        (request.requestingAgent.getD "") roomId requesterUser with
    | error rejection =>
      split <;> split <;> simp [LiveEffect.Concerns, LiveEffect.roomId, LiveEffect.held]
    | ok result =>
      have hSame := (authorizeLiveCall_ok hAuthorized).1
      split <;> split <;> simp [LiveEffect.Concerns, LiveEffect.roomId, LiveEffect.held, hSame]

/-- Settling acts in the given room and on the given request only. -/
theorem settleHold_concerns {effect : LiveEffect}
    (h : effect ∈ settleHold crypto regexNew env room roomId decision held requesterUser) :
    effect.Concerns roomId held :=
  (settleHold_effects effect h).1

theorem settleHold_silent (target : String) (approval : ApprovalRequest) :
    .approvalRequested target approval ∉
      settleHold crypto regexNew env room roomId decision held requesterUser :=
  fun h => (settleHold_effects _ h).2 target approval rfl

end Settling

/-- Settling says which hold it is about. -/
theorem exists_settleHold_held (env : LiveEnv) (room : RoomView) (roomId : String)
    (decision : ApprovalDecision) (held : HeldRequest) (requesterUser : Option String) :
    ∃ effect ∈ settleHold crypto regexNew env room roomId decision held requesterUser,
      effect.held = some held := by
  unfold settleHold
  split <;> cases held <;> exact ⟨_, List.mem_cons_self, rfl⟩

end MxAgent.Daemon
