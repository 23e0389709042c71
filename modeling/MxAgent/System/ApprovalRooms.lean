import MxAgent.Daemon.LiveApproval

/-! Approvals and rooms. Authority is granted room by room, but the queue is
keyed by request id alone, and the decision handler takes the room of the event for
the room of the hold. -/
namespace MxAgent.System.ApprovalRooms

open Protocol Daemon

variable {Key : Type} (crypto : Crypto Key) (regexNew : RegexNew) (order : EvictionOrder)

/-- A decision received in a room touches holds of that room only. -/
structure ConfinedTo (roomId : String) (decision : ApprovalDecision) (before : QueueFile)
    (after : LiveState × List LiveEffect) : Prop where
  removed : ∀ requestId pending, before.queue.get requestId = some pending →
    after.1.file.queue.get requestId ≠ some pending → pending.roomId = roomId
  acted : ∀ effect ∈ after.2, ∃ pending held,
    before.queue.get decision.requestId = some pending ∧ pending.heldRequest = some held ∧
      pending.roomId = roomId ∧ effect.Concerns pending.roomId held
  foreign : ∀ pending, before.queue.get decision.requestId = some pending →
    pending.roomId ≠ roomId → after.1.file = before ∧ after.2 = []

variable {crypto} {regexNew} {order}

theorem get_removeHold {env : LiveEnv} {file : QueueFile}
    (hKept : env.queueWrite = .ok () → env.queueReload = .ok ())
    {removed requestId : String} (hOther : requestId ≠ removed) {pending : PendingApproval}
    (hGet : file.queue.get requestId = some pending) :
    (removeHold env file removed).queue.get requestId = some pending := by
  unfold removeHold
  cases hWrite : env.queueWrite with
  | error kind => exact hGet
  | ok _ =>
    cases file with
    | absent => cases hGet
    | corrupt => cases hGet
    | stored queue =>
      rw [ApprovalQueue.queue_save_ok, KeyedQueue.Queue.get_remove, if_neg hOther, hKept hWrite]
      exact hGet

/-- A queue that could not be read again is written back empty. -/
theorem get_removeHold_unread {env : LiveEnv} {file : QueueFile} {kind : IoErrorKind}
    (hReload : env.queueReload = .error kind) (hWrite : env.queueWrite = .ok ())
    (removed requestId : String) : (removeHold env file removed).queue.get requestId = none := by
  have hEmpty : ApprovalQueue.loadOrDefault file env.queueReload = ApprovalQueue.default := by
    rw [hReload]
    cases kind <;> rfl
  rw [removeHold, hWrite, ApprovalQueue.queue_save_ok, hEmpty, KeyedQueue.Queue.get_remove]
  split <;> rfl

/-- The handler keeps a decision to its room exactly when the live hold it settles was raised there,
if it is honoured, and no other room has a hold if the queue is then written back unread. -/
theorem confinedTo_iff (env : LiveEnv) (s : LiveState) (eventMeta : EventMeta)
    (decision : ApprovalDecision) :
    ConfinedTo eventMeta.roomId decision s.file
        (handleLiveApprovalDecision crypto regexNew order env s eventMeta decision) ↔
      ∀ pending held room, liveHold env s.file decision = some (pending, held) →
        Honoured crypto order env s eventMeta decision room →
        pending.roomId = eventMeta.roomId ∧
          ∀ kind, env.queueReload = .error kind → env.queueWrite = .ok () →
            ∀ requestId other, s.file.queue.get requestId = some other →
              other.roomId = eventMeta.roomId := by
  constructor
  · intro hConfined pending held room hHold hHonoured
    obtain ⟨hGet, -⟩ := get_of_liveHold hHold
    obtain ⟨hFile, hEffects⟩ := handleLiveApprovalDecision_honoured regexNew hHold hHonoured
    constructor
    · obtain ⟨effect, hEffect, -⟩ := exists_settleHold_held env room eventMeta.roomId decision held
        pending.requesterUser
      obtain ⟨owner, -, hOwner, -, hRoom, -⟩ := hConfined.acted effect (hEffects ▸ hEffect)
      rwa [Option.some.inj (hGet.symm.trans hOwner)]
    · intro kind hReload hWrite requestId other hOther
      refine hConfined.removed requestId other hOther ?_
      rw [hFile, get_removeHold_unread hReload hWrite]
      simp
  · intro hSameRoom
    rcases handleLiveApprovalDecision_cases crypto regexNew order env s eventMeta decision with
      ⟨hFile, hEffects⟩ | ⟨pending, held, room, hHold, hHonoured, hFile, hEffects⟩
    · refine ⟨?_, ?_, fun _ _ _ => ⟨hFile, hEffects⟩⟩
      · intro requestId pending hGet hLost
        rw [hFile] at hLost
        exact absurd hGet hLost
      · intro effect hEffect
        rw [hEffects] at hEffect
        cases hEffect
    · obtain ⟨hGet, hHeld⟩ := get_of_liveHold hHold
      obtain ⟨hRoom, hAlone⟩ := hSameRoom pending held room hHold hHonoured
      refine ⟨?_, ?_, ?_⟩
      · intro requestId other hOther hLost
        by_cases hId : requestId = decision.requestId
        · rw [hId, hGet, Option.some.injEq] at hOther
          rw [← hOther, hRoom]
        · by_cases hKept : env.queueWrite = .ok () → env.queueReload = .ok ()
          · rw [hFile] at hLost
            exact absurd (get_removeHold hKept hId hOther) hLost
          · obtain ⟨hWrite, hUnread⟩ := Classical.not_imp.mp hKept
            cases hReload : env.queueReload with
            | ok _ => exact absurd hReload hUnread
            | error kind => exact hAlone kind hReload hWrite requestId other hOther
      · intro effect hEffect
        rw [hEffects] at hEffect
        refine ⟨pending, held, hGet, hHeld, hRoom, ?_⟩
        rw [hRoom]
        exact settleHold_concerns hEffect
      · intro other hOther hForeign
        rw [hGet, Option.some.injEq] at hOther
        exact absurd (hOther ▸ hRoom) hForeign

section TwoRooms

def opsRoom : String := "!ops:example.org"

def labRoom : String := "!lab:example.org"

/-- Keys are their own encoding; a signature is the key's name. -/
def namedKeys : Crypto String where
  verifySlice key _ raw := some (raw == key.toUTF8)
  decodeVerifyingKey text := some text
  keyIdForVerifyingKey key := "mxagent-ed25519:" ++ key

def signedBy (key : String) : Signature :=
  ⟨"ed25519", "mxagent-ed25519:" ++ key, encodeRaw key.toUTF8⟩

def agentOf (agentId user key : String) : AgentState :=
  ⟨agentId, user, "mxagent-ed25519:" ++ key, some key⟩

def runnerAgent : AgentState := agentOf "agent-runner" "@runner:example.org" "runner"

def daemonAgent : AgentState := agentOf "agent-daemon" "@daemon:example.org" "daemon"

def leadAgent : AgentState := agentOf "agent-lead" "@lead:example.org" "lead"

def roomView : RoomView where
  agentState agentId :=
    .ok ([runnerAgent, daemonAgent, leadAgent].find? fun agent => agent.agentId == agentId)
  agentStates := .ok [runnerAgent, daemonAgent, leadAgent]

/-- The runner may build under `/srv`, perhaps with an approval. -/
def buildPolicy (requiresApproval : Bool) : AgentPolicy :=
  { AgentPolicy.empty with
    allowExec := true
    allowTools := ["build"]
    allowCommands := ["make"]
    allowCwd := ["/srv"]
    requiresApproval }

/-- In the operations room every run needs an approval; the lead approves in the lab only. -/
def twoRoomPolicy : Policy where
  execution := ExecutionPolicy.empty
  rooms := .ofList [
    (opsRoom, { RoomPolicy.empty with
      trusted := true
      approvers := ["@owner:example.org"]
      agents := .ofList [("@runner:example.org", buildPolicy true)] }),
    (labRoom, { RoomPolicy.empty with
      trusted := true
      approvers := ["@lead:example.org"]
      agents := .ofList [("@runner:example.org", buildPolicy false)] })]

def twoRoomEnv (now : Int) : LiveEnv where
  now
  localUser := "@daemon:example.org"
  room roomId := if roomId = opsRoom ∨ roomId = labRoom then some roomView else none
  trust := ⟨[⟨"agent-runner", "mxagent-ed25519:runner", .trusted⟩,
    ⟨"agent-lead", "mxagent-ed25519:lead", .trusted⟩]⟩
  policy := twoRoomPolicy
  senderVerified _ := some true
  signingKey := true
  liveExecControl _ := false
  queueRead := .ok ()
  queueReload := .ok ()
  queueWrite := .ok ()
  replayWrite := .ok ()

def buildRequest (command : List String) : ExecRequest where
  invocationId := "inv-1"
  requestId := "req-1"
  targetAgent := "agent-daemon"
  requestingAgent := "agent-runner"
  command
  cwd := "/srv/app"
  env := ∅
  stdin := false
  stream := false
  pty := false
  timeoutMs := 60000
  taskId := none
  createdAt := "2026-06-02T12:00:00Z"
  expiresAt := "2026-06-02T12:05:00Z"
  nonce := "request-nonce"
  idempotencyKey := "exec:inv-1"
  signature := signedBy "runner"
  extra := ∅
  extra_fresh := by simp

def heldIn (roomId : String) : PendingApproval :=
  ⟨roomId, approvalRequestFor (buildRequest ["make", "deploy"]) Allowance.empty,
    some (.exec (buildRequest ["make", "deploy"])), some "@runner:example.org"⟩

def freshRouter : EventRouter := ⟨⟨8, ∅, by decide⟩⟩

def holding (pending : PendingApproval) : LiveState where
  file := .stored (ApprovalQueue.default.put pending)
  router := some freshRouter
  replayDisk := ⟨none, false⟩

def decisionMeta (roomId sender : String) : EventMeta :=
  ⟨"com.mxagent.approval.decision.v1", roomId, sender, none, none⟩

def leadApproves : ApprovalDecision where
  requestId := "req-1"
  decision := "approved"
  approvedBy := "@lead:example.org"
  createdAt := "2026-06-02T12:01:00Z"
  nonce := some "decision-nonce"
  expiresAt := some "2026-06-02T13:01:00Z"
  signature := some (signedBy "lead")
  extra := ∅

/-- The lead decides a hold of the lead's own room. -/
theorem confinedTo_own_room :
    ConfinedTo labRoom leadApproves (holding (heldIn labRoom)).file
      (handleLiveApprovalDecision namedKeys (fun _ => none) .byNonce (twoRoomEnv 1780000000)
        (holding (heldIn labRoom)) (decisionMeta labRoom "@lead:example.org") leadApproves) := by
  refine (confinedTo_iff _ _ (decisionMeta labRoom "@lead:example.org") _).mpr ?_
  intro pending held room hHold _
  have hStored : (holding (heldIn labRoom)).file.queue.get leadApproves.requestId =
      some (heldIn labRoom) := by
    decide +kernel
  obtain rfl : heldIn labRoom = pending :=
    Option.some.inj (hStored.symm.trans (get_of_liveHold hHold).1)
  refine ⟨rfl, fun kind hReload => ?_⟩
  cases hReload

/-- The lab's lead approves the operations room's hold from the lab: the deployment runs under the
lab's policy. -/
theorem approval_crosses_rooms :
    ¬ ∀ (crypto : Crypto String) (regexNew : RegexNew) (order : EvictionOrder) (env : LiveEnv)
        (s : LiveState) (eventMeta : EventMeta) (decision : ApprovalDecision),
        env.queueRead = .ok () → env.queueReload = .ok () →
        ConfinedTo eventMeta.roomId decision s.file
          (handleLiveApprovalDecision crypto regexNew order env s eventMeta decision) := by
  intro hClaim
  have hForeign := (hClaim namedKeys (fun _ => none) .byNonce (twoRoomEnv 1780000000)
    (holding (heldIn opsRoom)) (decisionMeta labRoom "@lead:example.org") leadApproves rfl
    rfl).foreign (heldIn opsRoom) (by decide +kernel) (by decide)
  revert hForeign
  decide +kernel

example :
    (handleLiveApprovalDecision namedKeys (fun _ => none) .byNonce (twoRoomEnv 1780000000)
      (holding (heldIn opsRoom)) (decisionMeta labRoom "@lead:example.org") leadApproves).2 =
    [.holdReleased labRoom (.exec (buildRequest ["make", "deploy"])),
      .execAccepted labRoom "inv-1",
      .execSpawned labRoom (buildRequest ["make", "deploy"]) Allowance.empty] := by
  decide +kernel

end TwoRooms

end MxAgent.System.ApprovalRooms
