import MxAgent.System.GateFrame
import MxAgent.System.VerifiedDecisions

/-! How far back a scheduler pass looks for decisions. The pass asks for one page of the
newest events of a room and goes by the decisions it finds on it. A decision counts as long as
it is on that page, whoever wrote the events that push it down. -/
namespace MxAgent.System.DecisionWindow

open Std Protocol Daemon VerifiedDecisions

def approvalDecisionsScanLimit : Nat := 100

/-- What a pass finds of one room. Each of the three reads can fail. -/
structure RoomReads where
  roomId : String
  localUser : String
  policy : Policy
  trust : TrustStore
  nowUnix : Int
  agentStates : Except String (List AgentState)
  tasks : Except String (List TaskState)
  /-- How many events the homeserver puts on a page, below the limit it is asked for. -/
  messages : Except String Nat

namespace RoomReads

def owned (room : RoomReads) (agents : List AgentState) : List AgentState :=
  agents.filter fun agent => agent.matrixUserId == room.localUser

def hasRunnableCandidate (room : RoomReads) (agents : List AgentState)
    (snapshot : List TaskState) : Bool :=
  snapshot.any fun task =>
    (task.state == statePending || task.state == stateAssigned) &&
      ((room.owned agents).map AgentState.agentId).contains task.assignedTo

/-- `room.messages` from the end of the timeline, newest first. -/
def page (room : RoomReads) (timeline : List Value) (limit : Nat) : Except String (List Value) :=
  room.messages.map fun served => timeline.take (min served limit)

variable {Key : Type} (crypto : Crypto Key) (room : RoomReads)

def verification (agents : List AgentState) : DecisionVerification Key where
  localUser := room.localUser
  approvers := (room.policy.rooms[room.roomId]?).elim [] RoomPolicy.approvers
  verifyingKeys := publishedKeys crypto agents
  trust := room.trust
  nowUnix := room.nowUnix

/-- The decisions that `scheduler_pass` reads in a room. -/
def decisions (timeline : List Value) : Option (ExtTreeMap String ApprovalDecision) :=
  if room.localUser = "" then none
  else match room.agentStates with
    | .error _ => none
    | .ok agents =>
      if (room.owned agents).isEmpty then none
      else match room.tasks with
        | .error _ => none
        | .ok snapshot =>
          if room.hasRunnableCandidate agents snapshot then
            match room.page timeline approvalDecisionsScanLimit with
            | .ok chunk => some (scanDecisions crypto (room.verification crypto agents) chunk)
            | .error _ => some ∅
          else some ∅

/-- The pass reads the room's timeline, as far as the event at a position. -/
structure Reaches (agents : List AgentState) (position : Nat) : Prop where
  localUser : room.localUser ≠ ""
  candidate : ∃ snapshot, room.tasks = .ok snapshot ∧
    room.hasRunnableCandidate agents snapshot
  served : ∃ served, room.messages = .ok served ∧
    position < min served approvalDecisionsScanLimit

end RoomReads

variable {room : RoomReads} {agents : List AgentState}

section Window

variable {Key : Type} {crypto : Crypto Key} {ctx : DecisionVerification Key}

/-- A request's newest verified decision is read exactly if it is among the scanned events. -/
theorem getElem?_scanDecisions_take {newer older : List Value} {raw : Value}
    {decision : ApprovalDecision} (hVerified : verifiedDecision crypto ctx raw = some decision)
    (hNewest : ∀ other ∈ newer, ∀ later, verifiedDecision crypto ctx other = some later →
      later.requestId ≠ decision.requestId) (count : Nat) :
    (scanDecisions crypto ctx ((newer ++ raw :: older).take count))[decision.requestId]? =
      if newer.length < count then some decision else none := by
  split
  · rename_i hCount
    refine scanDecisions_eq_some_iff.mpr
      ⟨newer, raw, older.take (count - newer.length - 1), ?_, hVerified, rfl, hNewest⟩
    rw [List.take_append, List.take_of_length_le (by omega), List.take_cons (by omega)]
  · rename_i hCount
    rw [List.take_append_of_le_length (by omega), ExtTreeMap.getElem?_eq_none]
    rw [mem_scanDecisions_iff]
    rintro ⟨other, hOther, later, hLater, hId⟩
    exact hNewest other (List.mem_of_mem_take hOther) later hLater hId

theorem owned_nonempty {snapshot : List TaskState}
    (h : room.hasRunnableCandidate agents snapshot) :
    (room.owned agents).isEmpty = false := by
  rw [RoomReads.hasRunnableCandidate, List.any_eq_true] at h
  obtain ⟨task, -, hTask⟩ := h
  cases hOwned : room.owned agents with
  | nil => simp [hOwned] at hTask
  | cons agent rest => rfl

/-- What a pass that finds nothing in its way reads. -/
theorem decisions_of_reads {snapshot : List TaskState} {served : Nat} (timeline : List Value)
    (hUser : room.localUser ≠ "") (hAgents : room.agentStates = .ok agents)
    (hTasks : room.tasks = .ok snapshot)
    (hCandidate : room.hasRunnableCandidate agents snapshot)
    (hServed : room.messages = .ok served) :
    room.decisions crypto timeline = some (scanDecisions crypto (room.verification crypto agents)
      (timeline.take (min served approvalDecisionsScanLimit))) := by
  simp only [RoomReads.decisions, if_neg hUser, hAgents, owned_nonempty hCandidate, hTasks,
    hCandidate, RoomReads.page, hServed, Except.map, Bool.false_eq_true, if_false, if_true]

/-- Nothing is read in any other way. -/
theorem reads_of_mem_decisions {timeline : List Value} {known : ExtTreeMap String ApprovalDecision}
    {requestId : String} (hAgents : room.agentStates = .ok agents)
    (hKnown : room.decisions crypto timeline = some known) (hMem : requestId ∈ known) :
    room.localUser ≠ "" ∧ (∃ snapshot, room.tasks = .ok snapshot ∧
      room.hasRunnableCandidate agents snapshot) ∧
      ∃ served, room.messages = .ok served := by
  simp only [RoomReads.decisions, hAgents] at hKnown
  split at hKnown
  · cases hKnown
  rename_i hUser
  split at hKnown
  · cases hKnown
  split at hKnown
  · cases hKnown
  rename_i snapshot hTasks
  split at hKnown
  · rename_i hCandidate
    refine ⟨hUser, ⟨snapshot, hTasks, hCandidate⟩, ?_⟩
    cases hServed : room.messages with
    | ok served => exact ⟨served, rfl⟩
    | error error =>
      simp only [RoomReads.page, hServed, Except.map] at hKnown
      cases hKnown
      simp at hMem
  · cases hKnown
    simp at hMem

/-- In every room whose agents can be read, a pass goes by the newest verified decision of a request
exactly if it reads the timeline and fewer events are newer than fit on the page. -/
theorem decision_read_iff (crypto : Crypto Key) (room : RoomReads) (agents : List AgentState)
    (hAgents : room.agentStates = .ok agents) (newer older : List Value) (raw : Value)
    (decision : ApprovalDecision)
    (hVerified : verifiedDecision crypto (room.verification crypto agents) raw = some decision)
    (hNewest : ∀ other ∈ newer, ∀ later,
      verifiedDecision crypto (room.verification crypto agents) other = some later →
      later.requestId ≠ decision.requestId) :
    ((room.decisions crypto (newer ++ raw :: older)).bind (·[decision.requestId]?)) =
        some decision ↔
      room.Reaches agents newer.length := by
  constructor
  · intro h
    obtain ⟨known, hKnown, hGet⟩ := Option.bind_eq_some_iff.mp h
    obtain ⟨hUser, ⟨snapshot, hTasks, hCandidate⟩, served, hServed⟩ :=
      reads_of_mem_decisions hAgents hKnown
        (ExtTreeMap.isSome_getElem?_iff_mem.mp (Option.isSome_of_eq_some hGet))
    refine ⟨hUser, ⟨snapshot, hTasks, hCandidate⟩, served, hServed, ?_⟩
    rw [decisions_of_reads _ hUser hAgents hTasks hCandidate hServed, Option.bind_some,
      getElem?_scanDecisions_take hVerified hNewest] at h
    by_contra hPast
    rw [if_neg hPast] at h
    cases h
  · rintro ⟨hUser, ⟨snapshot, hTasks, hCandidate⟩, served, hServed, hPosition⟩
    rw [decisions_of_reads _ hUser hAgents hTasks hCandidate hServed, Option.bind_some,
      getElem?_scanDecisions_take hVerified hNewest, if_pos hPosition]

end Window

section BusyRoom

def builderAgent : AgentState := ⟨"@builder", "@operator:host", "mxagent-ed25519:any", some "key"⟩

def busyRoom : RoomReads where
  roomId := "!room:host"
  localUser := "@operator:host"
  policy := ⟨ExecutionPolicy.empty, ∅⟩
  trust := ⟨[⟨"@builder", "mxagent-ed25519:any", .trusted⟩]⟩
  nowUnix := 0
  agentStates := .ok [builderAgent]
  tasks := .ok [GateFrame.buildTask]
  messages := .ok 100

def chatMessage : Value :=
  .object [("type", .string "m.room.message"), ("sender", .string "@guest:host"),
    ("content", .object [("body", .string "hello")])]

theorem chatMessage_unverified (ctx : DecisionVerification Unit) :
    verifiedDecision lenient ctx chatMessage = none := by
  have hEvent : decisionEvent chatMessage = none := by decide +kernel
  rw [verifiedDecision, hEvent, Option.bind_none]

theorem chat_newest (count : Nat) (ctx : DecisionVerification Unit) (requestId : String) :
    ∀ other ∈ List.replicate count chatMessage, ∀ later,
      verifiedDecision lenient ctx other = some later → later.requestId ≠ requestId := by
  intro other hOther later hLater
  rw [List.eq_of_mem_replicate hOther, chatMessage_unverified] at hLater
  cases hLater

theorem signedApproval_verified :
    ∃ decision, verifiedDecision lenient (busyRoom.verification lenient [builderAgent])
      signedApproval = some decision := by
  have hVerified : (verifiedDecision lenient (busyRoom.verification lenient [builderAgent])
      signedApproval).isSome := by
    decide +kernel
  exact Option.isSome_iff_exists.mp hVerified

theorem busyRoom_candidate :
    busyRoom.hasRunnableCandidate [builderAgent] [GateFrame.buildTask] := by decide

/-- An approval with ninety-nine messages after it is read. -/
theorem approval_read_after_chat :
    ∃ decision, verifiedDecision lenient (busyRoom.verification lenient [builderAgent])
        signedApproval = some decision ∧
      ((busyRoom.decisions lenient (List.replicate 99 chatMessage ++ [signedApproval])).bind
        (·[decision.requestId]?)) = some decision := by
  obtain ⟨decision, hVerified⟩ := signedApproval_verified
  refine ⟨decision, hVerified, (decision_read_iff lenient busyRoom [builderAgent] rfl _ [] _ _
    hVerified (chat_newest 99 _ _)).mpr ⟨by decide, ⟨_, rfl, busyRoom_candidate⟩, 100, rfl, ?_⟩⟩
  rw [List.length_replicate]
  decide

/-- One message more, and the pass finds no decision. -/
theorem approval_lost_after_chat :
    ∃ decision, verifiedDecision lenient (busyRoom.verification lenient [builderAgent])
        signedApproval = some decision ∧
      ((busyRoom.decisions lenient (List.replicate 100 chatMessage ++ [signedApproval])).bind
        (·[decision.requestId]?)) = none := by
  obtain ⟨decision, hVerified⟩ := signedApproval_verified
  have hUser : busyRoom.localUser ≠ "" := by decide
  have hReads : busyRoom.decisions lenient (List.replicate 100 chatMessage ++ [signedApproval]) =
      some (scanDecisions lenient (busyRoom.verification lenient [builderAgent])
        ((List.replicate 100 chatMessage ++ [signedApproval]).take 100)) :=
    decisions_of_reads _ hUser rfl rfl busyRoom_candidate rfl
  refine ⟨decision, hVerified, ?_⟩
  rw [hReads, Option.bind_some, getElem?_scanDecisions_take hVerified (chat_newest 100 _ _),
    List.length_replicate]
  rfl

end BusyRoom

end MxAgent.System.DecisionWindow
