import MxAgent.Foundations.KeyedQueue
import MxAgent.Policy.Engine
import MxAgent.Daemon.EventRouter
import MxAgent.Daemon.Identity

/-! Approvals: which requests are held, the queue file they are held in, and the
checks a decision has to pass before it is honoured. -/
namespace MxAgent.Daemon

open Protocol Std

def riskFor (allowance : Allowance) : String :=
  let networked := allowance.network = some .allow
  let unsandboxed := allowance.sandbox = none ∨ allowance.sandbox = some .none
  if networked ∨ unsandboxed then "high" else "medium"

def approvalRequestFor (request : ExecRequest) (allowance : Allowance) : ApprovalRequest where
  requestId := request.requestId
  invocationId := request.invocationId
  requester := request.requestingAgent
  target := request.targetAgent
  summary := "Run " ++ " ".intercalate request.command ++ " in " ++ request.cwd
  risk := riskFor allowance
  expiresAt := request.expiresAt
  extra := ∅

def approvalRequestForCall (request : CallRequest) (allowance : Allowance) : ApprovalRequest where
  requestId := request.requestId
  invocationId := request.invocationId
  requester := request.requestingAgent.getD ""
  target := request.targetAgent.getD ""
  summary := "Call tool " ++ request.tool
  risk := riskFor allowance
  expiresAt := request.expiresAt
  extra := ∅

/-- `disposition_for_exec`: the approval to ask for, if any. -/
def dispositionForExec (request : ExecRequest) (allowance : Allowance) : Option ApprovalRequest :=
  if allowance.requiresApproval then some (approvalRequestFor request allowance) else none

def dispositionForCall (request : CallRequest) (allowance : Allowance) : Option ApprovalRequest :=
  if allowance.requiresApproval then some (approvalRequestForCall request allowance) else none

inductive HeldRequest where
  | exec (request : ExecRequest)
  | call (request : CallRequest)
  deriving DecidableEq

def HeldRequest.requestId : HeldRequest → String
  | .exec request => request.requestId
  | .call request => request.requestId

def HeldRequest.expiresAt : HeldRequest → String
  | .exec request => request.expiresAt
  | .call request => request.expiresAt

/-- One queued approval. A task approval holds no request. -/
structure PendingApproval where
  roomId : String
  request : ApprovalRequest
  heldRequest : Option HeldRequest
  requesterUser : Option String
  deriving DecidableEq

def PendingApproval.requestId (pending : PendingApproval) : String := pending.request.requestId

abbrev ApprovalQueue := KeyedQueue.Queue PendingApproval PendingApproval.requestId

/-- The queue file: absent, unreadable as a queue, or a queue. -/
inductive QueueFile where
  | absent
  | corrupt
  | stored (queue : ApprovalQueue)
  deriving DecidableEq

namespace ApprovalQueue

def default : ApprovalQueue := KeyedQueue.Queue.empty

def load (file : QueueFile) (read : IoResult) : Except IoErrorKind ApprovalQueue :=
  match read with
  | .error .notFound => .ok default
  | .error kind => .error kind
  | .ok () =>
    match file with
    | .absent => .ok default
    | .corrupt => .error .other
    | .stored queue => .ok queue

def loadOrDefault (file : QueueFile) (read : IoResult) : ApprovalQueue :=
  match load file read with
  | .ok queue => queue
  | .error _ => default

def save (queue : ApprovalQueue) (write : IoResult) (file : QueueFile) : QueueFile :=
  match write with
  | .ok () => .stored queue
  | .error _ => file

def pendingInRoom (queue : ApprovalQueue) (roomId : String) : List PendingApproval :=
  queue.items.filter fun pending => pending.roomId == roomId

end ApprovalQueue

def QueueFile.queue : QueueFile → ApprovalQueue
  | .stored queue => queue
  | _ => ApprovalQueue.default

variable {file : QueueFile}

/-- Whatever is found in a queue that could be read is in the stored one. -/
theorem ApprovalQueue.get_of_load {read : IoResult} {queue : ApprovalQueue}
    (h : load file read = .ok queue) {requestId : String} {pending : PendingApproval}
    (hGet : queue.get requestId = some pending) : file.queue.get requestId = some pending := by
  match read, file with
  | .error .notFound, _ => cases h; cases hGet
  | .error .other, _ => cases h
  | .ok (), .absent => cases h; cases hGet
  | .ok (), .corrupt => cases h
  | .ok (), .stored queue' => cases h; exact hGet

/-- A queue read with a default has gained no entries. -/
theorem ApprovalQueue.get_of_loadOrDefault {read : IoResult} {requestId : String}
    {pending : PendingApproval} (h : (loadOrDefault file read).get requestId = some pending) :
    file.queue.get requestId = some pending := by
  unfold loadOrDefault at h
  cases hLoad : load file read with
  | error kind =>
    rw [hLoad] at h
    cases h
  | ok queue =>
    rw [hLoad] at h
    exact get_of_load hLoad h

theorem ApprovalQueue.queue_of_load {queue : ApprovalQueue}
    (h : load file (.ok ()) = .ok queue) : queue = file.queue := by
  cases file <;> cases h <;> rfl

@[simp] theorem ApprovalQueue.loadOrDefault_ok (file : QueueFile) :
    loadOrDefault file (.ok ()) = file.queue := by
  cases file <;> rfl

@[simp] theorem ApprovalQueue.queue_save_ok (queue : ApprovalQueue) (file : QueueFile) :
    (save queue (.ok ()) file).queue = queue := rfl

@[simp] theorem ApprovalQueue.save_error (queue : ApprovalQueue) (kind : IoErrorKind)
    (file : QueueFile) : save queue (.error kind) file = file := rfl

def decisionApproved : String := "approved"

def decisionPermitsSpawn (decision : ApprovalDecision) : Bool :=
  decision.decision == decisionApproved

inductive VerificationFailure where
  | untrustedSender
  | missingSignature
  | unresolvedKey
  | untrustedKey
  | invalidSignature
  | missingReplayMaterial
  | malformedExpiry
  | decisionExpired
  deriving DecidableEq, Repr

structure DecisionVerification (Key : Type) where
  localUser : String
  approvers : List String
  verifyingKeys : ExtTreeMap String Key
  trust : TrustStore
  nowUnix : Int

variable {Key : Type} (crypto : Crypto Key)

def verificationFailure (decision : ApprovalDecision) (sender : String)
    (ctx : DecisionVerification Key) : Option VerificationFailure :=
  if sender = "" ∨ (sender ≠ ctx.localUser ∧ sender ∉ ctx.approvers) then some .untrustedSender
  else match decision.signature with
    | none => some .missingSignature
    | some signature =>
      match ctx.verifyingKeys[signature.keyId]? with
      | none => some .unresolvedKey
      | some key =>
        if !ctx.trust.isKeyTrusted signature.keyId then some .untrustedKey
        else if (verifyApprovalDecision crypto key decision).isOk = false then
          some .invalidSignature
        else match decision.nonce, decision.expiresAt with
          | some _, some expiresAt =>
            match parseRfc3339ToUnix expiresAt with
            | none => some .malformedExpiry
            | some expiry => if expiry ≤ ctx.nowUnix then some .decisionExpired else none
          | _, _ => some .missingReplayMaterial

/-- The keys a room publishes, by key id. A later agent wins. -/
def publishedKeys (agents : List AgentState) : ExtTreeMap String Key :=
  agents.foldl (fun keys agent =>
    if agent.signingKeyId = "" then keys
    else match verifyingKeyFromAgentState crypto agent with
      | .ok key => keys.insert agent.signingKeyId key
      | .error _ => keys) ∅

abbrev DecisionEvent := String × ApprovalDecision

/-- `read_verified_approval_decisions`, from the newest event: the first verified decision under an
id wins. -/
def readVerifiedApprovalDecisions (ctx : DecisionVerification Key) (events : List DecisionEvent) :
    ExtTreeMap String ApprovalDecision :=
  events.foldl (fun decisions event =>
    if (verificationFailure crypto event.2 event.1 ctx).isSome then decisions
    else decisions.insertIfNew event.2.requestId event.2) ∅

def decides (ctx : DecisionVerification Key) (requestId : String) (event : DecisionEvent) : Bool :=
  event.2.requestId == requestId && (verificationFailure crypto event.2 event.1 ctx).isNone

variable {crypto} in
theorem getElem?_readVerifiedApprovalDecisions (ctx : DecisionVerification Key)
    (events : List DecisionEvent) (requestId : String) :
    (readVerifiedApprovalDecisions crypto ctx events)[requestId]? =
      (events.find? (decides crypto ctx requestId)).map Prod.snd := by
  suffices h : ∀ known : ExtTreeMap String ApprovalDecision,
      (events.foldl (fun decisions event =>
        if (verificationFailure crypto event.2 event.1 ctx).isSome then decisions
        else decisions.insertIfNew event.2.requestId event.2) known)[requestId]? =
      (known[requestId]?).or ((events.find? (decides crypto ctx requestId)).map Prod.snd) by
    rw [readVerifiedApprovalDecisions, h ∅, ExtTreeMap.getElem?_empty, Option.none_or]
  induction events with
  | nil => intro known; simp
  | cons event rest ih =>
    intro known
    rw [List.foldl_cons, ih, List.find?_cons]
    by_cases hFailed : (verificationFailure crypto event.2 event.1 ctx).isSome
    · have hOther : decides crypto ctx requestId event = false := by simp_all [decides]
      simp [hFailed, hOther]
    · rw [if_neg hFailed, ExtTreeMap.getElem?_insertIfNew]
      by_cases hId : event.2.requestId = requestId
      · have hDecides : decides crypto ctx requestId event := by simp_all [decides]
        rw [hDecides]
        by_cases hKnown : requestId ∈ known <;> simp [hId, hKnown]
      · have hOther : decides crypto ctx requestId event = false := by simp [decides, hId]
        simp [hId, hOther]

def approvalRequestTtl : Nat := 3600

/-- `approval_request_expiry` with that lifetime, on a `u64` that saturates. -/
def approvalRequestExpiry (now : Nat) : String :=
  unixToRfc3339 (min (now + approvalRequestTtl) (2 ^ 64 - 1))

def approvalRequestExpired (expiresAt : String) (nowUnix : Int) : Bool :=
  match parseRfc3339ToUnix expiresAt with
  | some expiry => expiry ≤ nowUnix
  | none => false

/-- What an operator's decision finds: the clock, its nonce and signature, whether it could be sent,
and how the queue file is read and written. -/
structure DecideEnv where
  now : Nat
  nonce : String
  signature : Signature
  sent : Bool
  queueRead : IoResult
  queueWrite : IoResult

/-- The signed decision `decide_approval_for_session` sends. -/
def sessionDecision (env : DecideEnv) (requestId decision approvedBy : String) :
    ApprovalDecision where
  requestId
  decision
  approvedBy
  createdAt := unixToRfc3339 env.now
  nonce := some env.nonce
  expiresAt := some (approvalRequestExpiry env.now)
  signature := some env.signature
  extra := ∅

/-- `decide_approval_for_session`: the room a decision went to, and the queue file. A live hold is
left to the live handler. -/
def decideApprovalForSession (env : DecideEnv) (file : QueueFile) (requestId : String) :
    Option String × QueueFile :=
  match ApprovalQueue.load file env.queueRead with
  | .error _ => (none, file)
  | .ok queue =>
    match queue.get requestId with
    | none => (none, file)
    | some pending =>
      if !env.sent then (none, file)
      else if pending.heldRequest.isSome then (some pending.roomId, file)
      else (some pending.roomId, ApprovalQueue.save (queue.remove requestId) env.queueWrite file)

/-- An operator's decision takes a task's entry out of the file, or leaves it. -/
theorem decideApprovalForSession_cases (env : DecideEnv) (file : QueueFile) (requestId : String) :
    ((decideApprovalForSession env file requestId).2 = file ∧
      ((decideApprovalForSession env file requestId).1 = none ∨
        ∃ pending, file.queue.get requestId = some pending ∧
          pending.heldRequest.isSome)) ∨
    ∃ queue pending, ApprovalQueue.load file env.queueRead = .ok queue ∧
      file.queue.get requestId = some pending ∧ pending.heldRequest = none ∧
      decideApprovalForSession env file requestId = (some pending.roomId,
        ApprovalQueue.save (queue.remove requestId) env.queueWrite file) := by
  unfold decideApprovalForSession
  cases hLoad : ApprovalQueue.load file env.queueRead with
  | error kind => exact .inl ⟨rfl, .inl rfl⟩
  | ok queue =>
    dsimp only
    cases hGet : queue.get requestId with
    | none => exact .inl ⟨rfl, .inl rfl⟩
    | some pending =>
      have hStored := ApprovalQueue.get_of_load hLoad hGet
      dsimp only
      split
      · exact .inl ⟨rfl, .inl rfl⟩
      split
      · rename_i hHeld
        exact .inl ⟨rfl, .inr ⟨pending, hStored, hHeld⟩⟩
      · rename_i hHeld
        exact .inr ⟨queue, pending, rfl, hStored, by simpa using hHeld, rfl⟩

variable (order : EvictionOrder)

/-- `burn_decision_nonce`. Without a router there is no cache to burn in. -/
def burnDecisionNonce (router : Option EventRouter) (decision : ApprovalDecision) (now : Int)
    (write : IoResult) (disk : ReplayDisk) : Bool × Option EventRouter × ReplayDisk :=
  match decision.nonce, decision.expiresAt with
  | some nonce, some expiresAt =>
    match router with
    | some router =>
      let (burned, router, disk) :=
        router.admitDecisionNonce order nonce expiresAt now write disk
      (burned, some router, disk)
    | none => (true, none, disk)
  | _, _ => (false, router, disk)

end MxAgent.Daemon
