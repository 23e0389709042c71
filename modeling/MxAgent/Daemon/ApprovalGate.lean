import MxAgent.Daemon.Approval
import MxAgent.Daemon.TaskOrchestrator

/-! `QueueApprovalGate`: the approval gate of the task scheduler. It raises one
request per task in the approval queue, and answers from the verified decisions of
the pass. -/
namespace MxAgent.Daemon

open Protocol

/-- The id of a task's approval request depends on the task id alone. -/
def taskApprovalId (task : TaskState) : String := "approval:" ++ task.taskId

def taskApprovalRequest (task : TaskState) (action : TaskAction) (targetAgent expiresAt : String) :
    ApprovalRequest where
  requestId := taskApprovalId task
  invocationId := ""
  requester := task.createdBy
  target := targetAgent
  summary := "Run " ++ action.kind ++ " action for task " ++ task.taskId
  risk := "medium"
  expiresAt
  extra := ∅

@[simp] theorem taskApprovalRequest_requestId (task : TaskState) (action : TaskAction)
    (targetAgent expiresAt : String) :
    (taskApprovalRequest task action targetAgent expiresAt).requestId = taskApprovalId task := rfl

structure QueueApprovalGate where
  roomId : String
  targetAgent : String
  expiresAt : String
  nowUnix : Int
  /-- Whether the orchestrator's replay cache is attached. -/
  cached : Bool
  resolveDecision : String → Option ApprovalDecision

structure GateState where
  queue : ApprovalQueue
  lastAdmittedDecisionNonce : Option String
  deriving DecidableEq

variable {task : TaskState} {action : TaskAction} {replay : Option ReplayHandle}

namespace QueueApprovalGate

variable (order : EvictionOrder) (gate : QueueApprovalGate) (env : ProcessEnv)

def attached (replay : Option ReplayHandle) : Option ReplayHandle :=
  if gate.cached then replay else none

def admitDecisionNonce (decision : ApprovalDecision) (s : GateState)
    (replay : Option ReplayHandle) : Bool × GateState × Option ReplayHandle :=
  match gate.attached replay with
  | none => (true, s, replay)
  | some handle =>
    match decision.nonce, decision.expiresAt with
    | some nonce, some expiresAt =>
      match handle.admitAt order ⟨nonce, expiresAt⟩ env.gateClock env.gateWrite with
      | (.ok (), handle) =>
        (true, { s with lastAdmittedDecisionNonce := some nonce }, some handle)
      | (.error _, handle) => (false, s, some handle)
    | _, _ => (false, s, replay)

def taskHold (request : ApprovalRequest) : PendingApproval := ⟨gate.roomId, request, none, none⟩

/-- The deadline of a request is the one it was first queued with. -/
def deadline (queue : ApprovalQueue) (request : ApprovalRequest) : String :=
  match queue.get request.requestId with
  | some pending => pending.request.expiresAt
  | none => request.expiresAt

def evaluate (task : TaskState) (action : TaskAction) (s : GateState)
    (replay : Option ReplayHandle) : ApprovalDisposition × GateState × Option ReplayHandle :=
  let request := taskApprovalRequest task action gate.targetAgent gate.expiresAt
  match gate.resolveDecision request.requestId with
  | some decision =>
    if decisionPermitsSpawn decision then
      match gate.admitDecisionNonce order env decision s replay with
      | (true, s, replay) =>
        (.approved, { s with queue := s.queue.remove request.requestId }, replay)
      | (false, s, replay) =>
        (.pending request.requestId,
          { s with queue := s.queue.put (gate.taskHold request) }, replay)
    else
      (.denied "approval denied by operator",
        { s with queue := s.queue.remove request.requestId }, replay)
  | none =>
    let expiresAt := deadline s.queue request
    if approvalRequestExpired expiresAt gate.nowUnix then
      (.expired request.requestId,
        { s with queue := s.queue.remove request.requestId }, replay)
    else
      (.pending request.requestId,
        { s with queue := s.queue.put (gate.taskHold { request with expiresAt }) }, replay)

def compensateLostClaim (s : GateState) (replay : Option ReplayHandle) :
    GateState × Option ReplayHandle :=
  ({ s with lastAdmittedDecisionNonce := none },
    match gate.attached replay, s.lastAdmittedDecisionNonce with
    | some handle, some nonce => some (handle.forget nonce env.compensateWrite)
    | _, _ => replay)

variable {order gate env}

section Admission

variable {decision : ApprovalDecision} {s last : GateState} {cache : Option ReplayHandle}
  {admitted : Bool}

theorem admitDecisionNonce_queue
    (h : gate.admitDecisionNonce order env decision s replay = (admitted, last, cache)) :
    last.queue = s.queue := by
  obtain rfl := congrArg (fun result => result.2.1) h
  unfold admitDecisionNonce
  split
  · rfl
  · split
    · split <;> rfl
    · rfl

theorem admitDecisionNonce_isSome
    (h : gate.admitDecisionNonce order env decision s replay = (admitted, last, cache)) :
    cache.isSome = replay.isSome := by
  obtain rfl := congrArg (fun result => result.2.2) h
  unfold admitDecisionNonce attached
  split
  · rfl
  · rename_i handle hAttached
    have hReplay : replay = some handle := by
      split at hAttached
      · exact hAttached
      · cases hAttached
    split
    · split <;> rw [hReplay] <;> rfl
    · rfl

/-- The cache forgets nothing when a decision's nonce is admitted. It was new, and is the one a
compensation would forget. -/
theorem admitDecisionNonce_keeps {handle : ReplayHandle}
    (h : gate.admitDecisionNonce order env decision s (some handle) = (admitted, last, cache)) :
    ∃ after, cache = some after ∧ handle.Keeps after ∧
      (admitted → gate.cached → ∃ nonce,
        last.lastAdmittedDecisionNonce = some nonce ∧ nonce ∉ handle.cache.nonces) := by
  unfold admitDecisionNonce attached at h
  cases hCached : gate.cached with
  | false =>
    simp only [hCached, Bool.false_eq_true, if_false] at h
    cases h
    exact ⟨handle, rfl, .refl handle, by simp⟩
  | true =>
    simp only [hCached, if_true] at h
    split at h
    · rename_i nonce expiresAt hNonce hExpiry
      have hKeeps := handle.keeps_admitAt order ⟨nonce, expiresAt⟩ env.gateClock env.gateWrite
      split at h
      · rename_i after hAdmit
        have hFresh := (ReplayHandle.admitAt_ok (congrArg Prod.fst hAdmit)).1
        rw [hAdmit] at hKeeps
        cases h
        exact ⟨after, rfl, hKeeps, fun _ _ => ⟨nonce, rfl, hFresh⟩⟩
      · rename_i error after hAdmit
        rw [hAdmit] at hKeeps
        cases h
        exact ⟨after, rfl, hKeeps, by simp⟩
    · cases h
      exact ⟨handle, rfl, .refl handle, by simp⟩

/-- A decision with an admitted nonce approves the task; else it stays queued. -/
theorem evaluate_permitted (hDecision : gate.resolveDecision (taskApprovalId task) = some decision)
    (hPermits : decisionPermitsSpawn decision)
    (h : gate.admitDecisionNonce order env decision s replay = (admitted, last, cache)) :
    gate.evaluate order env task action s replay =
      if admitted then
        (.approved, { last with queue := s.queue.remove (taskApprovalId task) }, cache)
      else
        (.pending (taskApprovalId task),
          { last with queue := s.queue.put (gate.taskHold
            (taskApprovalRequest task action gate.targetAgent gate.expiresAt)) }, cache) := by
  simp only [evaluate, taskApprovalRequest_requestId, hDecision, hPermits, if_true, h,
    ← admitDecisionNonce_queue h]
  cases admitted <;> rfl

end Admission

/-- Without a decision the request expires or is queued, by its first deadline. -/
theorem evaluate_undecided (action : TaskAction) (s : GateState) (replay : Option ReplayHandle)
    (hDecision : gate.resolveDecision (taskApprovalId task) = none) :
    ∃ expiresAt,
      expiresAt = deadline s.queue
        (taskApprovalRequest task action gate.targetAgent gate.expiresAt) ∧
      gate.evaluate order env task action s replay =
      if approvalRequestExpired expiresAt gate.nowUnix then
        (.expired (taskApprovalId task),
          { s with queue := s.queue.remove (taskApprovalId task) }, replay)
      else
        (.pending (taskApprovalId task),
          { s with queue := s.queue.put (gate.taskHold
            (taskApprovalRequest task action gate.targetAgent expiresAt)) }, replay) := by
  refine ⟨_, rfl, ?_⟩
  simp only [evaluate, taskApprovalRequest_requestId, hDecision]
  rfl

/-- What the gate can answer. It approves on an approving decision whose nonce was admitted; else
the request is dropped, or queued as raised for this task and action. -/
theorem evaluate_cases (task : TaskState) (action : TaskAction) (s : GateState)
    (replay : Option ReplayHandle) :
    (∃ decision last cache, gate.resolveDecision (taskApprovalId task) = some decision ∧
      decisionPermitsSpawn decision ∧
      gate.admitDecisionNonce order env decision s replay = (true, last, cache) ∧
      gate.evaluate order env task action s replay =
        (.approved, { last with queue := s.queue.remove (taskApprovalId task) }, cache)) ∨
    (∃ disposition, disposition ≠ .approved ∧ (∀ requestId, disposition ≠ .pending requestId) ∧
      gate.evaluate order env task action s replay =
        (disposition, { s with queue := s.queue.remove (taskApprovalId task) }, replay)) ∨
    ∃ expiresAt last cache, (cache = replay ∨ ∃ decision admitted last,
        gate.admitDecisionNonce order env decision s replay = (admitted, last, cache)) ∧
      gate.evaluate order env task action s replay =
        (.pending (taskApprovalId task),
          ⟨s.queue.put (gate.taskHold
            (taskApprovalRequest task action gate.targetAgent expiresAt)), last⟩, cache) := by
  cases hDecision : gate.resolveDecision (taskApprovalId task) with
  | none =>
    obtain ⟨expiresAt, -, hEvaluate⟩ := evaluate_undecided action s replay hDecision
    rw [hEvaluate]
    split
    · exact .inr (.inl ⟨_, by simp, by simp, rfl⟩)
    · exact .inr (.inr ⟨expiresAt, _, replay, .inl rfl, rfl⟩)
  | some decision =>
    cases hPermits : decisionPermitsSpawn decision with
    | false =>
      refine .inr (.inl ⟨.denied "approval denied by operator", by simp, by simp, ?_⟩)
      simp [evaluate, hDecision, hPermits]
    | true =>
      rcases hAdmit : gate.admitDecisionNonce order env decision s replay with
        ⟨_ | _, last, cache⟩
      · exact .inr (.inr ⟨gate.expiresAt, _, cache, .inr ⟨decision, _, last, hAdmit⟩,
          evaluate_permitted hDecision hPermits hAdmit⟩)
      · exact .inl ⟨decision, last, cache, rfl, hPermits, hAdmit,
          evaluate_permitted hDecision hPermits hAdmit⟩

/-- An approval goes by an approving decision on the task's request. -/
theorem decision_of_approved {s : GateState}
    (h : (gate.evaluate order env task action s replay).1 = .approved) :
    ∃ decision, gate.resolveDecision (taskApprovalId task) = some decision ∧
      decisionPermitsSpawn decision := by
  rcases gate.evaluate_cases task action s replay with
    ⟨decision, _, _, hDecision, hPermits, -⟩ | ⟨_, hOther, -, hEvaluate⟩ |
      ⟨_, _, _, -, hEvaluate⟩
  · exact ⟨decision, hDecision, hPermits⟩
  · rw [hEvaluate] at h
    exact absurd h hOther
  · rw [hEvaluate] at h
    cases h

/-- A pending answer inserts under the task's id, any other removes. -/
theorem evaluate_queue (task : TaskState) (action : TaskAction) (s : GateState)
    (replay : Option ReplayHandle) :
    (∃ requestId hold,
      (gate.evaluate order env task action s replay).1 = .pending requestId ∧
      hold.requestId = taskApprovalId task ∧
      (gate.evaluate order env task action s replay).2.1.queue = s.queue.put hold) ∨
    (∀ requestId, (gate.evaluate order env task action s replay).1 ≠ .pending requestId) ∧
      (gate.evaluate order env task action s replay).2.1.queue =
        s.queue.remove (taskApprovalId task) := by
  rcases gate.evaluate_cases task action s replay with
    ⟨decision, _, _, -, -, -, hEvaluate⟩ | ⟨_, -, hSettled, hEvaluate⟩ |
      ⟨expiresAt, _, _, -, hEvaluate⟩ <;> rw [hEvaluate]
  · exact .inr ⟨by simp, rfl⟩
  · exact .inr ⟨hSettled, rfl⟩
  · exact .inl ⟨_, _, rfl, rfl, rfl⟩

variable (order gate) in
def toGate : TaskApprovalGate GateState where
  evaluate := gate.evaluate order
  compensateLostClaim := gate.compensateLostClaim
  evaluate_isSome := by
    intro env task action s replay
    rcases gate.evaluate_cases task action s replay with
      ⟨decision, _, _, -, -, hAdmit, hEvaluate⟩ | ⟨_, -, -, hEvaluate⟩ |
        ⟨_, _, _, rfl | ⟨decision, _, _, hAdmit⟩, hEvaluate⟩ <;> rw [hEvaluate]
    · exact admitDecisionNonce_isSome hAdmit
    · exact admitDecisionNonce_isSome hAdmit

end QueueApprovalGate

end MxAgent.Daemon
