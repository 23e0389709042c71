import MxAgent.System.BurnedNonces
import MxAgent.System.GateFrame

/-! How firm the deadline of a task's approval is over a series of scheduler
passes. The deadline is the stamp of the entry in the queue. A pass without a
decision keeps it, but a pass with an approving decision does not look at it:
the decision releases the task however late it is, and when its nonce is refused
the entry is queued again under the stamp of the pass. -/
namespace MxAgent.System.ApprovalDeadlines

open Protocol Daemon KeyedQueue QueueApprovalGate LabelledRun BurnedNonces

structure Call where
  gate : QueueApprovalGate
  env : ProcessEnv
  action : TaskAction

structure Pass where
  state : GateState
  replay : Option ReplayHandle
  deriving DecidableEq

variable (order : EvictionOrder) (task : TaskState)

def answer (pass : Pass) (call : Call) : ApprovalDisposition :=
  (call.gate.evaluate order call.env task call.action pass.state pass.replay).1

def next (pass : Pass) (call : Call) : Pass :=
  let (_, state, replay) :=
    call.gate.evaluate order call.env task call.action pass.state pass.replay
  ⟨state, replay⟩

def stamp (pass : Pass) : Option String :=
  (pass.state.queue.get (taskApprovalId task)).map fun pending => pending.request.expiresAt

def settled : ApprovalDisposition → Bool
  | .approved => false
  | .pending _ => false
  | _ => true

/-- The deadline is firm in one call. `known` is the stamp the entry was first queued with; without
one the call's own counts. Past that stamp the call settles the request, and an entry it leaves has
that stamp. -/
def FirmCall (known : Option String) (pass : Pass) (call : Call) : Prop :=
  let found := stamp task (next order task pass call)
  (∀ first ∈ known.or found, approvalRequestExpired first call.gate.nowUnix →
    settled (answer order task pass call)) ∧
  ∀ expiresAt ∈ found, known.or found = some expiresAt

/-- The deadline is firm throughout a series of calls. An entry that stays keeps its first stamp. -/
def Firm : Option String → Pass → List Call → Prop
  | _, _, [] => True
  | known, pass, call :: rest =>
    let found := stamp task (next order task pass call)
    FirmCall order task known pass call ∧
      Firm (if found.isSome then known.or found else none) (next order task pass call) rest

def fresh (call : Call) : Bool := !approvalRequestExpired call.gate.expiresAt call.gate.nowUnix

/-- The cache, if any, would admit an approving decision's nonce. -/
def admits (gate : QueueApprovalGate) (env : ProcessEnv) (replay : Option ReplayHandle)
    (decision : ApprovalDecision) : Bool :=
  match gate.attached replay with
  | none => true
  | some handle =>
    match decision.nonce, decision.expiresAt with
    | some nonce, some expiresAt =>
      admissible handle.cache.nonces ⟨nonce, expiresAt⟩ env.gateClock &&
        decide (env.gateWrite = .ok ())
    | _, _ => false

/-- An approving decision meets a queued request only before its deadline, and its nonce is good or
the pass has the entry's stamp. -/
def InTime (pass : Pass) (call : Call) : Prop :=
  ∀ pending ∈ pass.state.queue.get (taskApprovalId task),
    ∀ decision ∈ call.gate.resolveDecision (taskApprovalId task),
      decisionPermitsSpawn decision →
      approvalRequestExpired pending.request.expiresAt call.gate.nowUnix = false ∧
        (admits call.gate call.env pass.replay decision ∨
          pending.request.expiresAt = call.gate.expiresAt)

variable {order task}

theorem admitAt_eq_ok_iff {handle : ReplayHandle} {use : NonceUse} {clock : Int}
    {write : IoResult} :
    (handle.admitAt order use clock write).1 = .ok () ↔
      admissible handle.cache.nonces use clock ∧ write = .ok () := by
  rw [admissible_iff]
  cases hParse : parseRfc3339ToUnix use.expiresAt with
  | none => simp [ReplayHandle.admitAt, ReplayCache.admitAt, hParse]
  | some expiry =>
    by_cases hExpired : expiry ≤ clock
    · simp [ReplayHandle.admitAt, ReplayCache.admitAt, hParse, hExpired]
    by_cases hSeen : use.nonce ∈ handle.cache.nonces
    · simp [ReplayHandle.admitAt, ReplayCache.admitAt, hParse, hExpired, hSeen]
    · have hLater : clock < expiry := by omega
      cases write <;>
        simp [ReplayHandle.admitAt, ReplayCache.admitAt, hParse, hExpired, hSeen, hLater,
          ReplayCache.persist]

theorem admitDecisionNonce_fst (gate : QueueApprovalGate) (env : ProcessEnv)
    (decision : ApprovalDecision) (s : GateState) (replay : Option ReplayHandle) :
    (gate.admitDecisionNonce order env decision s replay).1 =
      admits gate env replay decision := by
  unfold admitDecisionNonce admits
  cases hAttached : gate.attached replay with
  | none => rfl
  | some handle =>
    cases hNonce : decision.nonce with
    | none => rfl
    | some nonce =>
      cases hExpiry : decision.expiresAt with
      | none => rfl
      | some expiresAt =>
        have hIff : (handle.admitAt order ⟨nonce, expiresAt⟩ env.gateClock
            env.gateWrite).1 = .ok () ↔ _ := admitAt_eq_ok_iff
        rcases hAdmit : handle.admitAt order ⟨nonce, expiresAt⟩ env.gateClock
          env.gateWrite with ⟨granted, after⟩
        rw [hAdmit] at hIff
        rw [Bool.eq_iff_iff, Bool.and_eq_true, decide_eq_true_eq, ← hIff]
        cases granted <;> simp [hAdmit]

/-! ## One call -/

theorem stamp_put {queue : ApprovalQueue} {last : Option String} {replay : Option ReplayHandle}
    (gate : QueueApprovalGate) (action : TaskAction) (target expiresAt : String) :
    stamp task ⟨⟨queue.put (gate.taskHold (taskApprovalRequest task action target expiresAt)),
      last⟩, replay⟩ = some expiresAt := by
  rw [stamp, Queue.get_put]
  simp [taskHold, taskApprovalRequest, PendingApproval.requestId]

theorem stamp_remove {queue : ApprovalQueue} {last : Option String}
    {replay : Option ReplayHandle} :
    stamp task ⟨⟨queue.remove (taskApprovalId task), last⟩, replay⟩ = none := by
  rw [stamp, Queue.get_remove]
  simp

theorem deadline_eq (pass : Pass) (action : TaskAction) (target expiresAt : String) :
    deadline pass.state.queue (taskApprovalRequest task action target expiresAt) =
      (stamp task pass).getD expiresAt := by
  rw [deadline, stamp, taskApprovalRequest_requestId]
  cases pass.state.queue.get (taskApprovalId task) <;> rfl

variable {pass : Pass} {call : Call}

/-- Without an approving decision the call is firm: it is settled by a denial or by the deadline. -/
theorem firmCall_of_not_permitted (h : ∀ decision ∈ call.gate.resolveDecision (taskApprovalId task),
      decisionPermitsSpawn decision = false) :
    FirmCall order task (stamp task pass) pass call := by
  cases hDecision : call.gate.resolveDecision (taskApprovalId task) with
  | some decision =>
    have hDenied : decisionPermitsSpawn decision = false := h decision hDecision
    simp [FirmCall, answer, next, evaluate, hDecision, hDenied, stamp_remove, settled]
  | none =>
    obtain ⟨expiresAt, hDeadline, hEvaluate⟩ : ∃ expiresAt, expiresAt = _ ∧
        call.gate.evaluate order call.env task call.action pass.state pass.replay = _ :=
      evaluate_undecided call.action pass.state pass.replay hDecision
    rw [deadline_eq] at hDeadline
    cases hExpired : approvalRequestExpired expiresAt call.gate.nowUnix with
    | true =>
      simp [FirmCall, answer, next, hEvaluate, hExpired, stamp_remove, settled]
    | false =>
      cases hStamp : stamp task pass with
      | none =>
        simp [FirmCall, answer, next, hEvaluate, hExpired, stamp_put]
      | some queued =>
        rw [hStamp] at hDeadline
        obtain rfl : expiresAt = queued := hDeadline
        simp [FirmCall, answer, next, hEvaluate, hExpired, stamp_put]

/-- An admitted nonce releases the task. A refused one queues the request with the pass's stamp. -/
theorem firmCall_of_permitted_iff {decision : ApprovalDecision} (hFresh : fresh call)
    (hDecision : call.gate.resolveDecision (taskApprovalId task) = some decision)
    (hPermits : decisionPermitsSpawn decision) :
    FirmCall order task (stamp task pass) pass call ↔
      ∀ expiresAt ∈ stamp task pass,
        approvalRequestExpired expiresAt call.gate.nowUnix = false ∧
          (admits call.gate call.env pass.replay decision ∨
            expiresAt = call.gate.expiresAt) := by
  have hAhead : approvalRequestExpired call.gate.expiresAt call.gate.nowUnix = false := by
    simpa [fresh] using hFresh
  have hAdmits : (call.gate.admitDecisionNonce order call.env decision pass.state
    pass.replay).1 = _ := admitDecisionNonce_fst ..
  rcases hAdmit : call.gate.admitDecisionNonce order call.env decision pass.state pass.replay with
    ⟨admitted, last, cache⟩
  have hEvaluate : call.gate.evaluate order call.env task call.action pass.state pass.replay = _ :=
    evaluate_permitted hDecision hPermits hAdmit
  rw [hAdmit] at hAdmits
  cases admitted <;> cases hStamp : stamp task pass <;>
    simp [FirmCall, answer, next, hEvaluate, stamp_put, stamp_remove, settled, hAhead, ← hAdmits]

theorem inTime_iff :
    InTime task pass call ↔
      ∀ expiresAt ∈ stamp task pass,
        ∀ decision ∈ call.gate.resolveDecision (taskApprovalId task),
          decisionPermitsSpawn decision →
          approvalRequestExpired expiresAt call.gate.nowUnix = false ∧
            (admits call.gate call.env pass.replay decision ∨
              expiresAt = call.gate.expiresAt) := by
  simp [InTime, stamp]

/-- One call is firm exactly when it is in time. -/
theorem firmCall_iff_inTime (hFresh : fresh call) :
    FirmCall order task (stamp task pass) pass call ↔ InTime task pass call := by
  rw [inTime_iff]
  cases hDecision : call.gate.resolveDecision (taskApprovalId task) with
  | none => simpa using firmCall_of_not_permitted (by simp [hDecision])
  | some decision =>
    cases hPermits : decisionPermitsSpawn decision with
    | false => simpa [hPermits] using firmCall_of_not_permitted (by simp [hDecision, hPermits])
    | true =>
      rw [firmCall_of_permitted_iff hFresh hDecision hPermits]
      simp [hPermits]

/-- After a firm call, the queued entry has its first stamp. -/
theorem first_stamp_of_firmCall {known : Option String} (h : FirmCall order task known pass call) :
    (if (stamp task (next order task pass call)).isSome then
      known.or (stamp task (next order task pass call)) else none) =
      stamp task (next order task pass call) := by
  cases hFound : stamp task (next order task pass call) with
  | none => rfl
  | some expiresAt =>
    have hFirst := h.2 expiresAt hFound
    simpa [hFound] using hFirst

/-! ## A series of calls -/

/-- Over any series of passes with fresh stamps, the deadline is firm exactly when every approving
decision comes in time. -/
theorem firm_iff_in_time (order : EvictionOrder) (task : TaskState) (pass : Pass)
    (calls : List Call) (hFresh : ∀ call ∈ calls, fresh call) :
    Firm order task (stamp task pass) pass calls ↔
      Allowed (InTime task) (next order task) pass calls := by
  induction calls generalizing pass with
  | nil => simp [Firm, Allowed]
  | cons call rest ih =>
    have hCall : FirmCall order task (stamp task pass) pass call ↔ InTime task pass call :=
      firmCall_iff_inTime (hFresh call List.mem_cons_self)
    have hRest := ih (next order task pass call) fun later hLater =>
      hFresh later (List.mem_cons_of_mem call hLater)
    rw [Firm, Allowed, ← hCall, ← hRest]
    refine and_congr_right fun hFirm => ?_
    rw [first_stamp_of_firmCall hFirm]

/-! ## Passes for one task -/

def approval (nonce : String) : ApprovalDecision where
  requestId := "approval:task_1"
  decision := decisionApproved
  approvedBy := "@lead"
  createdAt := "1970-01-01T00:00:00Z"
  nonce := some nonce
  expiresAt := some "1970-01-01T02:00:00Z"
  signature := none
  extra := ∅

/-- A pass at a time, with the decision it read and the stamp it gives. -/
def passAt (now : Int) (expiresAt : String) (decision : Option ApprovalDecision) : Call where
  gate :=
    { GateFrame.roomGate with
      expiresAt, nowUnix := now, cached := true, resolveDecision := fun _ => decision }
  env := { GateFrame.quietEnv with gateClock := now }
  action := .tool "run_tests" .null none

def idle : Pass := ⟨⟨Queue.empty, none⟩, some TaskAuthorizations.emptyCache⟩

/-- A task that waits, and is approved after half an hour. -/
theorem approval_in_time :
    Firm .byNonce GateFrame.buildTask none idle
      [passAt 0 "1970-01-01T01:00:00Z" none,
        passAt 1800 "1970-01-01T01:30:00Z" (some (approval "n1"))] :=
  (firm_iff_in_time .byNonce GateFrame.buildTask idle _ (by decide +kernel)).mpr (by
    simp only [Allowed, inTime_iff]
    decide +kernel)

/-- The approval that released the task is read again: its nonce is refused and the request queued
for an hour. At that deadline the task still waits if the same approval is read, and is released by
another one. -/
theorem deadline_moved :
    let once := passAt 0 "1970-01-01T01:00:00Z" (some (approval "n1"))
    let again := passAt 1800 "1970-01-01T01:30:00Z" (some (approval "n1"))
    let replayed := passAt 5400 "1970-01-01T02:30:00Z" (some (approval "n1"))
    let other := passAt 5400 "1970-01-01T02:30:00Z" (some (approval "n2"))
    let queued := next .byNonce GateFrame.buildTask
      (next .byNonce GateFrame.buildTask idle once) again
    (∀ call ∈ [once, again, replayed, other], fresh call) ∧
    stamp GateFrame.buildTask queued = some "1970-01-01T01:30:00Z" ∧
    approvalRequestExpired "1970-01-01T01:30:00Z" 5400 ∧
    answer .byNonce GateFrame.buildTask queued replayed = .pending "approval:task_1" ∧
    stamp GateFrame.buildTask (next .byNonce GateFrame.buildTask queued replayed) =
      some "1970-01-01T02:30:00Z" ∧
    answer .byNonce GateFrame.buildTask queued other = .approved := by
  decide +kernel

end MxAgent.System.ApprovalDeadlines
