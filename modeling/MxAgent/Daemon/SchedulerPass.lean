import MxAgent.Daemon.LiveEvents
import MxAgent.Daemon.SchedulerLoop
import MxAgent.Daemon.TaskGates

/-! One pass of the scheduler over the approval queue. The pass loads the queue
once; the approval gates of its agents and the sweep of expired holds edit its copy; at
the end the whole copy is saved if it has changed. -/
namespace MxAgent.Daemon

open Protocol Std TaskOrchestrator

def expiredLiveHoldsInRoom (queue : ApprovalQueue) (roomId : String) (nowUnix : Int) :
    List PendingApproval :=
  (ApprovalQueue.pendingInRoom queue roomId).filter fun pending =>
    pending.heldRequest.isSome && approvalRequestExpired pending.request.expiresAt nowUnix

def expireHeld (env : LiveEnv) (roomId : String) : HeldRequest → List LiveEffect
  | .exec request => rejectHeldExec env roomId request .approvalExpired
  | .call request => rejectHeldCall env roomId request .approvalExpired

def sweepLoop (env : LiveEnv) (roomId : String) :
    List PendingApproval → ApprovalQueue → ApprovalQueue × List LiveEffect
  | [], queue => (queue, [])
  | pending :: rest, queue =>
    match pending.heldRequest with
    | none => sweepLoop env roomId rest queue
    | some held =>
      let (queue, effects) := sweepLoop env roomId rest (queue.remove pending.requestId)
      (queue, expireHeld env roomId held ++ effects)

def sweepExpiredLiveHolds (env : LiveEnv) (roomId : String) (nowUnix : Int)
    (queue : ApprovalQueue) : ApprovalQueue × List LiveEffect :=
  sweepLoop env roomId (expiredLiveHoldsInRoom queue roomId nowUnix) queue

/-- What a pass fixes at its start: its queue, the expiry and its time. -/
structure Pass where
  before : ApprovalQueue
  expiresAt : String
  nowUnix : Int
  deriving DecidableEq

/-- The start of `scheduler_pass`, with two readings of the clock. -/
def Pass.load (file : QueueFile) (read : IoResult) (stampedAt : Nat) (nowUnix : Int) : Pass :=
  ⟨ApprovalQueue.loadOrDefault file read, approvalRequestExpiry stampedAt, nowUnix⟩

def Pass.save (pass : Pass) (queue : ApprovalQueue) (write : IoResult) (file : QueueFile) :
    QueueFile :=
  if queue = pass.before then file else ApprovalQueue.save queue write file

/-- One of the daemon's agents in a room, with all that it finds. -/
structure PassAgent (Key σ δ : Type) where
  roomId : String
  agentId : String
  maxInvocations : Nat
  policy : Policy
  trust : TrustStore
  verifyingKeys : ExtTreeMap String Key
  /-- The replay cache, loaded for this agent. -/
  replay : ReplayHandle
  decisions : ExtTreeMap String ApprovalDecision
  store : TaskStore σ
  dispatcher : TaskDispatcher δ
  input : TickInput

variable {Key σ δ γ : Type} (crypto : Crypto Key) (regexNew : RegexNew) (order : EvictionOrder)

def PassAgent.gate (agent : PassAgent Key σ δ) (pass : Pass) : QueueApprovalGate where
  roomId := agent.roomId
  targetAgent := agent.agentId
  expiresAt := pass.expiresAt
  nowUnix := pass.nowUnix
  cached := true
  resolveDecision requestId := agent.decisions[requestId]?

def PassAgent.orchestrator (agent : PassAgent Key σ δ) (pass : Pass) :
    TaskOrchestrator Key GateState where
  agentId := agent.agentId
  roomId := some agent.roomId
  policy := some agent.policy
  trustStore := some agent.trust
  verifyingKeys := agent.verifyingKeys
  approvalGate := some ((agent.gate pass).toGate order)

/-- A tick starts with a fresh gate over the pass's copy, and no log. -/
def PassAgent.prepare (agent : PassAgent Key σ δ) (t : TickState σ δ GateState) :
    TickState σ δ GateState :=
  { t with world := { t.world with
      gate := ⟨t.world.gate.queue, none⟩
      replay := some agent.replay
      log := [] } }

def schedulerPassForAgent (pass : Pass) (agent : PassAgent Key σ δ)
    (t : TickState σ δ GateState) : List OrchestrationOutcome × TickState σ δ GateState :=
  runSchedulerTick crypto regexNew order (agent.orchestrator order pass) agent.store
    agent.dispatcher ⟨agent.agentId, agent.maxInvocations, false⟩ agent.input
    (agent.prepare t)

variable {crypto regexNew order}

/-- The sweep takes the entries of its list out of the queue, one after the other. -/
theorem sweepLoop_queue (env : LiveEnv) (roomId : String) (expired : List PendingApproval)
    (queue : ApprovalQueue) :
    (sweepLoop env roomId expired queue).1 =
      (expired.filter fun pending => pending.heldRequest.isSome).foldl
        (fun queue pending => queue.remove pending.requestId) queue := by
  induction expired generalizing queue with
  | nil => rfl
  | cons pending rest ih =>
    cases hHeld : pending.heldRequest with
    | none => simp [sweepLoop, hHeld, ih]
    | some held => simp [sweepLoop, hHeld, ih]

theorem get_foldl_remove_iff {removed : List PendingApproval} {queue : ApprovalQueue}
    {requestId : String} {pending : PendingApproval} :
    (removed.foldl (fun queue pending => queue.remove pending.requestId) queue).get
        requestId = some pending ↔
      queue.get requestId = some pending ∧ ∀ other ∈ removed, other.requestId ≠ requestId := by
  induction removed generalizing queue with
  | nil => simp
  | cons head rest ih =>
    rw [List.foldl_cons, ih, KeyedQueue.Queue.get_remove, List.forall_mem_cons]
    by_cases hHead : requestId = head.requestId
    · simp [hHead]
    · simp [hHead, Ne.symm hHead]

/-- A sweep takes out the room's expired live holds, and nothing else. -/
theorem get_sweepExpiredLiveHolds_iff {env : LiveEnv} {roomId requestId : String} {nowUnix : Int}
    {queue : ApprovalQueue} {pending : PendingApproval} :
    (sweepExpiredLiveHolds env roomId nowUnix queue).1.get requestId = some pending ↔
      queue.get requestId = some pending ∧ (pending.roomId = roomId →
        pending.heldRequest.isSome →
          approvalRequestExpired pending.request.expiresAt nowUnix = false) := by
  rw [sweepExpiredLiveHolds, sweepLoop_queue, get_foldl_remove_iff, and_congr_right_iff]
  intro hGet
  obtain ⟨hMem, hKey⟩ := KeyedQueue.Queue.get_eq_some_iff.mp hGet
  have hSwept (other : PendingApproval) :
      other ∈ (expiredLiveHoldsInRoom queue roomId nowUnix).filter
          (fun pending => pending.heldRequest.isSome) ↔
        other ∈ queue.items ∧ other.roomId = roomId ∧ other.heldRequest.isSome ∧
          approvalRequestExpired other.request.expiresAt nowUnix := by
    simp only [expiredLiveHoldsInRoom, ApprovalQueue.pendingInRoom, List.mem_filter, beq_iff_eq,
      Bool.and_eq_true]
    tauto
  constructor
  · intro hKept hRoom hHeld
    by_contra hExpired
    rw [Bool.not_eq_false] at hExpired
    exact hKept pending ((hSwept pending).mpr ⟨hMem, hRoom, hHeld, hExpired⟩) hKey
  · intro hFresh other hOther hSame
    obtain ⟨hItem, hRoom, hHeld, hExpired⟩ := (hSwept other).mp hOther
    -- the queue has one entry for an id
    have hOne : some other = some pending :=
      (KeyedQueue.Queue.get_eq_some_iff.mpr ⟨hItem, hSame⟩).symm.trans hGet
    cases hOne
    rw [hFresh hRoom hHeld] at hExpired
    cases hExpired

variable {Invariant : γ → List GateAnswer → Prop}

namespace TaskOrchestrator

variable {orchestrator : TaskOrchestrator Key γ} {store : TaskStore σ}
  {dispatcher : TaskDispatcher δ} {env : ProcessEnv} {task : TaskState}

theorem dispatchClaimed_unasked (action : TaskAction) (allowance : Allowance)
    (claimed : TaskState) (w : World σ δ γ) :
    Unasked w
      (dispatchClaimed orchestrator store dispatcher env task action allowance claimed w).2 := by
  constructor
  swap
  · obtain ⟨⟨terminal, result, written, hLog⟩, -⟩ :=
      dispatchClaimed_spec action allowance claimed w
    rw [hLog]
    simp [answers, gateAnswer]
  unfold dispatchClaimed
  dsimp only
  split
  · rename_i hFinal
    have hGate := congrArg (fun pair => pair.2.gate) hFinal
    split <;> exact hGate.symm
  · rename_i hFinal
    exact congrArg (fun pair => pair.2.gate) hFinal.symm

/-- Releasing nonces asks the gate nothing, but may tell it of the lost claim. -/
theorem releaseNonces_gate (action : TaskAction) (allowance : Allowance) (w : World σ δ γ) :
    answers (releaseNonces orchestrator env action allowance w).log = answers w.log ∧
    ((releaseNonces orchestrator env action allowance w).gate = w.gate ∨
      allowance.requiresApproval ∧ ∃ gate replay, orchestrator.approvalGate = some gate ∧
        (releaseNonces orchestrator env action allowance w).gate =
          (gate.compensateLostClaim env w.gate replay).1) := by
  constructor
  · obtain ⟨marks, hLog, hMarks⟩ := releaseNonces_log action allowance w
    have hNone : answers marks = [] := by
      rw [answers, List.filterMap_eq_nil_iff]
      intro mark hMark
      rcases hMarks mark hMark with rfl | ⟨auth, -, -, rfl⟩ <;> rfl
    rw [hLog, answers_append, hNone, List.append_nil]
  · -- Whether the action's nonce is forgotten does not matter to the gate.
    unfold releaseNonces
    cases w.replay <;> cases action.authorization <;> dsimp only <;> split <;>
      first
      | exact .inl rfl
      | rename_i gate hApproval hGate
        exact .inr ⟨hApproval, gate, _, hGate, rfl⟩

/-- After its gates a call asks the approval gate nothing. -/
theorem claimAndDispatch_gate (action : TaskAction) (allowance : Allowance) (w : World σ δ γ) :
    answers (claimAndDispatch orchestrator store dispatcher env task action allowance w).2.log =
        answers w.log ∧
    ((claimAndDispatch orchestrator store dispatcher env task action allowance w).2.gate =
        w.gate ∨
      allowance.requiresApproval ∧ ∃ gate replay, orchestrator.approvalGate = some gate ∧
        (claimAndDispatch orchestrator store dispatcher env task action allowance w).2.gate =
          (gate.compensateLostClaim env w.gate replay).1) := by
  have hClaimed : Unasked w (afterClaim orchestrator store env task w) :=
    ⟨rfl, by simp [afterClaim, claimTask_log, answers, gateAnswer]⟩
  unfold afterClaim at hClaimed
  unfold claimAndDispatch
  rcases hClaim : claimTask store (claimOptions orchestrator env task) w with ⟨error | claimed, w₁⟩
  · rw [hClaim] at hClaimed
    cases error with
    | staleClaim taskId expected current =>
      obtain ⟨hAnswers, hGate⟩ := releaseNonces_gate action allowance w₁
      exact ⟨hAnswers.trans hClaimed.answers, hClaimed.gate ▸ hGate⟩
    | notFound taskId => exact ⟨hClaimed.answers, .inl hClaimed.gate⟩
    | other reason => exact ⟨hClaimed.answers, .inl hClaimed.gate⟩
  · rw [hClaim] at hClaimed
    have hDone : Unasked w₁ (dispatchClaimed orchestrator store dispatcher env task action allowance
      claimed w₁).2 := dispatchClaimed_unasked action allowance claimed w₁
    exact ⟨hDone.answers.trans hClaimed.answers, .inl (hDone.gate.trans hClaimed.gate)⟩

theorem unasked_cleared (action : TaskAction) (allowance : Allowance) (w : World σ δ γ) :
    Unasked (afterGate orchestrator env task action allowance w)
      (cleared order orchestrator env task action allowance w) := by
  refine ⟨cleared_gate action allowance w, ?_⟩
  obtain ⟨marks, hLog, hMarks, -⟩ :=
    afterAdmission_log action (afterGate orchestrator env task action allowance w)
  have hNone : answers marks = [] := by
    rw [answers, List.filterMap_eq_nil_iff]
    intro mark hMark
    obtain ⟨use, rfl⟩ := hMarks mark hMark
    rfl
  rw [cleared, hLog, answers_append, hNone, List.append_nil]

/-- What one call does to the gate: nothing, or one question about its task, perhaps with word of a
lost claim after it. -/
theorem processOne_gate (tasks : List TaskState) (w : World σ δ γ) :
    Unasked w (processOne crypto regexNew order orchestrator store dispatcher env task tasks w).2 ∨
    ∃ action gate asked, actionFromTask task = .ok action ∧
      AskedOnce orchestrator env task action gate w asked ∧
      answers (processOne crypto regexNew order orchestrator store dispatcher env task tasks
        w).2.log = answers asked.log ∧
      ((processOne crypto regexNew order orchestrator store dispatcher env task tasks w).2.gate =
          asked.gate ∨
        ∃ replay, (processOne crypto regexNew order orchestrator store dispatcher env task tasks
          w).2.gate = (gate.compensateLostClaim env asked.gate replay).1) := by
  rcases processOne_cases tasks w with
    hSame | ⟨action, hAction, hStopped⟩ | ⟨action, allowance, -, hAction, hPassed, hResult⟩
  · left
    rw [hSame]
    exact ⟨rfl, rfl⟩
  · rcases hStopped.asked with hUnasked | ⟨gate, hAsked⟩
    · exact .inl hUnasked
    · exact .inr ⟨action, gate, _, hAction, hAsked, rfl, .inl rfl⟩
  rw [hResult]
  have hCleared : Unasked (afterGate orchestrator env task action allowance w)
      (cleared order orchestrator env task action allowance w) := unasked_cleared ..
  obtain ⟨hAnswers, hGate⟩ := claimAndDispatch_gate action allowance
    (cleared order orchestrator env task action allowance w)
  cases hApproval : allowance.requiresApproval with
  | false =>
    have hKept : afterGate orchestrator env task action allowance w = w := by
      simp [afterGate, hApproval]
    rw [hKept] at hCleared
    rcases hGate with hSame | ⟨hApproved, -⟩
    · exact .inl (hCleared.trans ⟨hSame, hAnswers⟩)
    · rw [hApproval] at hApproved
      cases hApproved
  | true =>
    obtain ⟨gate, hAttached, -⟩ := hPassed.approved hApproval
    have hAsk : afterGate orchestrator env task action allowance w =
        askGate gate env task action w := by
      simp [afterGate, askGate, hApproval, hAttached]
    rw [hAsk] at hCleared
    refine .inr ⟨action, gate, _, hAction, (askedOnce_askGate action hAttached w).trans hCleared,
      hAnswers, ?_⟩
    rcases hGate with hSame | ⟨-, other, replay, hOther, hTold⟩
    · exact .inl hSame
    · obtain rfl : gate = other := Option.some.inj (hAttached.symm.trans hOther)
      exact .inr ⟨replay, hTold⟩

/-- A property of the gate's state and of the answers it has given. -/
def GateInvariant (Invariant : γ → List GateAnswer → Prop) (w : World σ δ γ) : Prop :=
  Invariant w.gate (answers w.log)

theorem Unasked.invariant {before after : World σ δ γ} (h : Unasked before after)
    (hBefore : GateInvariant Invariant before) :
    GateInvariant Invariant after := by
  unfold GateInvariant
  rwa [h.gate, h.answers]

theorem processOne_invariant {gate : TaskApprovalGate γ}
    (hAttached : orchestrator.approvalGate = some gate) (tasks : List TaskState)
    (hEvaluate : ∀ action state replay given, actionFromTask task = .ok action →
      Invariant state given →
      Invariant (gate.evaluate env task action state replay).2.1
        (given ++ [⟨task, action, (gate.evaluate env task action state replay).1⟩]))
    (hCompensate : ∀ state replay given, Invariant state given →
      Invariant (gate.compensateLostClaim env state replay).1 given) {w : World σ δ γ}
    (h : GateInvariant Invariant w) :
    GateInvariant Invariant
      (processOne crypto regexNew order orchestrator store dispatcher env task tasks w).2 := by
  rcases processOne_gate tasks w with
    hUnasked | ⟨action, asker, asked, hAction, hAsked, hAnswers, hGate⟩
  · exact hUnasked.invariant h
  obtain rfl : gate = asker := Option.some.inj (hAttached.symm.trans hAsked.attached)
  have hNext := hEvaluate action w.gate w.replay _ hAction h
  rw [← hAsked.state, ← hAsked.answers] at hNext
  unfold GateInvariant
  rcases hGate with hSame | ⟨replay, hTold⟩
  · rwa [hSame, hAnswers]
  · rw [hTold, hAnswers]
    exact hCompensate _ replay _ hNext

/-- What a gate keeps over an answer and a lost claim, a tick keeps. -/
theorem runSchedulerTick_gate {gate : TaskApprovalGate γ}
    (hAttached : orchestrator.approvalGate = some gate) (scheduler : TaskScheduler)
    (input : TickInput) (hEvaluate : ∀ env, ∀ task ∈ input.snapshot, ∀ action state replay given,
      actionFromTask task = .ok action → Invariant state given →
      Invariant (gate.evaluate env task action state replay).2.1
        (given ++ [⟨task, action, (gate.evaluate env task action state replay).1⟩]))
    (hCompensate : ∀ env state replay given, Invariant state given →
      Invariant (gate.compensateLostClaim env state replay).1 given) {t : TickState σ δ γ}
    (h : GateInvariant Invariant t.world) :
    GateInvariant Invariant (runSchedulerTick crypto regexNew order orchestrator store dispatcher
      scheduler input t).2.world :=
  runSchedulerTick_invariant
    (fun options w hKept => (finalizeTask_onlyWrote options w).unasked.invariant hKept)
    scheduler input
    (fun env task hTask _ hKept => processOne_invariant hAttached input.snapshot
      (hEvaluate env task hTask) (hCompensate env) hKept)
    h

end TaskOrchestrator

/-- What the queue gate keeps when asked about a task of the snapshot, an agent's part of a pass
keeps, from the pass's copy on. -/
theorem schedulerPassForAgent_gate {Invariant : GateState → List GateAnswer → Prop} (pass : Pass)
    (agent : PassAgent Key σ δ)
    (hEvaluate : ∀ env, ∀ task ∈ agent.input.snapshot, ∀ action state replay given,
      actionFromTask task = .ok action → Invariant state given →
      Invariant ((agent.gate pass).evaluate order env task action state replay).2.1
        (given ++
          [⟨task, action, ((agent.gate pass).evaluate order env task action state replay).1⟩]))
    (hCompensate : ∀ state given, Invariant state given →
      Invariant { state with lastAdmittedDecisionNonce := none } given)
    {t : TickState σ δ GateState} (h : Invariant ⟨t.world.gate.queue, none⟩ []) :
    Invariant
      (schedulerPassForAgent crypto regexNew order pass agent t).2.world.gate
      (answers (schedulerPassForAgent crypto regexNew order pass agent t).2.world.log) := by
  have hStart : GateInvariant Invariant (agent.prepare t).world := h
  exact runSchedulerTick_gate rfl _ agent.input hEvaluate
    (fun _ state _ given hKept => hCompensate state given hKept) hStart

end MxAgent.Daemon
