import MxAgent.Foundations.Run
import MxAgent.Daemon.TaskReplay
import MxAgent.Daemon.SchedulerLoop
import MxAgent.System.ApprovalRooms

/-! Signed task authorizations across scheduler ticks. Every tick may see another
snapshot, another queue and another store, and every write may fail; the replay cache
is what they share, and it lets each authorization reach the dispatcher once. -/
namespace MxAgent.System.TaskAuthorizations

open Protocol Daemon TaskOrchestrator LabelledRun SingleUse

/-- One tick, with the policy, the keys and all that it finds. -/
structure Tick (Key σ δ : Type) where
  scheduler : TaskScheduler
  agentId : String
  roomId : Option String
  policy : Option Policy
  trust : TrustStore
  verifyingKeys : Std.ExtTreeMap String Key
  gate : Option QueueApprovalGate
  gateState : GateState
  store : TaskStore σ
  dispatcher : TaskDispatcher δ
  input : TickInput

variable {Key σ δ : Type} (crypto : Crypto Key) (regexNew : RegexNew) (order : EvictionOrder)

def Tick.orchestrator (tick : Tick Key σ δ) : TaskOrchestrator Key GateState where
  agentId := tick.agentId
  roomId := tick.roomId
  policy := tick.policy
  trustStore := some tick.trust
  verifyingKeys := tick.verifyingKeys
  approvalGate := tick.gate.map (·.toGate order)

def step (t : TickState σ δ GateState) (tick : Tick Key σ δ) : TickState σ δ GateState :=
  (runSchedulerTick crypto regexNew order (tick.orchestrator order) tick.store tick.dispatcher
    tick.scheduler tick.input { t with world := { t.world with gate := tick.gateState } }).2

def AnyTick (_ : TickState σ δ GateState) (_ : Tick Key σ δ) : Prop := True

def start (handle : ReplayHandle) (t : TickState σ δ GateState) : TickState σ δ GateState :=
  { t with world := { t.world with replay := some handle, log := [] } }

/-- The uses that were dispatched so far. -/
def dispatchedUses (w : World σ δ GateState) : List NonceUse :=
  w.log.filterMap TaskEffect.dispatchedUse

/-- The cache accounts for the dispatches while it has room and its clock does not go back. -/
def Accounts (w : World σ δ GateState) : Prop :=
  ∃ handle, w.replay = some handle ∧
    (∀ task action invocationId allowance,
      .dispatched task action invocationId allowance ∈ w.log → action.authorization.isSome) ∧
    (handle.undisturbed →
      Accounted nonceLifetime handle.cache.nonces.Holds (dispatchedUses w) handle.clock ∧
        (dispatchedUses w).Nodup)

variable {crypto regexNew order}

theorem Tick.sound (tick : Tick Key σ δ) :
    ∀ gate ∈ (tick.orchestrator order).approvalGate, gate.Sound := by
  intro gate hGate
  obtain ⟨settings, -, rfl⟩ := Option.map_eq_some_iff.mp hGate
  exact settings.toGate_sound order

theorem accounts_start (handle : ReplayHandle) (t : TickState σ δ GateState) :
    Accounts (start handle t).world :=
  ⟨handle, rfl, by simp [start], fun _ => ⟨accounted_nil, List.nodup_nil⟩⟩

theorem accounts_finalizeTask {store : TaskStore σ} (options : UpdateTaskOptions)
    (w : World σ δ GateState) (h : Accounts w) : Accounts (finalizeTask store options w).2 := by
  obtain ⟨handle, hReplay, hSigned, hAccounted⟩ := h
  have hUses : dispatchedUses (finalizeTask store options w).2 = dispatchedUses w := by
    simp [dispatchedUses, finalizeTask, List.filterMap_cons, TaskEffect.dispatchedUse]
  refine ⟨handle, hReplay, ?_, by rwa [hUses]⟩
  intro task action invocationId allowance hDispatch
  refine hSigned task action invocationId allowance ?_
  simpa [finalizeTask] using hDispatch

/-- What a call spends is accounted for in the record of dispatches. -/
theorem Spent.accounted {before after : ReplayHandle} {effects : List TaskEffect}
    (h : Spent before after effects) (hEnd : after.undisturbed) {log : List NonceUse}
    (hAccounted : Accounted nonceLifetime before.cache.nonces.Holds log before.clock)
    (hNodup : log.Nodup) :
    Accounted nonceLifetime after.cache.nonces.Holds
        (log ++ effects.filterMap TaskEffect.dispatchedUse) after.clock ∧
      (log ++ effects.filterMap TaskEffect.dispatchedUse).Nodup := by
  have hTime := h.keeps.clock hEnd
  have hKeep := h.keeps.held hEnd
  rcases h.dispatched with hNone | ⟨use, hUse, hLive, hHolds, hLapsed⟩
  · rw [hNone, List.append_nil]
    exact ⟨hAccounted.advance hTime hKeep, hNodup⟩
  · rw [hUse]
    have hFresh : ¬ before.cache.nonces.Holds use := fun hHeld =>
      hLapsed hEnd use rfl hHeld hLive
    exact hAccounted.accept hNodup hTime hLive hFresh hKeep hHolds

/-- A call of `process_one` keeps the account. -/
theorem accounts_processOne {orchestrator : TaskOrchestrator Key GateState}
    {store : TaskStore σ} {dispatcher : TaskDispatcher δ}
    (hSound : ∀ gate ∈ orchestrator.approvalGate, gate.Sound) (snapshot : List TaskState)
    (env : ProcessEnv) (task : TaskState) (w : World σ δ GateState) (h : Accounts w) :
    Accounts (processOne crypto regexNew order orchestrator store dispatcher env task snapshot
      w).2 := by
  obtain ⟨handle, hReplay, hSigned, hAccounted⟩ := h
  obtain ⟨last, effects, hLast, hLog, hSpent⟩ := processOne_spent snapshot hSound hReplay
  refine ⟨last, hLast, ?_, ?_⟩
  · intro task' action invocationId allowance hDispatch
    rw [hLog] at hDispatch
    rcases List.mem_append.mp hDispatch with hOld | hNew
    · exact hSigned _ _ _ _ hOld
    · exact hSpent.signed _ _ _ _ hNew
  · intro hEnd
    obtain ⟨hBefore, hNodup⟩ := hAccounted (hSpent.keeps.undisturbed hEnd)
    rw [dispatchedUses, hLog, List.filterMap_append]
    exact Spent.accounted hSpent hEnd hBefore hNodup

/-- A tick keeps the account. -/
theorem accounts_step (t : TickState σ δ GateState) (tick : Tick Key σ δ)
    (h : Accounts t.world) : Accounts (step crypto regexNew order t tick).world := by
  refine runSchedulerTick_invariant accounts_finalizeTask tick.scheduler tick.input
    (fun env task _ => accounts_processOne tick.sound tick.input.snapshot env task) ?_
  obtain ⟨handle, hReplay, hSigned, hAccounted⟩ := h
  exact ⟨handle, hReplay, hSigned, hAccounted⟩

/-- However the ticks go, no authorization is dispatched twice, and every dispatch is authorized. A
nonce is forgotten only by a call that has admitted it and dispatches nothing. -/
theorem authorization_dispatched_once {handle : ReplayHandle} {t finish : TickState σ δ GateState}
    {ticks : List (Tick Key σ δ)}
    (run : Run AnyTick (step crypto regexNew order) (start handle t) ticks finish)
    {last : ReplayHandle} (hLast : finish.world.replay = some last)
    (hUndisturbed : last.undisturbed) :
    (dispatchedUses finish.world).Nodup ∧
    (∀ task action invocationId allowance,
      .dispatched task action invocationId allowance ∈ finish.world.log →
        action.authorization.isSome) ∧
    ∀ (tick : Tick Key σ δ) env task (w : World σ δ GateState), w.replay.isSome → ∃ effects,
      (processOne crypto regexNew order (tick.orchestrator order) tick.store tick.dispatcher env
        task tick.input.snapshot w).2.log = w.log ++ effects ∧
      ∀ nonce, .nonceForgotten nonce ∈ effects →
        (∃ use : NonceUse, use.nonce = nonce ∧ .nonceAdmitted use ∈ effects) ∧
          ∀ effect ∈ effects, effect.isDispatch = false := by
  have hFinish : (fun t : TickState σ δ GateState => Accounts t.world) finish :=
    run.invariant (accounts_start handle t) fun t tick _ h => accounts_step t tick h
  obtain ⟨handle', hReplay, hSigned, hAccounted⟩ := hFinish
  obtain rfl : last = handle' := Option.some.inj (hLast.symm.trans hReplay)
  refine ⟨(hAccounted hUndisturbed).2, hSigned, ?_⟩
  intro tick env task w hCached
  obtain ⟨before, hBefore⟩ := Option.isSome_iff_exists.mp hCached
  obtain ⟨_, effects, -, hLog, hSpent⟩ :=
    processOne_spent tick.input.snapshot tick.sound hBefore
  exact ⟨effects, hLog, hSpent.forgotten⟩

section TwoTicks

open ApprovalRooms

def leadAuthorization : TaskActionAuthorization where
  requestingAgent := "agent-lead"
  targetAgent := "agent-daemon"
  createdAt := "2026-06-02T12:00:00Z"
  expiresAt := "2026-06-02T12:05:00Z"
  nonce := "task-nonce"
  signature := signedBy "lead"
  extra := ∅
  extra_fresh := by simp

def taskOf (action : TaskAction) (stateRev : Nat) : TaskState where
  taskId := "task-1"
  title := "build"
  description := ""
  state := statePending
  assignedTo := "agent-daemon"
  createdBy := "@lead:example.org"
  dependsOn := []
  blocks := []
  invocationId := none
  createdAt := "2026-06-02T12:00:00Z"
  updatedAt := "2026-06-02T12:00:00Z"
  stateRev
  previousEventId := none
  result := none
  action := some action
  extra := ∅

def buildAction : TaskAction := .tool "build" .null (some leadAuthorization)

/-- A store that accepts claims and loses final writes. -/
def forgetfulStore : TaskStore Unit where
  claim _ options := (.ok (taskOf buildAction (options.expectedStateRev.getD 0 + 1)), ())
  finalize _ _ := (.error (.other "unreachable"), ())

def succeedingDispatcher : TaskDispatcher Unit where
  dispatch _ _ _ _ _ := (.ok ⟨some 0, "done", none⟩, ())

def processEnv : ProcessEnv where
  invocationId := "inv-1"
  completedAt := "2026-06-02T12:01:00Z"
  gateClock := 1780401660
  gateWrite := .ok ()
  admitClock := 1780401660
  admitWrite := .ok ()
  forgetWrite := .ok ()
  compensateWrite := .ok ()

def buildTick (stateRev : Nat) : Tick String Unit Unit where
  scheduler := ⟨"agent-daemon", 4, false⟩
  agentId := "agent-daemon"
  roomId := none
  policy := none
  trust := ⟨[⟨"agent-lead", "mxagent-ed25519:lead", .trusted⟩]⟩
  verifyingKeys := .ofList [("mxagent-ed25519:lead", "lead")]
  gate := none
  gateState := ⟨ApprovalQueue.default, none⟩
  store := forgetfulStore
  dispatcher := succeedingDispatcher
  input := ⟨[taskOf buildAction stateRev], ∅, fun _ => "2026-06-02T12:01:00Z", fun _ => processEnv⟩

def emptyCache : ReplayHandle := ⟨⟨8, ∅, Nat.succ_pos 7⟩, ⟨none, false⟩, 0, true⟩

def firstTick : TickState Unit Unit GateState where
  world := ⟨(), (), ⟨ApprovalQueue.default, none⟩, none, []⟩
  attempted := ∅
  claimedInvocations := ∅

def afterTicks (ticks : List (Tick String Unit Unit)) : TickState Unit Unit GateState :=
  ticks.foldl (step namedKeys (fun _ => none) .byNonce) (start emptyCache firstTick)

/-- The first tick's final write fails, so the second finds the task pending again. It is not
dispatched again. -/
theorem authorization_dispatched_once_two_ticks :
    dispatchedUses (afterTicks [buildTick 1, buildTick 2]).world =
        [⟨"task-nonce", "2026-06-02T12:05:00Z"⟩] ∧
      (dispatchedUses (afterTicks [buildTick 1, buildTick 2]).world).Nodup := by
  refine ⟨by decide +kernel, ?_⟩
  have hCached : (afterTicks [buildTick 1, buildTick 2]).world.replay.isSome := by decide +kernel
  obtain ⟨last, hLast⟩ := Option.isSome_iff_exists.mp hCached
  have hUndisturbed : (afterTicks [buildTick 1, buildTick 2]).world.replay.any
      ReplayHandle.undisturbed := by
    decide +kernel
  rw [hLast] at hUndisturbed
  have run : Run AnyTick (step namedKeys (fun _ => none) .byNonce) (start emptyCache firstTick)
      [buildTick 1, buildTick 2] (afterTicks [buildTick 1, buildTick 2]) :=
    Allowed.run ⟨trivial, trivial, trivial⟩
  exact (authorization_dispatched_once run hLast hUndisturbed).1

end TwoTicks

end MxAgent.System.TaskAuthorizations
