import MxAgent.System.TaskAuthorizations

/-! Which invocations a run of the scheduler knows to be its own. A tick records an
invocation from the outcome of the call that claimed it; the recovery at the start of
the next tick spares the tasks of recorded invocations. -/
namespace MxAgent.System.ClaimedInvocations

open Protocol Daemon TaskOrchestrator LabelledRun

structure Tick (Key σ δ γ : Type) where
  scheduler : TaskScheduler
  orchestrator : TaskOrchestrator Key γ
  store : TaskStore σ
  dispatcher : TaskDispatcher δ
  storeState : σ
  dispatcherState : δ
  gateState : γ
  replay : Option ReplayHandle
  input : TickInput

/-- The invocation that an accepted claim is for. -/
def claimOf : TaskEffect → Option String
  | .claimed options (.ok _) => options.invocationId
  | _ => none

def claimedIds (log : List TaskEffect) : List String := log.filterMap claimOf

section Step

variable {Key σ δ γ : Type} (crypto : Crypto Key) (regexNew : RegexNew) (order : EvictionOrder)

/-- The state a tick starts from: two sets and the log are kept. -/
def prepared (t : TickState σ δ γ) (tick : Tick Key σ δ γ) : TickState σ δ γ :=
  { t with
    world := ⟨tick.storeState, tick.dispatcherState, tick.gateState, tick.replay, t.world.log⟩ }

def step (t : TickState σ δ γ) (tick : Tick Key σ δ γ) : TickState σ δ γ :=
  (runSchedulerTick crypto regexNew order tick.orchestrator tick.store tick.dispatcher
    tick.scheduler tick.input (prepared t tick)).2

/-- What the reconciliation of a tick does. -/
def recovery (t : TickState σ δ γ) (tick : Tick Key σ δ γ) :
    List OrchestrationOutcome × World σ δ γ :=
  reconcileExecutingTasks tick.orchestrator tick.store tick.input.completedAt tick.input.snapshot
    t.claimedInvocations tick.input.invocations (prepared t tick).world

def start (t : TickState σ δ γ) : TickState σ δ γ :=
  { t with world := { t.world with log := [] } }

def AnyTick (_ : TickState σ δ γ) (_ : Tick Key σ δ γ) : Prop := True

/-- After an accepted claim and dispatch, the final write was refused. -/
def LosesFinalWrite (log : List TaskEffect) : Prop :=
  ∃ options claimed sent action invocationId allowance final error,
    [.claimed options (.ok claimed), .dispatched sent action invocationId allowance,
      .finalized final (.error error)] <:+: log

/-- Each final write that a call of the tick issued was accepted, in the state after its claim. -/
def FinalWritesAccepted (t : TickState σ δ γ) (tick : Tick Key σ δ γ) : Prop :=
  ¬ LosesFinalWrite (step crypto regexNew order t tick).world.log

/-- Every claimed invocation is in the set that ticks share. -/
def Recorded (t : TickState σ δ γ) : Prop :=
  ∀ invocationId ∈ claimedIds t.world.log, invocationId ∈ t.claimedInvocations

/-- What a recovery writes is for tasks of the snapshot with no invocation this run has claimed. -/
def SparesClaimed (t : TickState σ δ γ) (tick : Tick Key σ δ γ) : Prop :=
  ∃ effects, (recovery t tick).2.log = t.world.log ++ effects ∧
    ∀ effect ∈ effects, ∃ task ∈ tick.input.snapshot, ∃ options result,
      effect = .finalized options result ∧ options.taskId = task.taskId ∧
        ∀ invocationId ∈ task.invocationId, invocationId ∉ claimedIds t.world.log

end Step

variable {Key σ δ γ : Type} {crypto : Crypto Key} {regexNew : RegexNew} {order : EvictionOrder}
  {orchestrator : TaskOrchestrator Key γ} {store : TaskStore σ} {dispatcher : TaskDispatcher δ}
  {env : ProcessEnv} {task : TaskState}

/-- A call reports every invocation it has claimed, or its final write is lost. -/
def Reports (before : List TaskEffect) (call : OrchestrationOutcome × World σ δ γ) : Prop :=
  ∃ effects, call.2.log = before ++ effects ∧ (LosesFinalWrite effects ∨
    ∀ invocationId ∈ claimedIds effects, call.1.claimedInvocationId = some invocationId)

theorem LosesFinalWrite.mono {part log : List TaskEffect} (h : LosesFinalWrite part)
    (hPart : part <:+: log) : LosesFinalWrite log := by
  obtain ⟨options, claimed, sent, action, invocationId, allowance, final, error, hInfix⟩ := h
  exact ⟨options, claimed, sent, action, invocationId, allowance, final, error, hInfix.trans hPart⟩

theorem reports_of_no_claim {before effects : List TaskEffect}
    {call : OrchestrationOutcome × World σ δ γ} (hLog : call.2.log = before ++ effects)
    (hNone : ∀ effect ∈ effects, claimOf effect = none) : Reports before call := by
  refine ⟨effects, hLog, .inr fun invocationId hId => ?_⟩
  rw [claimedIds, List.filterMap_eq_nil_iff.mpr hNone] at hId
  cases hId

/-- What comes before a call and claims nothing may be counted with it. -/
theorem Reports.prepend {before middle marks : List TaskEffect}
    {call : OrchestrationOutcome × World σ δ γ} (h : Reports middle call)
    (hMarks : middle = before ++ marks) (hNone : ∀ mark ∈ marks, claimOf mark = none) :
    Reports before call := by
  obtain ⟨effects, hLog, hReport⟩ := h
  refine ⟨marks ++ effects, by rw [hLog, hMarks, List.append_assoc], ?_⟩
  refine hReport.imp (fun hLost => hLost.mono (List.suffix_append marks effects).isInfix) ?_
  intro hReport invocationId hId
  rw [claimedIds, List.filterMap_append, List.filterMap_eq_nil_iff.mpr hNone] at hId
  exact hReport invocationId hId

theorem claimOf_of_isGateEffect {effect : TaskEffect} (h : IsGateEffect effect) :
    claimOf effect = none := by
  cases effect with
  | claimed => cases h
  | _ => rfl

theorem cleared_unclaimed (action : TaskAction) (allowance : Allowance) (w : World σ δ γ) :
    ∃ marks, (cleared order orchestrator env task action allowance w).log = w.log ++ marks ∧
      ∀ mark ∈ marks, claimOf mark = none := by
  have hAsk : ∃ asked, (afterGate orchestrator env task action allowance w).log = w.log ++ asked ∧
      ∀ effect ∈ asked, IsGateEffect effect := (afterGate_spec action allowance w).2.1
  obtain ⟨asked, hAsked, hGate⟩ := hAsk
  unfold cleared
  obtain ⟨admitted, hAdmitted, hOnly, -⟩ := afterAdmission_log action
    (afterGate orchestrator env task action allowance w)
  refine ⟨asked ++ admitted, by rw [hAdmitted, hAsked, List.append_assoc], ?_⟩
  intro mark hMark
  rcases List.mem_append.mp hMark with hMark | hMark
  · exact claimOf_of_isGateEffect (hGate mark hMark)
  · obtain ⟨use, rfl⟩ := hOnly mark hMark
    rfl

/-- A claimed task's outcome names the invocation, if finally written. -/
theorem dispatchClaimed_outcome (action : TaskAction) (allowance : Allowance)
    (claimed : TaskState) (w : World σ δ γ) :
    (dispatchClaimed orchestrator store dispatcher env task action allowance claimed
        w).1.claimedInvocationId = some env.invocationId ∨
      ∃ final error,
        (dispatchClaimed orchestrator store dispatcher env task action allowance claimed w).2.log =
          w.log ++ [.dispatched claimed action env.invocationId allowance,
            .finalized final (.error error)] := by
  unfold dispatchClaimed
  dsimp only
  split
  · left
    split <;> rfl
  · right
    rename_i error after hFinal
    have hError := congrArg Prod.fst hFinal
    have hLog := congrArg (fun pair => pair.2.log) hFinal
    simp only [finalizeTask, dispatchTask] at hError hLog
    exact ⟨_, error, by rw [← hLog, hError, List.append_assoc]; rfl⟩

/-- From the claim on a call reports what it has claimed. -/
theorem claimAndDispatch_reports (action : TaskAction) (allowance : Allowance) (w : World σ δ γ) :
    Reports w.log (claimAndDispatch orchestrator store dispatcher env task action allowance w) := by
  have hClaimLog := claimTask_log store (claimOptions orchestrator env task) w
  unfold claimAndDispatch
  rcases hClaim : claimTask store (claimOptions orchestrator env task) w with ⟨error | claimed, w₁⟩
  · rw [hClaim] at hClaimLog
    cases error with
    | staleClaim taskId expected current =>
      have hReleased : ∃ marks, (releaseNonces orchestrator env action allowance w₁).log =
          w₁.log ++ marks ∧ _ := releaseNonces_log action allowance w₁
      obtain ⟨marks, hMarks, hOnly⟩ := hReleased
      refine Reports.prepend (reports_of_no_claim hMarks ?_) hClaimLog (by simp [claimOf])
      intro effect hEffect
      rcases hOnly effect hEffect with rfl | ⟨auth, -, -, rfl⟩ <;> rfl
    | notFound taskId => exact reports_of_no_claim hClaimLog (by simp [claimOf])
    | other reason => exact reports_of_no_claim hClaimLog (by simp [claimOf])
  · rw [hClaim] at hClaimLog
    have hOutcome : (dispatchClaimed orchestrator store dispatcher env task action allowance claimed
        w₁).1.claimedInvocationId = some env.invocationId ∨ _ :=
      dispatchClaimed_outcome action allowance claimed w₁
    rcases hOutcome with hNamed | ⟨final, error, hLog⟩
    · have hSpec : _ ∧ (dispatchClaimed orchestrator store dispatcher env task action allowance
          claimed w₁).2.replay = w₁.replay := dispatchClaimed_spec action allowance claimed w₁
      obtain ⟨⟨terminal, result, written, hLog⟩, -⟩ := hSpec
      refine ⟨_, hLog.trans (by rw [hClaimLog, List.append_assoc]), .inr fun invocationId hId => ?_⟩
      have hSame : invocationId = env.invocationId := by
        simpa [claimedIds, claimOf, claimOptions] using hId
      rw [hSame]
      exact hNamed
    · refine ⟨_, hLog.trans (by rw [hClaimLog, List.append_assoc]), .inl ?_⟩
      exact ⟨_, claimed, _, _, _, _, _, error, List.infix_refl _⟩

/-- A call of `process_one` reports the invocation it claimed, or its final write was refused. -/
theorem processOne_reports (tasks : List TaskState) (w : World σ δ γ) :
    Reports w.log
      (processOne crypto regexNew order orchestrator store dispatcher env task tasks w) := by
  rcases processOne_cases tasks w with
    hSame | ⟨action, -, hStopped⟩ | ⟨action, allowance, -, -, -, hResult⟩
  · exact reports_of_no_claim (by rw [hSame, List.append_nil]) (by simp)
  · obtain ⟨effects, hLog, hGate⟩ := hStopped.log
    exact reports_of_no_claim hLog fun effect hEffect =>
      claimOf_of_isGateEffect (hGate effect hEffect)
  · rw [hResult]
    have hCall : Reports (cleared order orchestrator env task action allowance w).log
        (claimAndDispatch orchestrator store dispatcher env task action allowance
          (cleared order orchestrator env task action allowance w)) :=
      claimAndDispatch_reports action allowance _
    obtain ⟨marks, hMarks, hNone⟩ := cleared_unclaimed action allowance w
    exact hCall.prepend hMarks hNone

variable {t : TickState σ δ γ}

/-- What every attempt of a tick keeps, whatever the store answers. -/
def RecordedOrLost (t : TickState σ δ γ) : Prop := LosesFinalWrite t.world.log ∨ Recorded t

theorem recordedOrLost_attemptTask (snapshot : List TaskState) (env : ProcessEnv)
    (task : TaskState) (h : RecordedOrLost t) :
    RecordedOrLost (attemptTask crypto regexNew order orchestrator store dispatcher snapshot env
      task t).2 := by
  unfold attemptTask
  dsimp only
  split
  · exact h
  have hReports : Reports t.world.log (processOne crypto regexNew order orchestrator store
      dispatcher env task snapshot t.world) := processOne_reports snapshot t.world
  obtain ⟨effects, hLog, hReport⟩ := hReports
  rcases h with hLost | hRecorded
  · exact .inl (hLost.mono (hLog ▸ (List.prefix_append _ effects).isInfix))
  rcases hReport with hLost | hReport
  · exact .inl (hLost.mono (hLog ▸ (List.suffix_append _ effects).isInfix))
  right
  intro invocationId hId
  simp only [hLog, claimedIds, List.filterMap_append, List.mem_append] at hId ⊢
  rcases hId with hOld | hNew
  · have hKept := hRecorded invocationId hOld
    split
    · exact Finset.mem_insert_of_mem hKept
    · exact hKept
  · simp only [hReport invocationId hNew]
    exact Finset.mem_insert_self ..

/-- A write of the recovery, for one of the tasks and not for a live invocation. -/
def Recovers (tasks : List TaskState) (liveInvocations : Finset String) (effect : TaskEffect) :
    Prop :=
  ∃ task ∈ tasks, ∃ options result, effect = .finalized options result ∧
    options.taskId = task.taskId ∧ isLive task liveInvocations = false

theorem Recovers.mono {tasks more : List TaskState} {liveInvocations : Finset String}
    {effect : TaskEffect} (h : Recovers tasks liveInvocations effect) (hMore : tasks ⊆ more) :
    Recovers more liveInvocations effect := by
  obtain ⟨task, hTask, hRest⟩ := h
  exact ⟨task, hMore hTask, hRest⟩

/-- A task whose invocation is live is not written. -/
theorem reconcileTask_writes (completedAt : String) (task : TaskState)
    (liveInvocations : Finset String) (invocations : Std.ExtTreeMap String InvocationState)
    (w : World σ δ γ) :
    ∃ effects, (reconcileTask orchestrator store completedAt task liveInvocations invocations
        w).2.log = w.log ++ effects ∧
      ∀ effect ∈ effects, Recovers [task] liveInvocations effect := by
  have hWrite : isLive task liveInvocations = false → ∀ state result,
      ∃ effects, (finalizeTask store (recoveryOptions task state result) w).2.log =
        w.log ++ effects ∧ ∀ effect ∈ effects, Recovers [task] liveInvocations effect := by
    intro hDead state result
    refine ⟨_, rfl, fun effect hEffect => ?_⟩
    exact ⟨task, List.mem_singleton_self _, _, _, List.mem_singleton.mp hEffect, rfl, hDead⟩
  unfold reconcileTask
  split
  · exact ⟨[], by simp, by simp⟩
  split
  · exact ⟨[], by simp, by simp⟩
  rename_i hDead
  rw [Bool.not_eq_true] at hDead
  split
  · split
    · unfold reconcileTerminalInvocation
      dsimp only
      split
      · rename_i hFinal
        exact congrArg Prod.snd hFinal ▸ hWrite hDead _ _
      · rename_i hFinal
        exact congrArg Prod.snd hFinal ▸ hWrite hDead _ _
    · exact ⟨[], by simp, by simp⟩
  · unfold recoverStaleExecuting
    split
    · exact ⟨[], by simp, by simp⟩
    split
    · exact ⟨[], by simp, by simp⟩
    dsimp only
    split
    · rename_i hFinal
      exact congrArg Prod.snd hFinal ▸ hWrite hDead _ _
    · rename_i hFinal
      exact congrArg Prod.snd hFinal ▸ hWrite hDead _ _

theorem reconcileLoop_writes (completedAt : Nat → String) (liveInvocations : Finset String)
    (invocations : Std.ExtTreeMap String InvocationState) (turn : Nat) (tasks : List TaskState)
    (w : World σ δ γ) :
    ∃ effects, (reconcileLoop orchestrator store completedAt liveInvocations invocations turn tasks
        w).2.log = w.log ++ effects ∧
      ∀ effect ∈ effects, Recovers tasks liveInvocations effect := by
  induction tasks generalizing turn w with
  | nil => exact ⟨[], by simp [reconcileLoop], by simp⟩
  | cons task rest ih =>
    have hFirst : ∃ effects, (reconcileTask orchestrator store (completedAt turn) task
        liveInvocations invocations w).2.log = w.log ++ effects ∧
        ∀ effect ∈ effects, Recovers [task] liveInvocations effect :=
      reconcileTask_writes (completedAt turn) task liveInvocations invocations w
    obtain ⟨first, hFirst, hRecovers⟩ := hFirst
    obtain ⟨later, hLater, hRest⟩ := ih (turn + 1)
      (reconcileTask orchestrator store (completedAt turn) task liveInvocations invocations w).2
    refine ⟨first ++ later, ?_, ?_⟩
    · rw [reconcileLoop, hLater, hFirst, List.append_assoc]
    · intro effect hEffect
      rcases List.mem_append.mp hEffect with hEffect | hEffect
      · exact (hRecovers effect hEffect).mono (by simp)
      · exact (hRest effect hEffect).mono (List.subset_cons_self ..)

/-- A recovery writes recovered tasks only. -/
theorem recovery_writes (t : TickState σ δ γ) (tick : Tick Key σ δ γ) :
    ∃ effects, (recovery t tick).2.log = t.world.log ++ effects ∧
      ∀ effect ∈ effects, Recovers tick.input.snapshot t.claimedInvocations effect := by
  have hLoop : ∃ effects, (recovery t tick).2.log = t.world.log ++ effects ∧
      ∀ effect ∈ effects,
        Recovers (tick.input.snapshot.filter fun task => task.state == stateExecuting)
          t.claimedInvocations effect := reconcileLoop_writes ..
  obtain ⟨effects, hLog, hRecovers⟩ := hLoop
  exact ⟨effects, hLog, fun effect hEffect =>
    (hRecovers effect hEffect).mono (List.filter_subset_self _)⟩

theorem recorded_recovery (tick : Tick Key σ δ γ) (h : Recorded t) :
    Recorded { prepared t tick with world := (recovery t tick).2 } := by
  obtain ⟨effects, hLog, hRecovers⟩ := recovery_writes t tick
  intro invocationId hId
  refine h invocationId ?_
  have hNone : ∀ effect ∈ effects, claimOf effect = none := by
    intro effect hEffect
    obtain ⟨-, -, options, result, rfl, -⟩ := hRecovers effect hEffect
    rfl
  simpa [hLog, claimedIds, List.filterMap_eq_nil_iff.mpr hNone] using hId

/-- A tick keeps the claimed invocations recorded. -/
theorem recorded_step (t : TickState σ δ γ) (tick : Tick Key σ δ γ)
    (hAccepted : FinalWritesAccepted crypto regexNew order t tick) (h : Recorded t) :
    Recorded (step crypto regexNew order t tick) := by
  have hLoop : RecordedOrLost (step crypto regexNew order t tick) :=
    attemptLoop_preserves (fun env task _ _ =>
      recordedOrLost_attemptTask tick.input.snapshot env task) _ _ _
      (.inr (recorded_recovery tick h))
  exact hLoop.resolve_left hAccepted

/-- What is recorded, the next recovery leaves alone. -/
theorem Recorded.sparesClaimed (h : Recorded t) (tick : Tick Key σ δ γ) : SparesClaimed t tick := by
  obtain ⟨effects, hLog, hRecovers⟩ := recovery_writes t tick
  refine ⟨effects, hLog, fun effect hEffect => ?_⟩
  obtain ⟨task, hTask, options, result, hWrite, hId, hDead⟩ := hRecovers effect hEffect
  refine ⟨task, hTask, options, result, hWrite, hId, fun invocationId hInvocation hClaimed => ?_⟩
  have hLive : isLive task t.claimedInvocations := by
    rw [isLive, hInvocation]
    exact decide_eq_true (h invocationId hClaimed)
  rw [hDead] at hLive
  cases hLive

/-- If the final write after every accepted claim is accepted too, each claimed invocation is in
`claimed_invocations` after every tick, and no recovery writes a task for one, whatever snapshot it
is shown. -/
theorem claimed_never_recovered {t finish : TickState σ δ γ} {ticks : List (Tick Key σ δ γ)}
    (run : Run (FinalWritesAccepted crypto regexNew order) (step crypto regexNew order) (start t)
      ticks finish) :
    Recorded finish ∧ ∀ tick : Tick Key σ δ γ, SparesClaimed finish tick := by
  have hStart : Recorded (start t) := by
    intro invocationId hId
    cases hId
  have hFinish : Recorded finish := run.invariant hStart recorded_step
  exact ⟨hFinish, hFinish.sparesClaimed⟩

section LostFinalWrite

open ApprovalRooms TaskAuthorizations

def acceptingStore : TaskStore Unit where
  claim _ options := (.ok (taskOf buildAction (options.expectedStateRev.getD 0 + 1)), ())
  finalize _ options := (.ok { taskOf buildAction 3 with
    state := options.state.getD stateFailed }, ())

def tickOver (store : TaskStore Unit) (snapshot : List TaskState) :
    ClaimedInvocations.Tick String Unit Unit GateState where
  scheduler := ⟨"agent-daemon", 4, false⟩
  orchestrator := (buildTick 1).orchestrator .byNonce
  store
  dispatcher := succeedingDispatcher
  storeState := ()
  dispatcherState := ()
  gateState := ⟨ApprovalQueue.default, none⟩
  replay := some emptyCache
  input := ⟨snapshot, ∅, fun _ => "2026-06-02T12:01:00Z", fun _ => processEnv⟩

def afterTick (store : TaskStore Unit) : TickState Unit Unit GateState :=
  ClaimedInvocations.step namedKeys (fun _ => none) .byNonce (ClaimedInvocations.start firstTick)
    (tickOver store [taskOf buildAction 1])

/-- The task as seen after the claim and before the final write. -/
def staleTask : TaskState :=
  { taskOf buildAction 2 with
    state := stateExecuting
    invocationId := some "inv-1" }

def refused : TaskEffect → Bool
  | .finalized _ (.error _) => true
  | _ => false

theorem claimed_never_recovered_accepting :
    claimedIds (afterTick acceptingStore).world.log = ["inv-1"] ∧
      SparesClaimed (afterTick acceptingStore) (tickOver acceptingStore [staleTask]) := by
  refine ⟨by decide +kernel, ?_⟩
  have hAccepted : FinalWritesAccepted namedKeys (fun _ => none) .byNonce
      (ClaimedInvocations.start firstTick) (tickOver acceptingStore [taskOf buildAction 1]) := by
    rintro ⟨_, _, _, _, _, _, _, _, hLost⟩
    have hRefused := hLost.subset (List.mem_cons_of_mem _ (List.mem_cons_of_mem _
      List.mem_cons_self))
    have hNone : ∀ effect ∈ (afterTick acceptingStore).world.log, refused effect = false := by
      decide +kernel
    cases hNone _ hRefused
  have run : Run (FinalWritesAccepted namedKeys (fun _ => none) .byNonce)
      (ClaimedInvocations.step namedKeys (fun _ => none) .byNonce)
      (ClaimedInvocations.start firstTick) [tickOver acceptingStore [taskOf buildAction 1]]
      (afterTick acceptingStore) :=
    Allowed.run ⟨hAccepted, trivial⟩
  exact (claimed_never_recovered run).2 _

/-- Claim accepted, final write not: the invocation is not recorded. -/
theorem claimed_unrecorded :
    ¬ ∀ (crypto : Crypto String) (regexNew : RegexNew) (order : EvictionOrder)
        (t finish : TickState Unit Unit GateState)
        (ticks : List (ClaimedInvocations.Tick String Unit Unit GateState)),
        Run ClaimedInvocations.AnyTick (ClaimedInvocations.step crypto regexNew order)
          (ClaimedInvocations.start t) ticks finish →
        Recorded finish ∧
          ∀ tick : ClaimedInvocations.Tick String Unit Unit GateState,
            SparesClaimed finish tick := by
  intro hClaim
  have hRecorded := (hClaim namedKeys (fun _ => none) .byNonce firstTick
    (afterTick forgetfulStore) [tickOver forgetfulStore [taskOf buildAction 1]]
    (Allowed.run ⟨trivial, trivial⟩)).1 "inv-1" (by decide +kernel)
  revert hRecorded
  decide +kernel

/-- The next tick is shown the executing task and writes it back as failed. -/
example :
    (recovery (afterTick forgetfulStore) (tickOver acceptingStore [staleTask])).1 =
      [.recoveredStale "task-1"] := by
  decide +kernel

end LostFinalWrite

end MxAgent.System.ClaimedInvocations
