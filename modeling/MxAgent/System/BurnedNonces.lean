import MxAgent.System.AnnouncedHolds
import MxAgent.System.TaskAuthorizations
import MxAgent.System.TaskDispatch

/-! What a call of `process_one` leaves in the replay cache when it does not dispatch. Up
to two nonces are admitted on the way, the decision's and the action's, and only a lost
claim gives them back. -/
namespace MxAgent.System.BurnedNonces

open Protocol Daemon TaskOrchestrator
open Std (ExtTreeMap)

/-! ## The cache -/

/-- The cache takes a use in: it is unexpired and its nonce is new. -/
def admissible (nonces : Nonces) (use : NonceUse) (clock : Int) : Bool :=
  match parseRfc3339ToUnix use.expiresAt with
  | none => false
  | some expiry => decide (clock < expiry) && !nonces.contains use.nonce

/-- The nonces after a use was taken in. -/
def recorded (nonces : Nonces) (use : NonceUse) (clock : Int) : Nonces :=
  match parseRfc3339ToUnix use.expiresAt with
  | none => nonces
  | some expiry => (nonces.pruneExpired clock).insert use.nonce expiry

/-- Whether the expiry of a use still lies ahead. -/
def unexpired (now : Int) (use : NonceUse) : Bool :=
  match parseRfc3339ToUnix use.expiresAt with
  | none => false
  | some expiry => decide (now < expiry)

/-- Two caches agree on the nonces that have not expired. -/
def SameUnexpired (now : Int) (before after : Nonces) : Prop :=
  after.pruneExpired now = before.pruneExpired now

variable {nonces : Nonces} {use action : NonceUse} {clock later now : Int}

/-- What an admissible use is, by its expiry and its nonce. -/
theorem admissible_iff :
    admissible nonces use clock ↔
      ∃ expiry, parseRfc3339ToUnix use.expiresAt = some expiry ∧ clock < expiry ∧
        use.nonce ∉ nonces := by
  unfold admissible
  cases hParse : parseRfc3339ToUnix use.expiresAt with
  | none => simp
  | some expiry =>
    simp [← Bool.not_eq_true, ExtTreeMap.contains_iff_mem]

theorem size_pruneExpired_le (nonces : Nonces) (clock : Int) :
    (nonces.pruneExpired clock).size ≤ nonces.size :=
  ExtTreeMap.size_filter_le_size

variable {handle : ReplayHandle}

/-- The answer of the cache, and what it then holds if there is room. An admissible use is recorded
also when the write fails; any other is refused. -/
theorem admitAt_spec (order : EvictionOrder) (use : NonceUse) (clock : Int) (write : IoResult)
    (hRoom : handle.cache.nonces.size < handle.cache.capacity) :
    ((handle.admitAt order use clock write).1 = .ok () ↔
      admissible handle.cache.nonces use clock ∧ write = .ok ()) ∧
    (handle.admitAt order use clock write).2.cache.nonces =
      if admissible handle.cache.nonces use clock then recorded handle.cache.nonces use clock
      else handle.cache.nonces := by
  have hHasRoom : handle.cache.HasRoom clock :=
    lt_of_le_of_lt (size_pruneExpired_le _ _) hRoom
  cases hAdmissible : admissible handle.cache.nonces use clock with
  | true =>
    obtain ⟨expiry, hParse, hLater, hFresh⟩ := admissible_iff.mp hAdmissible
    have hRecord : (handle.cache.record order use.nonce expiry clock).nonces =
        recorded handle.cache.nonces use clock := by
      rw [ReplayCache.record_nonces_of_hasRoom hHasRoom, recorded, hParse]
    cases write with
    | error kind =>
      simp [ReplayHandle.admitAt, ReplayCache.admitAt, hParse, not_le.mpr hLater, hFresh,
        ReplayCache.persist, hRecord]
    | ok done =>
      simp [ReplayHandle.admitAt, ReplayCache.admitAt, hParse, not_le.mpr hLater, hFresh,
        ReplayCache.persist, hRecord]
  | false =>
    rcases ReplayCache.admitAt_cases order handle.cache use.nonce use.expiresAt clock write
      handle.disk with ⟨error, hDenied⟩ | ⟨expiry, hParse, hLater, hFresh, -⟩
    · simp [ReplayHandle.admitAt, hDenied]
    · rw [admissible_iff.mpr ⟨expiry, hParse, hLater, hFresh⟩] at hAdmissible
      cases hAdmissible

theorem capacity_admitAt (handle : ReplayHandle) (order : EvictionOrder) (use : NonceUse)
    (clock : Int) (write : IoResult) :
    (handle.admitAt order use clock write).2.cache.capacity = handle.cache.capacity := by
  rcases ReplayCache.admitAt_cases order handle.cache use.nonce use.expiresAt clock write
    handle.disk with ⟨error, hDenied⟩ | ⟨expiry, -, -, -, hAdmit⟩
  · simp [ReplayHandle.admitAt, hDenied]
  · simp [ReplayHandle.admitAt, hAdmit, ReplayCache.record]

/-- Recording a use adds one nonce at most. -/
theorem size_recorded_le (nonces : Nonces) (use : NonceUse) (clock : Int) :
    (recorded nonces use clock).size ≤ nonces.size + 1 := by
  unfold recorded
  split
  · exact Nat.le_succ _
  · exact le_trans ExtTreeMap.size_insert_le
      (Nat.succ_le_succ (size_pruneExpired_le nonces clock))

/-- Forgetting a nonce takes it out, whether or not the file can be written. -/
theorem nonces_forget (handle : ReplayHandle) (nonce : String) (write : IoResult) :
    (handle.forget nonce write).cache.nonces = handle.cache.nonces.erase nonce := by
  cases hSeen : handle.cache.nonces.contains nonce with
  | true => simp [ReplayHandle.forget, ReplayCache.forget, hSeen]
  | false =>
    simp only [ReplayHandle.forget, ReplayCache.forget, hSeen, Bool.false_eq_true, if_false]
    apply ExtTreeMap.ext_getElem?
    intro other
    rw [ExtTreeMap.getElem?_erase]
    split
    · rename_i hSame
      rw [compare_eq_iff_eq] at hSame
      rw [← hSame, ExtTreeMap.getElem?_eq_none_of_contains_eq_false hSeen]
    · rfl

/-- Recording a use changes the unexpired entries at its own nonce only. -/
theorem getElem?_recorded (hTime : clock ≤ now) {expiry : Int}
    (hParse : parseRfc3339ToUnix use.expiresAt = some expiry) (nonce : String) :
    ((recorded nonces use clock).pruneExpired now)[nonce]? =
      if use.nonce = nonce then (if now < expiry then some expiry else none)
      else (nonces.pruneExpired now)[nonce]? := by
  simp only [recorded, hParse, Nonces.getElem?_pruneExpired, ExtTreeMap.getElem?_insert,
    compare_eq_iff_eq]
  split
  · simp [Option.filter_some]
  · rw [Option.filter_filter]
    congr 1
    funext later
    simp only [Bool.and_eq_decide, decide_eq_true_eq, decide_eq_decide]
    omega

/-- A forgotten nonce is gone, and every other one is as it was. -/
theorem getElem?_erased (nonce other : String) :
    (Nonces.pruneExpired (nonces.erase nonce) now)[other]? =
      if nonce = other then none else (nonces.pruneExpired now)[other]? := by
  simp only [Nonces.getElem?_pruneExpired, ExtTreeMap.getElem?_erase, compare_eq_iff_eq]
  split <;> rfl

theorem pruneExpired_of_not_mem {nonce : String} (h : nonce ∉ nonces) :
    (nonces.pruneExpired now)[nonce]? = none := by
  rw [Nonces.getElem?_pruneExpired, ExtTreeMap.getElem?_eq_none h]
  rfl

theorem unexpired_eq {expiry : Int} (hParse : parseRfc3339ToUnix use.expiresAt = some expiry) :
    unexpired now use = decide (now < expiry) := by
  rw [unexpired, hParse]

/-- A recorded use shows, unless it has expired since. -/
theorem expired_of_sameUnexpired {before : Nonces} (hTime : clock ≤ now)
    (h : admissible nonces use clock)
    (hAbsent : (before.pruneExpired now)[use.nonce]? = none)
    (hSame : SameUnexpired now before (recorded nonces use clock)) : unexpired now use = false := by
  obtain ⟨expiry, hParse, -, -⟩ := admissible_iff.mp h
  have hEntry := @getElem?_recorded nonces use clock now hTime expiry hParse use.nonce
  rw [hSame, hAbsent, if_pos rfl, eq_comm, ite_eq_right_iff] at hEntry
  rw [unexpired_eq hParse, decide_eq_false_iff_not]
  exact fun hLive => nomatch hEntry hLive

/-- A recorded use shows until it expires. -/
theorem sameUnexpired_recorded_iff (hTime : clock ≤ now)
    (h : admissible nonces use clock) :
    SameUnexpired now nonces (recorded nonces use clock) ↔ unexpired now use = false := by
  obtain ⟨expiry, hParse, -, hFresh⟩ := admissible_iff.mp h
  have hAbsent : (nonces.pruneExpired now)[use.nonce]? = none := pruneExpired_of_not_mem hFresh
  refine ⟨expired_of_sameUnexpired hTime h hAbsent, fun hExpired => ?_⟩
  rw [unexpired_eq hParse, decide_eq_false_iff_not] at hExpired
  apply ExtTreeMap.ext_getElem?
  intro nonce
  rw [getElem?_recorded hTime hParse, if_neg hExpired]
  split
  · rename_i hSame
    rw [← hSame, hAbsent]
  · rfl

/-- The second of two recorded nonces was not there at first. -/
theorem absent_of_admissible_recorded (hTime : clock ≤ now)
    (h : admissible nonces use clock)
    (hNext : admissible (recorded nonces use clock) action later) :
    (nonces.pruneExpired now)[action.nonce]? = none := by
  obtain ⟨expiry, hParse, -, -⟩ := admissible_iff.mp h
  obtain ⟨-, -, -, hFresh⟩ := admissible_iff.mp hNext
  have hAbsent : ((recorded nonces use clock).pruneExpired now)[action.nonce]? = none :=
    pruneExpired_of_not_mem hFresh
  have hNe : use.nonce ≠ action.nonce := by
    intro hSame
    refine hFresh ?_
    rw [recorded, hParse, ← hSame]
    exact ExtTreeMap.mem_insert_self
  rwa [getElem?_recorded hTime hParse, if_neg hNe] at hAbsent

/-- Two uses that are recorded and kept show, unless both have expired since. -/
theorem sameUnexpired_recorded_twice_iff (hTime : clock ≤ now) (hLater : later ≤ now)
    (h : admissible nonces use clock)
    (hNext : admissible (recorded nonces use clock) action later) :
    SameUnexpired now nonces (recorded (recorded nonces use clock) action later) ↔
      unexpired now use = false ∧ unexpired now action = false := by
  have hSecond := sameUnexpired_recorded_iff hLater hNext
  rw [← sameUnexpired_recorded_iff hTime h]
  constructor
  · intro hSame
    have hExpired := expired_of_sameUnexpired hLater hNext
      (absent_of_admissible_recorded hTime h hNext) hSame
    exact ⟨(Eq.symm (hSecond.mpr hExpired)).trans hSame, hExpired⟩
  · rintro ⟨hFirst, hExpired⟩
    exact (hSecond.mpr hExpired).trans hFirst

/-- What is recorded and forgotten again leaves no trace among the unexpired. -/
theorem sameUnexpired_forgotten (hTime : clock ≤ now) (h : admissible nonces use clock) :
    SameUnexpired now nonces ((recorded nonces use clock).erase use.nonce) := by
  obtain ⟨expiry, hParse, -, hFresh⟩ := admissible_iff.mp h
  apply ExtTreeMap.ext_getElem?
  intro nonce
  rw [getElem?_erased, getElem?_recorded hTime hParse]
  split
  · rename_i hSame
    rw [← hSame, pruneExpired_of_not_mem hFresh]
  · rfl

theorem SameUnexpired.erase {before after : Nonces} (h : SameUnexpired now before after)
    (nonce : String) : SameUnexpired now (before.erase nonce) (after.erase nonce) := by
  apply ExtTreeMap.ext_getElem?
  intro other
  rw [getElem?_erased, getElem?_erased, h]

/-- Two uses that are both forgotten leave no trace. -/
theorem sameUnexpired_forgotten_twice (hTime : clock ≤ now) (hLater : later ≤ now)
    (h : admissible nonces use clock)
    (hNext : admissible (recorded nonces use clock) action later) :
    SameUnexpired now nonces
      (((recorded (recorded nonces use clock) action later).erase action.nonce).erase
        use.nonce) :=
  ((sameUnexpired_forgotten hLater hNext).erase use.nonce).trans (sameUnexpired_forgotten hTime h)

/-! ## The call -/

variable {Key σ δ : Type} (crypto : Crypto Key) (regexNew : RegexNew) (order : EvictionOrder)
  (orchestrator : TaskOrchestrator Key GateState) (store : TaskStore σ)
  (dispatcher : TaskDispatcher δ) (gate : QueueApprovalGate) (env : ProcessEnv) (task : TaskState)

/-- All before the first nonce is used: the task may run, a trusted key signed its action and the
policy allows it. -/
structure Screened (tasks : List TaskState) (action : TaskAction) (allowance : Allowance) :
    Prop where
  eligible : Eligible orchestrator task tasks
  parsed : actionFromTask task = .ok action
  verified : authorizationFailure crypto orchestrator true task action = none
  granted : Granted regexNew orchestrator task action allowance

/-- The use that an approving decision presents. -/
def decisionUse : Option NonceUse := do
  let decision ← gate.resolveDecision (taskApprovalId task)
  if decisionPermitsSpawn decision then
    let nonce ← decision.nonce
    let expiresAt ← decision.expiresAt
    pure ⟨nonce, expiresAt⟩
  else none

/-- The use that a signed action presents. -/
def actionUse (auth : TaskActionAuthorization) : NonceUse := ⟨auth.nonce, auth.expiresAt⟩

/-- The store fails at the claim, other than by a lost race. -/
def claimFails (s : σ) : Bool :=
  match (store.claim s (claimOptions orchestrator env task)).1 with
  | .ok _ => false
  | .error (.staleClaim ..) => false
  | .error _ => true

/-- The call ends after the admission of the action's nonce, not by a lost race, undispatched. -/
def stranded (s : σ) : Bool :=
  env.admitWrite != .ok () || claimFails orchestrator store env task s

/-- The uses that a screened call leaves in the cache without a dispatch. Both are given back if the
claim is lost, and both stay if the action's cannot be written or the claim fails otherwise. -/
def staysBurned (s : σ) (nonces : Nonces) (allowance : Allowance) (action : NonceUse) :
    List NonceUse :=
  if allowance.requiresApproval then
    match decisionUse gate task with
    | none => []
    | some decision =>
      if !admissible nonces decision env.gateClock then []
      else if env.gateWrite != .ok () then [decision]
      else if !admissible (recorded nonces decision env.gateClock) action env.admitClock then
        [decision]
      else if stranded orchestrator store env task s then [decision, action] else []
  else if !admissible nonces action env.admitClock then []
  else if stranded orchestrator store env task s then [action] else []

/-- The call dispatches nothing. -/
def Undispatched (before after : World σ δ GateState) : Prop :=
  after.log.countP TaskEffect.isDispatch = before.log.countP TaskEffect.isDispatch

/-- The call leaves the unexpired nonces as they were. -/
def KeepsUnexpired (now : Int) (before after : World σ δ GateState) : Prop :=
  ∀ handle ∈ before.replay, ∃ last, after.replay = some last ∧
    SameUnexpired now handle.cache.nonces last.cache.nonces

/-- The nonces of the cache, where there is one. -/
def held (w : World σ δ GateState) : Option Nonces :=
  w.replay.map fun handle => handle.cache.nonces

/-- The end of a call: the action's nonce is presented and the task is claimed. -/
def admitAndClaim (action : TaskAction) (allowance : Allowance) (w : World σ δ GateState) :
    OrchestrationOutcome × World σ δ GateState :=
  match admitTaskActionReplay order orchestrator store env task action w with
  | (.error outcome, w) => (outcome, w)
  | (.ok (), w) => claimAndDispatch orchestrator store dispatcher env task action allowance w

/-- What a call does with a screened task: approval, admission and claim. -/
def afterScreen (action : TaskAction) (allowance : Allowance) (w : World σ δ GateState) :
    OrchestrationOutcome × World σ δ GateState :=
  match (if allowance.requiresApproval then
      resolveApproval orchestrator store env task action w else (.ok (), w)) with
  | (.error outcome, w) => (outcome, w)
  | (.ok (), w) =>
    admitAndClaim order orchestrator store dispatcher env task action allowance w

variable {crypto regexNew order orchestrator store dispatcher gate env task}

variable (order env) in
/-- Without a decision's nonce, the gate leaves the cache alone. -/
theorem evaluate_without_use (hCached : gate.cached) (hUse : decisionUse gate task = none)
    (action : TaskAction) (s : GateState) (handle : ReplayHandle) :
    (gate.evaluate order env task action s (some handle)).1 ≠ .approved ∧
      (gate.evaluate order env task action s (some handle)).2.2 = some handle := by
  cases hDecision : gate.resolveDecision (taskApprovalId task) with
  | none =>
    obtain ⟨expiresAt, -, hEvaluate⟩ := QueueApprovalGate.evaluate_undecided action s
      (some handle) hDecision
    rw [hEvaluate]
    split
    · exact ⟨by simp, rfl⟩
    · exact ⟨by simp, rfl⟩
  | some decision =>
    cases hPermits : decisionPermitsSpawn decision with
    | false => simp [QueueApprovalGate.evaluate, hDecision, hPermits]
    | true =>
      have hRefused : gate.admitDecisionNonce order env decision s (some handle) =
          (false, s, some handle) := by
        unfold QueueApprovalGate.admitDecisionNonce
        simp only [QueueApprovalGate.attached, hCached, if_true]
        split
        · rename_i nonce expiresAt hNonce hExpiry
          simp [decisionUse, hDecision, hPermits, hNonce, hExpiry] at hUse
        · rfl
      rw [QueueApprovalGate.evaluate_permitted hDecision hPermits hRefused]
      exact ⟨by simp, rfl⟩

/-- With a decision's nonce, the gate's answer is the cache's. -/
theorem evaluate_with_use (hCached : gate.cached) (hUse : decisionUse gate task = some use)
    (hRoom : handle.cache.nonces.size < handle.cache.capacity) {action : TaskAction}
    {s last : GateState} {answer : ApprovalDisposition} {cache : Option ReplayHandle}
    (hAsked : gate.evaluate order env task action s (some handle) = (answer, last, cache)) :
    (answer = .approved ↔
      admissible handle.cache.nonces use env.gateClock ∧ env.gateWrite = .ok ()) ∧
    (answer = .approved → last.lastAdmittedDecisionNonce = some use.nonce) ∧
    ∃ after, cache = some after ∧ after.cache.capacity = handle.cache.capacity ∧
      after.cache.nonces =
        if admissible handle.cache.nonces use env.gateClock then
          recorded handle.cache.nonces use env.gateClock
        else handle.cache.nonces := by
  simp only [decisionUse, Option.bind_eq_bind, Option.bind_eq_some_iff,
    Option.ite_none_right_eq_some, Option.pure_def, Option.some.injEq] at hUse
  obtain ⟨decision, hDecision, hPermits, nonce, hNonce, expiresAt, hExpiry, rfl⟩ := hUse
  obtain ⟨hAnswer, hNonces⟩ :=
    admitAt_spec order ⟨nonce, expiresAt⟩ env.gateClock env.gateWrite hRoom
  have hCapacity := capacity_admitAt handle order ⟨nonce, expiresAt⟩ env.gateClock env.gateWrite
  rcases hAdmit : gate.admitDecisionNonce order env decision s (some handle) with
    ⟨admitted, kept, left⟩
  rw [QueueApprovalGate.evaluate_permitted hDecision hPermits hAdmit] at hAsked
  rw [← hAnswer]
  rcases hResult : handle.admitAt order ⟨nonce, expiresAt⟩ env.gateClock env.gateWrite with
    ⟨error | ⟨⟩, after⟩
  all_goals
    simp only [QueueApprovalGate.admitDecisionNonce, QueueApprovalGate.attached, hCached, if_true,
      hNonce, hExpiry, hResult] at hAdmit
    cases hAdmit
    cases hAsked
    rw [hResult] at hNonces hCapacity
    exact ⟨by simp, by simp, after, rfl, hCapacity, hNonces⟩

variable {w : World σ δ GateState}

theorem held_congr {other : World σ δ GateState} (h : w.replay = other.replay) :
    held w = held other :=
  congrArg (Option.map _) h

variable {action : TaskAction} {asked : TaskApprovalGate GateState}

variable (store env task action) in
/-- Only the gate touches the cache while the approval is resolved. -/
theorem resolveApproval_replay (hGate : orchestrator.approvalGate = some asked)
    (w : World σ δ GateState) :
    (resolveApproval orchestrator store env task action w).2.replay =
        (asked.evaluate env task action w.gate w.replay).2.2 ∧
    ((resolveApproval orchestrator store env task action w).1 = .ok () ↔
      (asked.evaluate env task action w.gate w.replay).1 = .approved) ∧
    ((asked.evaluate env task action w.gate w.replay).1 = .approved →
      (resolveApproval orchestrator store env task action w).2 =
        askGate asked env task action w) := by
  have hWrote : ∀ reason summary, (blockTask orchestrator store env task action reason summary
      (askGate asked env task action w)).2.replay =
        (asked.evaluate env task action w.gate w.replay).2.2 :=
    fun reason summary => (blockTask_onlyWrote action reason summary _).replay
  rw [resolveApproval_of_gate action hGate]
  cases (asked.evaluate env task action w.gate w.replay).1 with
  | approved => exact ⟨rfl, by simp, fun _ => rfl⟩
  | denied reason => exact ⟨hWrote .., by simp, by simp⟩
  | pending requestId => exact ⟨rfl, by simp, by simp⟩
  | expired requestId => exact ⟨hWrote .., by simp, by simp⟩

variable {auth : TaskActionAuthorization}

variable (order orchestrator store env task) in
/-- The admission of a signed action's nonce; what it does not touch. -/
theorem admitTaskActionReplay_spec (hAuth : action.authorization = some auth)
    (hReplay : w.replay = some handle) :
    (admitTaskActionReplay order orchestrator store env task action w).2.replay =
        some (handle.admitAt order (actionUse auth) env.admitClock env.admitWrite).2 ∧
    ((admitTaskActionReplay order orchestrator store env task action w).1 = .ok () ↔
      (handle.admitAt order (actionUse auth) env.admitClock env.admitWrite).1 = .ok ()) ∧
    ((admitTaskActionReplay order orchestrator store env task action w).1 = .ok () →
      (admitTaskActionReplay order orchestrator store env task action w).2.gate = w.gate ∧
      (admitTaskActionReplay order orchestrator store env task action w).2.store = w.store) := by
  unfold admitTaskActionReplay
  rcases hAdmit : handle.admitAt order ⟨auth.nonce, auth.expiresAt⟩ env.admitClock env.admitWrite
    with ⟨error | ⟨⟩, after⟩
  · have hWrote : ∀ refused : World σ δ GateState, (blockUnauthorized orchestrator store env task
        action (replayReason error) refused).2.replay = refused.replay :=
      fun refused => (blockTask_onlyWrote ..).replay
    simp [hReplay, hAuth, actionUse, hAdmit, hWrote]
  · simp [hReplay, hAuth, actionUse, hAdmit]

theorem claimTask_eq (w : World σ δ GateState) :
    claimTask store (claimOptions orchestrator env task) w =
      ((store.claim w.store (claimOptions orchestrator env task)).1,
        afterClaim orchestrator store env task w) := rfl

variable (orchestrator store dispatcher env task) in
/-- The claim touches the cache only to release the nonces, when it is lost. -/
theorem claimAndDispatch_replay (action : TaskAction) (allowance : Allowance)
    (w : World σ δ GateState) :
    (claimAndDispatch orchestrator store dispatcher env task action allowance w).2.replay =
      match (store.claim w.store (claimOptions orchestrator env task)).1 with
      | .error (.staleClaim ..) =>
        (releaseNonces orchestrator env action allowance
          (afterClaim orchestrator store env task w)).replay
      | _ => w.replay := by
  unfold claimAndDispatch
  rw [claimTask_eq]
  cases (store.claim w.store (claimOptions orchestrator env task)).1 with
  | ok claimed => exact (dispatchClaimed_spec action allowance claimed _).2
  | error error =>
    cases error with
    | staleClaim taskId expected current => rfl
    | notFound taskId => rfl
    | other reason => rfl

variable {after : World σ δ GateState}

/-- Effects that are no dispatch leave a call undispatched. -/
theorem undispatched_of_effects {before : World σ δ GateState} {effects : List TaskEffect}
    (hLog : after.log = before.log ++ effects)
    (hQuiet : ∀ effect ∈ effects, effect.isDispatch = false) : Undispatched before after := by
  have hNone : effects.countP TaskEffect.isDispatch = 0 := by
    rw [List.countP_eq_zero]
    intro effect hEffect
    rw [hQuiet effect hEffect]
    simp
  rw [Undispatched, hLog, List.countP_append, hNone, Nat.add_zero]

/-- What comes after a part without a dispatch decides. -/
theorem Undispatched.trans_iff {first second third : World σ δ GateState}
    (h : Undispatched first second) : Undispatched first third ↔ Undispatched second third := by
  unfold Undispatched at *
  rw [h]

variable (orchestrator store dispatcher env task) in
/-- A claim that succeeds, and no other, is followed by a dispatch. -/
theorem undispatched_claimAndDispatch_iff (action : TaskAction) (allowance : Allowance)
    (w : World σ δ GateState) :
    Undispatched w (claimAndDispatch orchestrator store dispatcher env task action allowance w).2 ↔
      (store.claim w.store (claimOptions orchestrator env task)).1.isOk = false := by
  have hLog := claimTask_log store (claimOptions orchestrator env task) w
  have hQuiet : Undispatched w (afterClaim orchestrator store env task w) :=
    undispatched_of_effects hLog (by simp [TaskEffect.isDispatch])
  unfold claimAndDispatch
  rw [claimTask_eq, hQuiet.trans_iff]
  cases (store.claim w.store (claimOptions orchestrator env task)).1 with
  | ok claimed =>
    obtain ⟨terminal, result, written, hDispatch⟩ : ∃ terminal result written,
        (dispatchClaimed orchestrator store dispatcher env task action allowance claimed
          (afterClaim orchestrator store env task w)).2.log = _ :=
      (dispatchClaimed_spec action allowance claimed _).1
    simp [Undispatched, hDispatch, TaskEffect.isDispatch, Except.isOk, Except.toBool]
  | error error =>
    refine iff_of_true ?_ rfl
    cases error with
    | staleClaim taskId expected current =>
      obtain ⟨marks, hMarks, hOnly⟩ := releaseNonces_log action allowance
        (afterClaim orchestrator store env task w)
      refine undispatched_of_effects hMarks ?_
      intro mark hMark
      rcases hOnly mark hMark with rfl | ⟨auth, -, -, rfl⟩ <;> rfl
    | notFound taskId => exact rfl
    | other reason => exact rfl

/-- The nonces after a lost claim: the action's is erased, and the decision's the gate remembers. -/
def released (allowance : Allowance) (last : Option String) (nonce : String) (nonces : Nonces) :
    Nonces :=
  if allowance.requiresApproval then last.elim (nonces.erase nonce) (nonces.erase nonce).erase
  else nonces.erase nonce

section Claim

variable (hAuth : action.authorization = some auth)
  (hGate : orchestrator.approvalGate = some (gate.toGate order)) (hCached : gate.cached)
  (allowance : Allowance)

include hAuth hGate hCached

/-- Releasing the nonces of a lost claim, on the nonces themselves. -/
theorem held_releaseNonces (hHeld : held w = some nonces) :
    held (releaseNonces orchestrator env action allowance w) =
      some (released allowance w.gate.lastAdmittedDecisionNonce auth.nonce nonces) := by
  obtain ⟨handle, hReplay, rfl⟩ := Option.map_eq_some_iff.mp hHeld
  cases hApproval : allowance.requiresApproval with
  | false => simp [held, released, releaseNonces, hReplay, hAuth, hApproval, nonces_forget]
  | true =>
    cases hLast : w.gate.lastAdmittedDecisionNonce <;>
      simp [held, released, releaseNonces, hReplay, hAuth, hApproval, hGate,
        QueueApprovalGate.toGate, QueueApprovalGate.compensateLostClaim,
        QueueApprovalGate.attached, hCached, hLast, nonces_forget]

/-- What a claim does to the nonces and the log, by how it ends. -/
theorem claimAndDispatch_held (hHeld : held w = some nonces)
    (hAfter : (claimAndDispatch orchestrator store dispatcher env task action allowance w).2 =
      after) :
    (claimFails orchestrator store env task w.store →
      Undispatched w after ∧ held after = some nonces) ∧
    (claimFails orchestrator store env task w.store = false → Undispatched w after → held after =
      some (released allowance w.gate.lastAdmittedDecisionNonce auth.nonce nonces)) := by
  have hReplay := claimAndDispatch_replay orchestrator store dispatcher env task action allowance w
  have hDispatch :=
    undispatched_claimAndDispatch_iff orchestrator store dispatcher env task action allowance w
  rw [hAfter] at hReplay hDispatch
  unfold claimFails
  cases hClaim : (store.claim w.store (claimOptions orchestrator env task)).1 with
  | ok claimed =>
    rw [hClaim] at hDispatch
    refine ⟨by simp, fun _ hUndispatched => ?_⟩
    exact absurd (hDispatch.mp hUndispatched) (by simp [Except.isOk, Except.toBool])
  | error error =>
    rw [hClaim] at hDispatch hReplay
    cases error with
    | staleClaim taskId expected current =>
      refine ⟨by simp, fun _ _ => ?_⟩
      have hClaimed : held (afterClaim orchestrator store env task w) = some nonces := hHeld
      rw [held_congr hReplay]
      exact held_releaseNonces hAuth hGate hCached allowance hClaimed
    | notFound taskId =>
      exact ⟨fun _ => ⟨hDispatch.mpr rfl, (held_congr hReplay).trans hHeld⟩, by simp⟩
    | other reason =>
      exact ⟨fun _ => ⟨hDispatch.mpr rfl, (held_congr hReplay).trans hHeld⟩, by simp⟩

/-- A signed action's nonce, from admission to claim. It stays when the call is stranded, and is
erased with the decision's when the claim is lost. -/
theorem admitAndClaim_spec (hReplay : w.replay = some handle)
    (hRoom : handle.cache.nonces.size < handle.cache.capacity) {new : Bool} {kept : Nonces}
    (hNew : admissible handle.cache.nonces (actionUse auth) env.admitClock = new)
    (hKept : recorded handle.cache.nonces (actionUse auth) env.admitClock = kept)
    (hAfter : (admitAndClaim order orchestrator store dispatcher env task action allowance w).2 =
      after) :
    (new = false → Undispatched w after ∧ held after = some handle.cache.nonces) ∧
    (new → stranded orchestrator store env task w.store →
      Undispatched w after ∧ held after = some kept) ∧
    (new → stranded orchestrator store env task w.store = false → Undispatched w after →
      held after =
        some (released allowance w.gate.lastAdmittedDecisionNonce auth.nonce kept)) := by
  obtain ⟨hAnswer, hNonces⟩ :=
    admitAt_spec order (actionUse auth) env.admitClock env.admitWrite hRoom
  rw [hNew] at hAnswer hNonces
  rw [hKept] at hNonces
  obtain ⟨hAdmitted, hOk, hSame⟩ :=
    admitTaskActionReplay_spec order orchestrator store env task hAuth hReplay
  have hHeld : held (admitTaskActionReplay order orchestrator store env task action w).2 =
      some (if new then kept else handle.cache.nonces) := by
    rw [held, hAdmitted, Option.map_some, hNonces]
  rw [hAnswer] at hOk
  unfold admitAndClaim at hAfter
  rcases admitTaskActionReplay_cases order orchestrator store env task action w with
    ⟨-, hResult⟩ | ⟨-, outcome, admitted, hResult, -, -, ⟨options, result, hLog⟩, -⟩
  · obtain ⟨rfl, hWrite⟩ := hOk.mp (congrArg Prod.fst hResult)
    obtain ⟨hGateState, hStore⟩ := hSame (congrArg Prod.fst hResult)
    rw [hResult] at hAfter hHeld hGateState hStore
    have hQuiet : Undispatched w (afterAdmission order env action w) :=
      undispatched_of_effects (by simp [afterAdmission, hReplay, hAuth]; rfl)
        (by simp [TaskEffect.isDispatch])
    have hStranded : stranded orchestrator store env task w.store =
        claimFails orchestrator store env task w.store := by
      simp [stranded, hWrite]
    rw [if_pos rfl] at hHeld
    obtain ⟨hFailed, hLost⟩ := claimAndDispatch_held hAuth hGate hCached allowance hHeld hAfter
    rw [show (afterAdmission order env action w).store = w.store from hStore] at hFailed hLost
    rw [show (afterAdmission order env action w).gate = w.gate from hGateState] at hLost
    rw [hStranded, hQuiet.trans_iff]
    exact ⟨fun hKnown => absurd hKnown (by simp), fun _ => hFailed, fun _ => hLost⟩
  · rw [hResult] at hAfter hHeld hOk
    obtain rfl : admitted = after := hAfter
    have hQuiet : Undispatched w admitted :=
      undispatched_of_effects hLog (by simp [TaskEffect.isDispatch])
    refine ⟨fun hKnown => ⟨hQuiet, by rw [hHeld, hKnown]; rfl⟩,
      fun hFresh _ => ⟨hQuiet, by rw [hHeld, hFresh]; rfl⟩, ?_⟩
    intro hFresh hClaimed
    simp only [stranded, Bool.or_eq_false_iff, bne_eq_false_iff_eq] at hClaimed
    exact absurd (hOk.mpr ⟨hFresh, hClaimed.1⟩) (by simp)

end Claim

theorem keepsUnexpired_iff (hReplay : w.replay = some handle) (hHeld : held after = some nonces) :
    KeepsUnexpired now w after ↔ SameUnexpired now handle.cache.nonces nonces := by
  obtain ⟨last, hLast, rfl⟩ := Option.map_eq_some_iff.mp hHeld
  simp [KeepsUnexpired, hReplay, hLast]

variable {allowance : Allowance}

/-- A gate that does not approve ends the call. -/
theorem afterScreen_refused (hGated : allowance.requiresApproval)
    (hGate : orchestrator.approvalGate = some asked)
    (hRefused : (asked.evaluate env task action w.gate w.replay).1 ≠ .approved)
    (hAfter : (afterScreen order orchestrator store dispatcher env task action allowance w).2 =
      after) :
    Undispatched w after ∧
      after.replay = (asked.evaluate env task action w.gate w.replay).2.2 := by
  have hReplay := (resolveApproval_replay store env task action hGate w).1
  unfold afterScreen at hAfter
  rcases approval_cases order orchestrator store env task action allowance w with
    ⟨hApproved, -⟩ | ⟨-, outcome, last, hResult, -, hStopped⟩
  · obtain ⟨gate, hSame, hAnswer⟩ := hApproved hGated
    obtain rfl : asked = gate := Option.some.inj (hGate.symm.trans hSame)
    exact absurd hAnswer hRefused
  · obtain ⟨effects, hLog, hQuiet⟩ := hStopped.no_dispatch
    rw [hResult] at hAfter
    obtain rfl : last = after := hAfter
    rw [hGated, if_pos rfl] at hResult
    rw [hResult] at hReplay
    exact ⟨undispatched_of_effects hLog hQuiet, hReplay⟩

/-- After an approval the action's nonce is admitted and the task claimed. -/
theorem afterScreen_approved (hGated : allowance.requiresApproval)
    (hGate : orchestrator.approvalGate = some asked)
    (hApproved : (asked.evaluate env task action w.gate w.replay).1 = .approved) :
    afterScreen order orchestrator store dispatcher env task action allowance w =
      admitAndClaim order orchestrator store dispatcher env task action allowance
        (askGate asked env task action w) := by
  obtain ⟨-, hOk, hSame⟩ := resolveApproval_replay store env task action hGate w
  have hResult : resolveApproval orchestrator store env task action w =
      (.ok (), askGate asked env task action w) :=
    Prod.ext (hOk.mpr hApproved) (hSame hApproved)
  unfold afterScreen
  rw [hGated, if_pos rfl, hResult]

section Screened

variable {action : TaskAction} {auth : TaskActionAuthorization} {allowance : Allowance}
  {w : World σ δ GateState} {handle : ReplayHandle}
  (hAuth : action.authorization = some auth)
  (hGate : orchestrator.approvalGate = some (gate.toGate order)) (hCached : gate.cached)
  (hReplay : w.replay = some handle)
  (hRoom : handle.cache.nonces.size + 2 ≤ handle.cache.capacity)
  (hGateTime : env.gateClock ≤ now) (hAdmitTime : env.admitClock ≤ now)
  (hAfter : (afterScreen order orchestrator store dispatcher env task action allowance w).2 = after)

include hAuth hGate hCached hReplay hRoom hAdmitTime hAfter

/-- An action that needs no approval has one nonce to lose. -/
theorem ungated_kept_iff (hUngated : allowance.requiresApproval = false) :
    (Undispatched w after → KeepsUnexpired now w after) ↔
    ∀ use ∈ staysBurned orchestrator store gate env task w.store handle.cache.nonces allowance
      (actionUse auth), unexpired now use = false := by
  have hTail : afterScreen order orchestrator store dispatcher env task action allowance w =
      admitAndClaim order orchestrator store dispatcher env task action allowance w := by
    simp [afterScreen, hUngated]
  rw [hTail] at hAfter
  obtain ⟨hKnown, hStranded, hLost⟩ := admitAndClaim_spec hAuth hGate hCached allowance hReplay
    (by omega) rfl rfl hAfter
  simp only [staysBurned, hUngated, Bool.false_eq_true, if_false]
  cases hNew : admissible handle.cache.nonces (actionUse auth) env.admitClock with
  | false =>
    obtain ⟨-, hHeld⟩ := hKnown hNew
    rw [keepsUnexpired_iff hReplay hHeld]
    simp [SameUnexpired]
  | true =>
    cases hEnd : stranded orchestrator store env task w.store with
    | true =>
      obtain ⟨hQuiet, hHeld⟩ := hStranded hNew hEnd
      rw [keepsUnexpired_iff hReplay hHeld, sameUnexpired_recorded_iff hAdmitTime hNew]
      simp [hQuiet]
    | false =>
      refine iff_of_true (fun hQuiet => ?_) (by simp)
      rw [keepsUnexpired_iff hReplay (hLost hNew hEnd hQuiet), released, hUngated]
      exact sameUnexpired_forgotten hAdmitTime hNew

include hGateTime in
/-- After the decision's nonce, the action's is presented. -/
theorem approved_kept_iff (hGated : allowance.requiresApproval) {decision : NonceUse}
    (hUse : decisionUse gate task = some decision)
    (hNew : admissible handle.cache.nonces decision env.gateClock)
    (hWrite : env.gateWrite = .ok ()) :
    (Undispatched w after → KeepsUnexpired now w after) ↔
    ∀ use ∈ (if !admissible (recorded handle.cache.nonces decision env.gateClock) (actionUse auth)
        env.admitClock then [decision]
      else if stranded orchestrator store env task w.store then [decision, actionUse auth] else []),
      unexpired now use = false := by
  rcases hAsked : gate.evaluate order env task action w.gate (some handle) with
    ⟨answer, last, cache⟩
  obtain ⟨hApproved, hLast, first, rfl, hCapacity, hNonces⟩ :=
    evaluate_with_use hCached hUse (by omega) hAsked
  obtain rfl := hApproved.mpr ⟨hNew, hWrite⟩
  rw [if_pos hNew] at hNonces
  have hSize : first.cache.nonces.size < first.cache.capacity := by
    have hMore := size_recorded_le handle.cache.nonces decision env.gateClock
    rw [hNonces, hCapacity]
    omega
  rw [← hReplay] at hAsked
  rw [afterScreen_approved hGated hGate (congrArg Prod.fst hAsked)] at hAfter
  have hQuiet : Undispatched w (askGate (gate.toGate order) env task action w) :=
    undispatched_of_effects rfl (by simp [TaskEffect.isDispatch])
  have hStart : (askGate (gate.toGate order) env task action w).replay = some first :=
    congrArg (·.2.2) hAsked
  have hRemembered : (askGate (gate.toGate order) env task action
      w).gate.lastAdmittedDecisionNonce = some decision.nonce :=
    (congrArg (·.2.1.lastAdmittedDecisionNonce) hAsked).trans (hLast rfl)
  obtain ⟨hKnown, hStranded, hLost⟩ := admitAndClaim_spec hAuth hGate hCached allowance hStart
    hSize rfl rfl hAfter
  rw [hNonces, ← hQuiet.trans_iff] at hKnown hStranded hLost
  cases hNext : admissible (recorded handle.cache.nonces decision env.gateClock) (actionUse auth)
      env.admitClock with
  | false =>
    obtain ⟨hEnd, hHeld⟩ := hKnown hNext
    rw [keepsUnexpired_iff hReplay hHeld, sameUnexpired_recorded_iff hGateTime hNew]
    simp [hEnd]
  | true =>
    cases hStays : stranded orchestrator store env task w.store with
    | true =>
      obtain ⟨hEnd, hHeld⟩ := hStranded hNext hStays
      rw [keepsUnexpired_iff hReplay hHeld,
        sameUnexpired_recorded_twice_iff hGateTime hAdmitTime hNew hNext]
      simp [hEnd]
    | false =>
      refine iff_of_true (fun hEnd => ?_) (by simp)
      rw [keepsUnexpired_iff hReplay (hLost hNext hStays hEnd), released, hGated, hRemembered]
      exact sameUnexpired_forgotten_twice hGateTime hAdmitTime hNew hNext

omit hAuth hAdmitTime in
/-- A decision not accepted ends the call. A new nonce is recorded. -/
theorem afterScreen_decision_refused (hGated : allowance.requiresApproval)
    {decision : NonceUse} (hUse : decisionUse gate task = some decision)
    (hNo : ¬ (admissible handle.cache.nonces decision env.gateClock ∧
      env.gateWrite = .ok ())) :
    Undispatched w after ∧
      held after = some (if admissible handle.cache.nonces decision env.gateClock then
        recorded handle.cache.nonces decision env.gateClock else handle.cache.nonces) := by
  rcases hAsked : gate.evaluate order env task action w.gate (some handle) with
    ⟨answer, last, cache⟩
  obtain ⟨hApproved, -, first, rfl, -, hNonces⟩ :=
    evaluate_with_use hCached hUse (by omega) hAsked
  rw [← hApproved] at hNo
  rw [← hReplay] at hAsked
  obtain ⟨hQuiet, hLast⟩ := afterScreen_refused hGated hGate
    (fun h => hNo ((congrArg Prod.fst hAsked).symm.trans h)) hAfter
  rw [held, hLast.trans (congrArg (·.2.2) hAsked), Option.map_some, hNonces]
  exact ⟨hQuiet, rfl⟩

include hGateTime in
/-- An action that needs an approval has two: the decision's, and then its own. -/
theorem gated_kept_iff (hGated : allowance.requiresApproval) :
    (Undispatched w after → KeepsUnexpired now w after) ↔
    ∀ use ∈ staysBurned orchestrator store gate env task w.store handle.cache.nonces allowance
      (actionUse auth), unexpired now use = false := by
  simp only [staysBurned, hGated, if_true]
  cases hUse : decisionUse gate task with
  | none =>
    have hAsked := evaluate_without_use order env hCached hUse action w.gate handle
    rw [← hReplay] at hAsked
    obtain ⟨-, hLast⟩ := afterScreen_refused hGated hGate hAsked.1 hAfter
    have hHeld := hLast.trans (hAsked.2.trans hReplay)
    rw [keepsUnexpired_iff hReplay (congrArg (Option.map _) hHeld)]
    simp [SameUnexpired]
  | some decision =>
    have hRefused := afterScreen_decision_refused hGate hCached hReplay hRoom hAfter hGated hUse
    cases hNew : admissible handle.cache.nonces decision env.gateClock with
    | false =>
      obtain ⟨-, hHeld⟩ := hRefused (by simp [hNew])
      rw [hNew] at hHeld
      rw [keepsUnexpired_iff hReplay hHeld]
      simp [SameUnexpired, hNew]
    | true =>
      by_cases hWrite : env.gateWrite = .ok ()
      · rw [approved_kept_iff hAuth hGate hCached hReplay hRoom hGateTime hAdmitTime hAfter
          hGated hUse hNew hWrite]
        simp [hNew, hWrite]
      · obtain ⟨hQuiet, hHeld⟩ := hRefused (by simp [hWrite])
        rw [hNew, if_pos rfl] at hHeld
        rw [keepsUnexpired_iff hReplay hHeld, sameUnexpired_recorded_iff hGateTime hNew]
        simp [hQuiet, hNew, hWrite]

end Screened

/-- A task is screened with one action and one allowance. -/
theorem Screened.unique {tasks : List TaskState} {other : TaskAction} {granted : Allowance}
    (h : Screened crypto regexNew orchestrator task tasks action allowance)
    (h' : Screened crypto regexNew orchestrator task tasks other granted) :
    action = other ∧ allowance = granted := by
  obtain rfl : action = other := Except.ok.inj (h.parsed.symm.trans h'.parsed)
  exact ⟨rfl, h'.granted.unique h.granted⟩

variable (crypto regexNew order orchestrator store dispatcher env task) in
/-- A call screens its task first, before the cache is reached. -/
theorem processOne_screen (tasks : List TaskState) (hCached : w.replay.isSome) :
    (∃ action allowance, Screened crypto regexNew orchestrator task tasks action allowance ∧
      processOne crypto regexNew order orchestrator store dispatcher env task tasks w =
        afterScreen order orchestrator store dispatcher env task action allowance w) ∨
    (∀ action allowance, ¬ Screened crypto regexNew orchestrator task tasks action allowance) ∧
      (processOne crypto regexNew order orchestrator store dispatcher env task tasks w).2.replay =
        w.replay := by
  rcases processOne_eligible tasks w with
    ⟨action, hEligible, hAction, hHeld, hLet⟩ | ⟨hNone, hSame⟩
  swap
  · exact .inr ⟨fun action _ h => hNone h.eligible action h.parsed, congrArg World.replay hSame⟩
  unfold gateAction at hHeld hLet
  rcases verifyTaskActionAuthorization_cases crypto orchestrator store env task action w with
    ⟨hVerified, hVerify⟩ | ⟨hFailed, outcome, after, hVerify, -, hWrote⟩
  swap
  · rw [hHeld outcome after (by rw [hVerify])]
    refine .inr ⟨fun other _ h => hFailed ?_, hWrote.replay⟩
    obtain rfl : action = other := Except.ok.inj (hAction.symm.trans h.parsed)
    rw [hCached, h.verified]
  rw [hVerify] at hHeld hLet
  dsimp only at hHeld hLet
  rcases authorizeTaskAction_cases regexNew orchestrator store env task action w with
    ⟨allowance, hGranted, hAuthorize⟩ | ⟨hDenied, outcome, after, hAuthorize, -, hWrote⟩
  swap
  · rw [hHeld outcome after (by rw [hAuthorize])]
    refine .inr ⟨fun other allowance h => hDenied allowance ?_, hWrote.replay⟩
    obtain rfl : action = other := Except.ok.inj (hAction.symm.trans h.parsed)
    exact h.granted
  rw [hAuthorize] at hHeld hLet
  rw [hCached] at hVerified
  refine .inl ⟨action, allowance, ⟨hEligible, hAction, hVerified, hGranted⟩, ?_⟩
  unfold afterScreen admitAndClaim
  dsimp only at hHeld hLet ⊢
  rcases hApproval : (if allowance.requiresApproval then
      resolveApproval orchestrator store env task action w else (.ok (), w)) with
    ⟨outcome | ⟨⟩, asked⟩
  · exact hHeld outcome asked (by rw [hApproval])
  rw [hApproval] at hHeld hLet
  dsimp only at hHeld hLet ⊢
  rcases hAdmit : admitTaskActionReplay order orchestrator store env task action asked with
    ⟨outcome | ⟨⟩, admitted⟩
  · exact hHeld outcome admitted (by rw [hAdmit])
  · exact hLet allowance admitted (by rw [hAdmit])

/-- A call that does not dispatch leaves the unexpired nonces as they were exactly if no use it has
stranded is still unexpired. -/
theorem unexpired_kept_iff {tasks : List TaskState} {w : World σ δ GateState}
    {handle : ReplayHandle} (hGate : orchestrator.approvalGate = some (gate.toGate order))
    (hCached : gate.cached) (hReplay : w.replay = some handle)
    (hRoom : ∀ action allowance, Screened crypto regexNew orchestrator task tasks action allowance →
      handle.cache.nonces.size + 2 ≤ handle.cache.capacity)
    (hGateTime : env.gateClock ≤ now) (hAdmitTime : env.admitClock ≤ now) :
    (Undispatched w
        (processOne crypto regexNew order orchestrator store dispatcher env task tasks w).2 →
      KeepsUnexpired now w
        (processOne crypto regexNew order orchestrator store dispatcher env task tasks w).2) ↔
    ∀ action allowance auth, Screened crypto regexNew orchestrator task tasks action allowance →
      action.authorization = some auth →
      ∀ use ∈ staysBurned orchestrator store gate env task w.store handle.cache.nonces allowance
        (actionUse auth), unexpired now use = false := by
  have hSome : w.replay.isSome := by rw [hReplay]; rfl
  rcases processOne_screen crypto regexNew order orchestrator store dispatcher env task tasks hSome
    with ⟨action, allowance, hScreened, hCall⟩ | ⟨hNot, hSame⟩
  · have hRoom := hRoom action allowance hScreened
    obtain ⟨auth, hAuth, -⟩ :=
      (TaskDispatch.authorization_of_no_failure hScreened.verified).1 (.inr rfl)
    rw [hCall]
    obtain ⟨after, hAfter⟩ : ∃ after, (afterScreen order orchestrator store dispatcher env task
      action allowance w).2 = after := ⟨_, rfl⟩
    have hKept : (Undispatched w after → KeepsUnexpired now w after) ↔
        ∀ use ∈ staysBurned orchestrator store gate env task w.store handle.cache.nonces
          allowance (actionUse auth), unexpired now use = false := by
      cases hApproval : allowance.requiresApproval with
      | false =>
        exact ungated_kept_iff hAuth hGate hCached hReplay hRoom hAdmitTime hAfter hApproval
      | true =>
        exact gated_kept_iff hAuth hGate hCached hReplay hRoom hGateTime hAdmitTime hAfter hApproval
    rw [hAfter, hKept]
    constructor
    · intro h other granted auth' hOther hAuth'
      obtain ⟨rfl, rfl⟩ := hScreened.unique hOther
      obtain rfl : auth = auth' := Option.some.inj (hAuth.symm.trans hAuth')
      exact h
    · intro h
      exact h action allowance auth hScreened hAuth
  · refine iff_of_true (fun _ => ?_) fun action allowance _ h => absurd h (hNot action allowance)
    rw [keepsUnexpired_iff hReplay ((held_congr hSame).trans (congrArg (Option.map _) hReplay))]
    rfl

section FailedClaim

open ApprovalRooms AnnouncedHolds TaskAuthorizations

def approvedGate : QueueApprovalGate where
  roomId := labRoom
  targetAgent := "agent-daemon"
  expiresAt := "2026-06-02T13:01:00Z"
  nowUnix := noon
  cached := true
  resolveDecision requestId :=
    if requestId = "approval:task-1" then some { leadApproves with requestId } else none

def askingOrchestrator : TaskOrchestrator String GateState where
  agentId := "agent-daemon"
  roomId := some labRoom
  policy := some approvalPolicy
  trustStore := some (labEnv noon).trust
  verifyingKeys := .ofList [("mxagent-ed25519:lead", "lead")]
  approvalGate := some (approvedGate.toGate .byNonce)

def refusingStore (error : TaskStoreError) : TaskStore Unit where
  claim _ _ := (.error error, ())
  finalize _ _ := (.error error, ())

def freshWorld : World Unit Unit GateState :=
  ⟨(), (), ⟨ApprovalQueue.default, none⟩, some emptyCache, []⟩

def afterRefusal (error : TaskStoreError) : World Unit Unit GateState :=
  (processOne namedKeys (fun _ => none) .byNonce askingOrchestrator (refusingStore error)
    succeedingDispatcher processEnv (taskOf buildAction 1) [] freshWorld).2

/-- Another daemon was faster: both nonces are forgotten again. -/
theorem unexpired_kept_lost_claim :
    .claimCompensated ∈ (afterRefusal (.staleClaim "task-1" 1 2)).log ∧
      KeepsUnexpired noon freshWorld (afterRefusal (.staleClaim "task-1" 1 2)) := by
  refine ⟨by decide +kernel, (unexpired_kept_iff rfl rfl rfl (fun _ _ _ => by decide +kernel)
    (by decide) (by decide)).mpr ?_ (by unfold Undispatched; decide +kernel)⟩
  intro action allowance auth hScreened hAuth
  have hParsed : actionFromTask (taskOf buildAction 1) = .ok buildAction := by decide +kernel
  obtain rfl : action = buildAction := Except.ok.inj (hScreened.parsed.symm.trans hParsed)
  obtain rfl : auth = leadAuthorization := Option.some.inj hAuth.symm
  unfold staysBurned
  cases allowance.requiresApproval <;> decide +kernel

/-- The store is unreachable when the approved task is claimed. Nothing runs, and both nonces are
used up. -/
theorem burned_by_failed_claim :
    ¬ ∀ (crypto : Crypto String) (regexNew : RegexNew) (order : EvictionOrder)
        (orchestrator : TaskOrchestrator String GateState) (store : TaskStore Unit)
        (dispatcher : TaskDispatcher Unit) (gate : QueueApprovalGate) (env : ProcessEnv)
        (task : TaskState) (tasks : List TaskState) (w : World Unit Unit GateState) (now : Int),
        orchestrator.trustStore.isSome → orchestrator.approvalGate = some (gate.toGate order) →
        gate.cached → w.replay.isSome → env.gateClock ≤ now → env.admitClock ≤ now →
        Undispatched w
          (processOne crypto regexNew order orchestrator store dispatcher env task tasks w).2 →
        KeepsUnexpired now w
          (processOne crypto regexNew order orchestrator store dispatcher env task tasks w).2 := by
  intro hClaim
  have hKept := hClaim namedKeys (fun _ => none) .byNonce askingOrchestrator
    (refusingStore (.other "unreachable")) succeedingDispatcher approvedGate processEnv
    (taskOf buildAction 1) [] freshWorld noon rfl rfl rfl rfl (by decide) (by decide)
    (by unfold Undispatched; decide +kernel)
  obtain ⟨last, hLast, hSame⟩ := hKept emptyCache rfl
  have hBurned : (afterRefusal (.other "unreachable")).replay.map (fun last =>
      (last.cache.nonces.pruneExpired noon).keys) = some ["decision-nonce", "task-nonce"] := by
    decide +kernel
  rw [afterRefusal, hLast, Option.map_some, hSame] at hBurned
  revert hBurned
  decide +kernel

end FailedClaim

end MxAgent.System.BurnedNonces
