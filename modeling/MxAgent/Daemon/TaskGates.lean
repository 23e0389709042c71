import MxAgent.Daemon.TaskOrchestrator

/-! What `process_one` has established when it dispatches, and what it leaves
behind when it stops earlier. Each gate has one lemma for its success and one for its
failure; the whole call is put together from them. -/
namespace MxAgent.Daemon.TaskOrchestrator

open Protocol

variable {Key σ δ γ : Type} (crypto : Crypto Key) (regexNew : RegexNew) (order : EvictionOrder)
  (orchestrator : TaskOrchestrator Key γ) (store : TaskStore σ) (dispatcher : TaskDispatcher δ)
  (env : ProcessEnv) (task : TaskState)

/-- An effect a gate can have without letting the task through. -/
def IsGateEffect : TaskEffect → Prop
  | .finalized .. | .gateAnswered .. => True
  | _ => False

structure GateAnswer where
  task : TaskState
  action : TaskAction
  disposition : ApprovalDisposition
  deriving DecidableEq

def gateAnswer : TaskEffect → Option GateAnswer
  | .gateAnswered task action disposition => some ⟨task, action, disposition⟩
  | _ => none

def answers (log : List TaskEffect) : List GateAnswer := log.filterMap gateAnswer

/-- A failed gate has only written the task back. -/
structure OnlyWrote (before after : World σ δ γ) : Prop where
  gate : after.gate = before.gate
  replay : after.replay = before.replay
  log : ∃ options result, after.log = before.log ++ [.finalized options result]

/-- What the checks that need no parsed action establish. -/
structure Eligible (tasks : List TaskState) : Prop where
  assigned : task.assignedTo = orchestrator.agentId
  runnable : isRunnable task.state
  dependencies : ∀ dep ∈ task.dependsOn,
    ∃ other ∈ tasks, other.taskId = dep ∧ other.state = stateSucceeded

/-- The policy, where there is one, allows the action in the orchestrator's room. -/
def Granted (action : TaskAction) (allowance : Allowance) : Prop :=
  match orchestrator.policy with
  | none => allowance = Allowance.empty
  | some policy => ∃ roomId, orchestrator.roomId = some roomId ∧
      evaluateTaskAction regexNew policy roomId task action = .allow allowance

def afterGate (action : TaskAction) (allowance : Allowance) (w : World σ δ γ) : World σ δ γ :=
  match allowance.requiresApproval, orchestrator.approvalGate with
  | true, some gate =>
    let (disposition, state, replay) := gate.evaluate env task action w.gate w.replay
    { w with
      gate := state
      replay
      log := w.log ++ [.gateAnswered task action disposition] }
  | _, _ => w

def afterAdmission (action : TaskAction) (w : World σ δ γ) : World σ δ γ :=
  match w.replay, action.authorization with
  | some handle, some auth =>
    { w with
      replay := some (handle.admitAt order ⟨auth.nonce, auth.expiresAt⟩ env.admitClock
        env.admitWrite).2
      log := w.log ++ [.nonceAdmitted ⟨auth.nonce, auth.expiresAt⟩] }
  | _, _ => w

def cleared (action : TaskAction) (allowance : Allowance) (w : World σ δ γ) : World σ δ γ :=
  afterAdmission order env action (afterGate orchestrator env task action allowance w)

/-- All gates have let an action through. -/
structure Passed (action : TaskAction) (allowance : Allowance) (w : World σ δ γ) : Prop where
  verified : authorizationFailure crypto orchestrator w.replay.isSome task action = none
  granted : Granted regexNew orchestrator task action allowance
  approved : allowance.requiresApproval → ∃ gate, orchestrator.approvalGate = some gate ∧
    (gate.evaluate env task action w.gate w.replay).1 = .approved
  admitted : ∀ handle, (afterGate orchestrator env task action allowance w).replay = some handle →
    ∃ auth, action.authorization = some auth ∧
      (handle.admitAt order ⟨auth.nonce, auth.expiresAt⟩ env.admitClock env.admitWrite).1 = .ok ()

def GateReplay (action : TaskAction) (w : World σ δ γ) (replay : Option ReplayHandle) : Prop :=
  replay = w.replay ∨ ∃ gate, orchestrator.approvalGate = some gate ∧
    replay = (gate.evaluate env task action w.gate w.replay).2.2

/-- The cache as it was, or after one nonce was presented to it. -/
def PresentedAtMost (before after : Option ReplayHandle) : Prop :=
  after = before ∨ ∃ handle use, before = some handle ∧
    after = some (handle.admitAt order use env.admitClock env.admitWrite).2

structure Unasked (before after : World σ δ γ) : Prop where
  gate : after.gate = before.gate
  answers : answers after.log = answers before.log

structure AskedOnce (action : TaskAction) (gate : TaskApprovalGate γ)
    (before after : World σ δ γ) : Prop where
  attached : orchestrator.approvalGate = some gate
  state : after.gate = (gate.evaluate env task action before.gate before.replay).2.1
  answers : answers after.log = answers before.log ++
    [⟨task, action, (gate.evaluate env task action before.gate before.replay).1⟩]

/-- A gate has stopped the task: nothing was claimed, dispatched or forgotten, and the cache saw at
most the gate's use and one refused nonce. -/
structure Stopped (action : TaskAction) (before after : World σ δ γ) : Prop where
  asked : Unasked before after ∨
    ∃ gate, AskedOnce orchestrator env task action gate before after
  log : ∃ effects, after.log = before.log ++ effects ∧ ∀ effect ∈ effects, IsGateEffect effect
  replay : ∃ base, GateReplay orchestrator env task action before base ∧
    PresentedAtMost order env base after.replay

/-- What a gate says of a task it does not let through. -/
def IsRefusal : OrchestrationOutcome → Prop
  | .denied .. | .awaitingApproval .. | .storeError .. => True
  | _ => False

def Refused {α : Type} (result : Except OrchestrationOutcome α × World σ δ γ)
    (left : World σ δ γ → Prop) : Prop :=
  ∃ outcome after, result = (.error outcome, after) ∧ IsRefusal outcome ∧ left after

variable {crypto regexNew order orchestrator store dispatcher env task}

theorem finalizeTask_onlyWrote (options : UpdateTaskOptions) (w : World σ δ γ) :
    OnlyWrote w (finalizeTask store options w).2 :=
  ⟨rfl, rfl, _, _, rfl⟩

@[simp] theorem answers_append (log effects : List TaskEffect) :
    answers (log ++ effects) = answers log ++ answers effects :=
  List.filterMap_append

variable {before after w : World σ δ γ} {action : TaskAction} {gate : TaskApprovalGate γ}
  {outcome : OrchestrationOutcome} {allowance : Allowance}

theorem OnlyWrote.unasked (h : OnlyWrote before after) : Unasked before after := by
  obtain ⟨options, result, hLog⟩ := h.log
  exact ⟨h.gate, by simp [hLog, TaskOrchestrator.answers, gateAnswer]⟩

theorem Unasked.trans {first second third : World σ δ γ} (h : Unasked first second)
    (hNext : Unasked second third) : Unasked first third :=
  ⟨hNext.gate.trans h.gate, hNext.answers.trans h.answers⟩

theorem AskedOnce.trans {asked : World σ δ γ}
    (h : AskedOnce orchestrator env task action gate before asked)
    (hNext : Unasked asked after) : AskedOnce orchestrator env task action gate before after :=
  ⟨h.attached, hNext.gate.trans h.state, hNext.answers.trans h.answers⟩

theorem blockTask_onlyWrote (action : TaskAction) (reason summary : String) (w : World σ δ γ) :
    OnlyWrote w (blockTask orchestrator store env task action reason summary w).2 := by
  unfold blockTask
  dsimp only
  split
  · rename_i hFinal
    exact congrArg Prod.snd hFinal ▸ finalizeTask_onlyWrote _ w
  · rename_i hFinal
    exact congrArg Prod.snd hFinal ▸ finalizeTask_onlyWrote _ w

theorem blockTask_refuses (action : TaskAction) (reason summary : String) (w : World σ δ γ) :
    IsRefusal (blockTask orchestrator store env task action reason summary w).1 ∧
      OnlyWrote w (blockTask orchestrator store env task action reason summary w).2 := by
  refine ⟨?_, blockTask_onlyWrote action reason summary w⟩
  unfold blockTask
  dsimp only
  split <;> trivial

theorem OnlyWrote.stopped
    (h : OnlyWrote before after) : Stopped order orchestrator env task action before after := by
  obtain ⟨options, result, hLog⟩ := h.log
  refine ⟨.inl h.unasked, ⟨[.finalized options result], hLog, ?_⟩, before.replay, .inl rfl,
    .inl h.replay⟩
  intro effect hEffect
  rw [List.mem_singleton.mp hEffect]
  trivial

def askGate (gate : TaskApprovalGate γ) (env : ProcessEnv) (task : TaskState) (action : TaskAction)
    (w : World σ δ γ) : World σ δ γ :=
  let (disposition, state, replay) := gate.evaluate env task action w.gate w.replay
  { w with
    gate := state
    replay
    log := w.log ++ [.gateAnswered task action disposition] }

theorem askedOnce_askGate (action : TaskAction) (hGate : orchestrator.approvalGate = some gate)
    (w : World σ δ γ) :
    AskedOnce orchestrator env task action gate w (askGate gate env task action w) :=
  ⟨hGate, rfl, by simp [askGate, answers, gateAnswer]⟩

theorem stopped_askGate (action : TaskAction) (hGate : orchestrator.approvalGate = some gate)
    (w : World σ δ γ) :
    Stopped order orchestrator env task action w (askGate gate env task action w) := by
  refine ⟨.inr ⟨gate, askedOnce_askGate action hGate w⟩, ⟨_, rfl, ?_⟩, _,
    .inr ⟨gate, hGate, rfl⟩, .inl rfl⟩
  intro effect hEffect
  rw [List.mem_singleton.mp hEffect]
  trivial

theorem OnlyWrote.stopped_askGate (hGate : orchestrator.approvalGate = some gate)
    (h : OnlyWrote (askGate gate env task action before) after) :
    Stopped order orchestrator env task action before after := by
  obtain ⟨options, result, hAfter⟩ := h.log
  refine ⟨.inr ⟨gate, (askedOnce_askGate action hGate before).trans h.unasked⟩,
    ⟨_, hAfter.trans (List.append_assoc ..), ?_⟩, _, .inr ⟨gate, hGate, rfl⟩, .inl h.replay⟩
  intro effect hEffect
  rcases List.mem_append.mp hEffect with hAsked | hWritten
  · rw [List.mem_singleton.mp hAsked]
    trivial
  · rw [List.mem_singleton.mp hWritten]
    trivial

theorem resolveApproval_of_gate (action : TaskAction)
    (hGate : orchestrator.approvalGate = some gate) (w : World σ δ γ) :
    resolveApproval orchestrator store env task action w =
      match (gate.evaluate env task action w.gate w.replay).1 with
      | .approved => (.ok (), askGate gate env task action w)
      | .denied reason =>
        let (outcome, w) := blockApprovalDenied orchestrator store env task action reason
          (askGate gate env task action w)
        (.error outcome, w)
      | .pending requestId =>
        (.error (.awaitingApproval task.taskId (some requestId)), askGate gate env task action w)
      | .expired _ =>
        let (outcome, w) := blockApprovalExpired orchestrator store env task action
          (askGate gate env task action w)
        (.error outcome, w) := by
  rw [resolveApproval, hGate]
  rfl

section Cases

variable (crypto regexNew order orchestrator store env task)

/-- The signature is verified, or the task is written back. -/
theorem verifyTaskActionAuthorization_cases (action : TaskAction) (w : World σ δ γ) :
    (authorizationFailure crypto orchestrator w.replay.isSome task action = none ∧
      verifyTaskActionAuthorization crypto orchestrator store env task action w = (.ok (), w)) ∨
    authorizationFailure crypto orchestrator w.replay.isSome task action ≠ none ∧
      Refused (verifyTaskActionAuthorization crypto orchestrator store env task action w)
        (OnlyWrote w) := by
  unfold verifyTaskActionAuthorization
  cases authorizationFailure crypto orchestrator w.replay.isSome task action with
  | none => exact .inl ⟨rfl, rfl⟩
  | some reason => exact .inr ⟨nofun, _, _, rfl, blockTask_refuses ..⟩

/-- The policy grants the action, or the task is written back. -/
theorem authorizeTaskAction_cases (action : TaskAction) (w : World σ δ γ) :
    (∃ allowance, Granted regexNew orchestrator task action allowance ∧
      authorizeTaskAction regexNew orchestrator store env task action w = (.ok allowance, w)) ∨
    (∀ allowance, ¬ Granted regexNew orchestrator task action allowance) ∧
      Refused (authorizeTaskAction regexNew orchestrator store env task action w)
        (OnlyWrote w) := by
  unfold authorizeTaskAction Granted
  cases orchestrator.policy with
  | none => exact .inl ⟨_, rfl, rfl⟩
  | some policy =>
    cases orchestrator.roomId with
    | none => exact .inr ⟨by simp, _, _, rfl, blockTask_refuses ..⟩
    | some roomId =>
      dsimp only
      cases hOutcome : evaluateTaskAction regexNew policy roomId task action with
      | allow allowance => exact .inl ⟨allowance, ⟨roomId, rfl, hOutcome⟩, rfl⟩
      | deny reason => exact .inr ⟨by simp [hOutcome], _, _, rfl, blockTask_refuses ..⟩

/-- The approval is not needed or given, or the task is stopped. -/
theorem approval_cases (action : TaskAction) (allowance : Allowance) (w : World σ δ γ) :
    ((allowance.requiresApproval → ∃ gate, orchestrator.approvalGate = some gate ∧
        (gate.evaluate env task action w.gate w.replay).1 = .approved) ∧
      (if allowance.requiresApproval then
        resolveApproval orchestrator store env task action w else (.ok (), w)) =
          (.ok (), afterGate orchestrator env task action allowance w)) ∨
    ¬ (allowance.requiresApproval → ∃ gate, orchestrator.approvalGate = some gate ∧
        (gate.evaluate env task action w.gate w.replay).1 = .approved) ∧
      Refused (if allowance.requiresApproval then
        resolveApproval orchestrator store env task action w else (.ok (), w))
          (Stopped order orchestrator env task action w) := by
  cases hApproval : allowance.requiresApproval with
  | false => exact .inl ⟨nofun, by simp [afterGate, hApproval]⟩
  | true =>
    rw [if_pos rfl]
    cases hGate : orchestrator.approvalGate with
    | none =>
      rw [resolveApproval, hGate]
      exact .inr ⟨by simp, _, w, rfl, trivial, .inl ⟨rfl, rfl⟩, ⟨[], by simp, by simp⟩, w.replay,
        .inl rfl, .inl rfl⟩
    | some gate =>
      rw [resolveApproval_of_gate action hGate]
      cases hAnswer : (gate.evaluate env task action w.gate w.replay).1 with
      | approved =>
        refine .inl ⟨fun _ => ⟨gate, rfl, hAnswer⟩, ?_⟩
        simp only [afterGate, hApproval, hGate]
        rfl
      | denied reason =>
        exact .inr ⟨by simp [hAnswer], _, _, rfl,
          (blockTask_refuses ..).imp_right (OnlyWrote.stopped_askGate hGate)⟩
      | pending requestId =>
        exact .inr ⟨by simp [hAnswer], _, _, rfl, trivial, stopped_askGate action hGate w⟩
      | expired requestId =>
        exact .inr ⟨by simp [hAnswer], _, _, rfl,
          (blockTask_refuses ..).imp_right (OnlyWrote.stopped_askGate hGate)⟩

/-- The action's nonce is admitted, or the task is written back. -/
theorem admitTaskActionReplay_cases (action : TaskAction) (w : World σ δ γ) :
    ((∀ handle, w.replay = some handle → ∃ auth, action.authorization = some auth ∧
        (handle.admitAt order ⟨auth.nonce, auth.expiresAt⟩ env.admitClock
          env.admitWrite).1 = .ok ()) ∧
      admitTaskActionReplay order orchestrator store env task action w =
        (.ok (), afterAdmission order env action w)) ∨
    ¬ (∀ handle, w.replay = some handle → ∃ auth, action.authorization = some auth ∧
        (handle.admitAt order ⟨auth.nonce, auth.expiresAt⟩ env.admitClock
          env.admitWrite).1 = .ok ()) ∧
      Refused (admitTaskActionReplay order orchestrator store env task action w) fun after =>
        Unasked w after ∧ (∃ options result, after.log = w.log ++ [.finalized options result]) ∧
        PresentedAtMost order env w.replay after.replay := by
  unfold admitTaskActionReplay afterAdmission
  cases hReplay : w.replay with
  | none => exact .inl ⟨nofun, rfl⟩
  | some handle =>
    cases hAuth : action.authorization with
    | none =>
      exact .inr ⟨by simp, _, _, rfl, (blockTask_refuses ..).imp_right fun hWrote =>
        ⟨hWrote.unasked, hWrote.log, .inl (hWrote.replay.trans hReplay)⟩⟩
    | some auth =>
      dsimp only
      rcases hAdmit : handle.admitAt order ⟨auth.nonce, auth.expiresAt⟩ env.admitClock
        env.admitWrite with ⟨error | ⟨⟩, admitted⟩
      · refine .inr ⟨by simp [hAdmit], _, _, rfl, (blockTask_refuses ..).imp_right fun hWrote =>
          ⟨⟨hWrote.gate, hWrote.unasked.answers⟩, hWrote.log, .inr ⟨handle,
            ⟨auth.nonce, auth.expiresAt⟩, rfl, hWrote.replay.trans ?_⟩⟩⟩
        rw [hAdmit]
      · refine .inl ⟨?_, rfl⟩
        rintro _ ⟨rfl⟩
        exact ⟨auth, rfl, congrArg Prod.fst hAdmit⟩

end Cases

theorem afterGate_spec (action : TaskAction) (allowance : Allowance) (w : World σ δ γ) :
    (Unasked w (afterGate orchestrator env task action allowance w) ∨ ∃ gate,
      AskedOnce orchestrator env task action gate w
        (afterGate orchestrator env task action allowance w)) ∧
    (∃ effects, (afterGate orchestrator env task action allowance w).log = w.log ++ effects ∧
      ∀ effect ∈ effects, IsGateEffect effect) ∧
    GateReplay orchestrator env task action w
      (afterGate orchestrator env task action allowance w).replay := by
  unfold afterGate
  split
  · rename_i gate hApproval hGate
    refine ⟨.inr ⟨gate, askedOnce_askGate action hGate w⟩, ⟨_, rfl, ?_⟩, .inr ⟨gate, hGate, rfl⟩⟩
    intro effect hEffect
    rw [List.mem_singleton.mp hEffect]
    trivial
  · exact ⟨.inl ⟨rfl, rfl⟩, ⟨[], by simp, by simp⟩, .inl rfl⟩

theorem stopped_of_refused
    (hUnasked : Unasked (afterGate orchestrator env task action allowance w) after)
    (hLog : ∃ options result, after.log =
      (afterGate orchestrator env task action allowance w).log ++ [.finalized options result])
    (hReplay : PresentedAtMost order env
      (afterGate orchestrator env task action allowance w).replay after.replay) :
    Stopped order orchestrator env task action w after := by
  obtain ⟨options, result, hLog⟩ := hLog
  obtain ⟨hQuestion, ⟨effects, hAsked, hGateEffects⟩, hBase⟩ := afterGate_spec action allowance w
  refine ⟨?_, ⟨effects ++ [.finalized options result], ?_, ?_⟩, _, hBase, hReplay⟩
  · rcases hQuestion with hNone | ⟨gate, hOnce⟩
    · exact .inl (hNone.trans hUnasked)
    · exact .inr ⟨gate, hOnce.trans hUnasked⟩
  · rw [hLog, hAsked, List.append_assoc]
  · intro effect hEffect
    rcases List.mem_append.mp hEffect with hGate | hWrite
    · exact hGateEffects effect hGate
    · rw [List.mem_singleton.mp hWrite]
      trivial

theorem Granted.unique {other : Allowance}
    (h : Granted regexNew orchestrator task action allowance)
    (hOther : Granted regexNew orchestrator task action other) : other = allowance := by
  unfold Granted at h hOther
  cases hPolicy : orchestrator.policy with
  | none =>
    rw [hPolicy] at h hOther
    exact hOther.trans h.symm
  | some policy =>
    rw [hPolicy] at h hOther
    obtain ⟨roomId, hRoom, hOutcome⟩ := h
    obtain ⟨_, hSame, hAlso⟩ := hOther
    obtain rfl := Option.some.inj (hRoom.symm.trans hSame)
    exact Outcome.allow.inj (hAlso.symm.trans hOutcome)

theorem gateAction_cases (action : TaskAction) (w : World σ δ γ) :
    ((∀ allowance, ¬ Passed crypto regexNew order orchestrator env task action allowance w) ∧
      Refused (gateAction crypto regexNew order orchestrator store env task action w)
        (Stopped order orchestrator env task action w)) ∨
    ∃ allowance, Passed crypto regexNew order orchestrator env task action allowance w ∧
      gateAction crypto regexNew order orchestrator store env task action w =
        (.ok allowance, cleared order orchestrator env task action allowance w) := by
  unfold gateAction
  rcases verifyTaskActionAuthorization_cases crypto orchestrator store env task action w with
    ⟨hVerified, hVerify⟩ | ⟨hNot, outcome, after, hVerify, hRefusal, hWrote⟩ <;> rw [hVerify]
  swap
  · exact .inl ⟨fun _ h => hNot h.verified, outcome, after, rfl, hRefusal, hWrote.stopped⟩
  dsimp only
  rcases authorizeTaskAction_cases regexNew orchestrator store env task action w with
    ⟨allowance, hGranted, hAuthorize⟩ | ⟨hNot, outcome, after, hAuthorize, hRefusal, hWrote⟩ <;>
    rw [hAuthorize]
  swap
  · exact .inl ⟨fun _ h => hNot _ h.granted, outcome, after, rfl, hRefusal, hWrote.stopped⟩
  dsimp only
  rcases approval_cases order orchestrator store env task action allowance w with
    ⟨hApproved, hApprove⟩ | ⟨hNot, outcome, after, hApprove, hRefusal⟩ <;> rw [hApprove]
  swap
  · exact .inl ⟨fun _ h => hNot (hGranted.unique h.granted ▸ h.approved), outcome, after, rfl,
      hRefusal⟩
  dsimp only
  rcases admitTaskActionReplay_cases order orchestrator store env task action
      (afterGate orchestrator env task action allowance w) with
    ⟨hAdmitted, hAdmit⟩ | ⟨hNot, outcome, after, hAdmit, hRefusal, hUnasked, hLog, hReplay⟩ <;>
    rw [hAdmit]
  · exact .inr ⟨allowance, ⟨hVerified, hGranted, hApproved, hAdmitted⟩, rfl⟩
  · exact .inl ⟨fun _ h => hNot (hGranted.unique h.granted ▸ h.admitted), outcome, after, rfl,
      hRefusal, stopped_of_refused hUnasked hLog hReplay⟩

theorem Passed.gateAction_eq
    (h : Passed crypto regexNew order orchestrator env task action allowance w) :
    gateAction crypto regexNew order orchestrator store env task action w =
      (.ok allowance, cleared order orchestrator env task action allowance w) := by
  rcases gateAction_cases action w with ⟨hNot, -⟩ | ⟨other, hOther, hResult⟩
  · exact absurd h (hNot allowance)
  · rw [hResult, h.granted.unique hOther.granted]

/-- The first checks of `process_one` change nothing. A task that passes goes to the gates, and then
is claimed. -/
theorem processOne_eligible (tasks : List TaskState) (w : World σ δ γ) :
    (∃ action, Eligible orchestrator task tasks ∧ actionFromTask task = .ok action ∧
      (∀ outcome after, gateAction crypto regexNew order orchestrator store env task action w =
          (.error outcome, after) →
        processOne crypto regexNew order orchestrator store dispatcher env task tasks w =
          (outcome, after)) ∧
      ∀ allowance after, gateAction crypto regexNew order orchestrator store env task action w =
          (.ok allowance, after) →
        processOne crypto regexNew order orchestrator store dispatcher env task tasks w =
          claimAndDispatch orchestrator store dispatcher env task action allowance after) ∨
    (Eligible orchestrator task tasks → ∀ action, actionFromTask task ≠ .ok action) ∧
      (processOne crypto regexNew order orchestrator store dispatcher env task tasks w).2 = w := by
  unfold processOne clearTask
  by_cases hAssigned : task.assignedTo ≠ orchestrator.agentId
  · exact .inr ⟨fun h => absurd h.assigned hAssigned, by simp [hAssigned]⟩
  by_cases hRunnable : isRunnable task.state
  swap
  · exact .inr ⟨fun h => absurd h.runnable hRunnable, by simp [hAssigned, hRunnable]⟩
  cases hDeps : unmetDependencies task (succeededIds tasks) with
  | cons waiting rest =>
    refine .inr ⟨fun h => ?_, by simp [hAssigned, hRunnable]⟩
    rw [unmetDependencies_eq_nil_iff.mpr h.dependencies] at hDeps
    cases hDeps
  | nil =>
    have hEligible : Eligible orchestrator task tasks :=
      ⟨not_not.mp hAssigned, hRunnable, unmetDependencies_eq_nil_iff.mp hDeps⟩
    cases hAction : actionFromTask task with
    | error reason => exact .inr ⟨by simp, by simp [hAssigned, hRunnable]⟩
    | ok action =>
      simp only [hAssigned, hRunnable, if_false, Bool.not_true, Bool.false_eq_true]
      refine .inl ⟨action, hEligible, rfl, ?_, ?_⟩
      · intro outcome after hGates
        rw [hGates]
      · intro allowance after hGates
        rw [hGates]

/-- `process_one` stops at a gate, or has passed them all and claims. -/
theorem processOne_cases (tasks : List TaskState) (w : World σ δ γ) :
    (processOne crypto regexNew order orchestrator store dispatcher env task tasks w).2 = w ∨
    (∃ action, actionFromTask task = .ok action ∧ Stopped order orchestrator env task action w
      (processOne crypto regexNew order orchestrator store dispatcher env task tasks w).2) ∨
    ∃ action allowance, Eligible orchestrator task tasks ∧ actionFromTask task = .ok action ∧
      Passed crypto regexNew order orchestrator env task action allowance w ∧
      processOne crypto regexNew order orchestrator store dispatcher env task tasks w =
        claimAndDispatch orchestrator store dispatcher env task action allowance
          (cleared order orchestrator env task action allowance w) := by
  rcases processOne_eligible tasks w with ⟨action, hEligible, hAction, hHeld, hLet⟩ | ⟨-, hSame⟩
  · right
    rcases gateAction_cases action w with
      ⟨-, outcome, after, hResult, -, hStopped⟩ | ⟨allowance, hPassed, hResult⟩
    · left
      refine ⟨action, hAction, ?_⟩
      rw [hHeld outcome after hResult]
      exact hStopped
    · right
      exact ⟨action, allowance, hEligible, hAction, hPassed, hLet allowance _ hResult⟩
  · exact .inl hSame

theorem gateAnswered_mem_afterGate (hApproval : allowance.requiresApproval)
    (hGate : orchestrator.approvalGate = some gate) :
    (afterGate orchestrator env task action allowance w).log = w.log ++
      [.gateAnswered task action (gate.evaluate env task action w.gate w.replay).1] := by
  simp [afterGate, hApproval, hGate]

theorem afterGate_isSome (action : TaskAction) (allowance : Allowance) (w : World σ δ γ) :
    (afterGate orchestrator env task action allowance w).replay.isSome = w.replay.isSome := by
  unfold afterGate
  split
  · rename_i gate _ _
    exact gate.evaluate_isSome env task action w.gate w.replay
  · rfl

theorem afterAdmission_isSome (action : TaskAction) (w : World σ δ γ) :
    (afterAdmission order env action w).replay.isSome = w.replay.isSome := by
  unfold afterAdmission
  split
  · rename_i handle auth hReplay hAuth
    rw [hReplay]
    rfl
  · rfl

theorem cleared_isSome (action : TaskAction) (allowance : Allowance) (w : World σ δ γ) :
    (cleared order orchestrator env task action allowance w).replay.isSome = w.replay.isSome := by
  rw [cleared, afterAdmission_isSome, afterGate_isSome]

theorem cleared_gate (action : TaskAction) (allowance : Allowance) (w : World σ δ γ) :
    (cleared order orchestrator env task action allowance w).gate =
      (afterGate orchestrator env task action allowance w).gate := by
  unfold cleared afterAdmission
  split <;> rfl

theorem afterAdmission_log (action : TaskAction) (w : World σ δ γ) :
    ∃ marks, (afterAdmission order env action w).log = w.log ++ marks ∧
      (∀ mark ∈ marks, ∃ use, mark = .nonceAdmitted use) ∧
      ∀ handle auth, w.replay = some handle → action.authorization = some auth →
        .nonceAdmitted ⟨auth.nonce, auth.expiresAt⟩ ∈ marks := by
  unfold afterAdmission
  split
  · rename_i handle auth hReplay hAuth
    refine ⟨_, rfl, ?_, ?_⟩
    · intro mark hMark
      exact ⟨_, List.mem_singleton.mp hMark⟩
    · intro handle' auth' _ hAuth'
      rw [hAuth, Option.some.injEq] at hAuth'
      rw [← hAuth']
      exact List.mem_singleton_self _
  · rename_i hNone
    refine ⟨[], by simp, by simp, ?_⟩
    intro handle auth hReplay hAuth
    exact absurd hAuth (hNone handle auth hReplay)

def afterClaim (orchestrator : TaskOrchestrator Key γ) (store : TaskStore σ) (env : ProcessEnv)
    (task : TaskState) (w : World σ δ γ) : World σ δ γ :=
  (claimTask store (claimOptions orchestrator env task) w).2

theorem claimTask_log (store : TaskStore σ) (options : UpdateTaskOptions) (w : World σ δ γ) :
    (claimTask store options w).2.log =
      w.log ++ [.claimed options (claimTask store options w).1] := rfl

@[simp] theorem afterClaim_replay (w : World σ δ γ) :
    (afterClaim orchestrator store env task w).replay = w.replay := rfl

@[simp] theorem afterClaim_gate (w : World σ δ γ) :
    (afterClaim orchestrator store env task w).gate = w.gate := rfl

/-- A claimed task is dispatched once and then written once. -/
theorem dispatchClaimed_spec (action : TaskAction) (allowance : Allowance) (claimed : TaskState)
    (w : World σ δ γ) :
    (∃ terminal result written,
      (dispatchClaimed orchestrator store dispatcher env task action allowance claimed w).2.log =
        w.log ++ [.dispatched claimed action env.invocationId allowance,
          .finalized (finalOptions task claimed terminal result) written]) ∧
    (dispatchClaimed orchestrator store dispatcher env task action allowance claimed w).2.replay =
      w.replay := by
  unfold dispatchClaimed
  dsimp only
  split
  · rename_i finalized after hFinal
    have hLog := congrArg (fun pair => pair.2.log) hFinal
    have hReplay := congrArg (fun pair => pair.2.replay) hFinal
    simp only [finalizeTask, dispatchTask] at hLog hReplay
    split <;> exact ⟨⟨_, _, _, by rw [← hLog, List.append_assoc]; rfl⟩, hReplay.symm⟩
  · rename_i error after hFinal
    have hLog := congrArg (fun pair => pair.2.log) hFinal
    have hReplay := congrArg (fun pair => pair.2.replay) hFinal
    simp only [finalizeTask, dispatchTask] at hLog hReplay
    exact ⟨⟨_, _, _, by rw [← hLog, List.append_assoc]; rfl⟩, hReplay.symm⟩

/-- A cleared task is claimed, dispatched and written, or it is not claimed, and the nonces are
released if the claim was stale. -/
theorem claimAndDispatch_cases
    (h : (claimAndDispatch orchestrator store dispatcher env task action allowance w).2 = after) :
    (∃ claimed terminal result written, after.log = w.log ++
        [.claimed (claimOptions orchestrator env task) (.ok claimed),
          .dispatched claimed action env.invocationId allowance,
          .finalized (finalOptions task claimed terminal result) written] ∧
      after.replay = w.replay) ∨
    ∃ error, (afterClaim orchestrator store env task w).log =
        w.log ++ [.claimed (claimOptions orchestrator env task) (.error error)] ∧
      (after = afterClaim orchestrator store env task w ∨
        after = releaseNonces orchestrator env action allowance
          (afterClaim orchestrator store env task w)) := by
  subst h
  unfold claimAndDispatch afterClaim
  rcases hClaim : claimTask store (claimOptions orchestrator env task) w with ⟨error | claimed, w₁⟩
  · right
    have hLog := claimTask_log store (claimOptions orchestrator env task) w
    rw [hClaim] at hLog
    refine ⟨error, hLog, ?_⟩
    cases error with
    | staleClaim taskId expected current => exact .inr rfl
    | notFound taskId => exact .inl rfl
    | other reason => exact .inl rfl
  · left
    have hLog := claimTask_log store (claimOptions orchestrator env task) w
    rw [hClaim] at hLog
    have hReplay : w₁.replay = w.replay := (congrArg (fun pair => pair.2.replay) hClaim).symm
    obtain ⟨⟨terminal, result, written, hDispatch⟩, hKept⟩ :=
      dispatchClaimed_spec action allowance claimed w₁
    refine ⟨claimed, terminal, result, written, ?_, hKept.trans hReplay⟩
    rw [hDispatch, hLog, List.append_assoc]
    rfl

/-- In the log, releasing nonces forgets the action's, and dispatches nothing. -/
theorem releaseNonces_log (action : TaskAction) (allowance : Allowance) (w : World σ δ γ) :
    ∃ marks, (releaseNonces orchestrator env action allowance w).log = w.log ++ marks ∧
      ∀ mark ∈ marks, mark = .claimCompensated ∨ ∃ auth, w.replay.isSome ∧
        action.authorization = some auth ∧ mark = .nonceForgotten auth.nonce := by
  unfold releaseNonces
  cases hReplay : w.replay <;> cases hAuth : action.authorization <;> dsimp only
  case some.some handle auth =>
    split
    · refine ⟨_, List.append_assoc .., ?_⟩
      intro mark hMark
      simp only [List.mem_append, List.mem_singleton] at hMark
      rcases hMark with rfl | rfl
      · exact .inr ⟨auth, rfl, rfl, rfl⟩
      · exact .inl rfl
    · exact ⟨_, rfl, fun mark hMark => .inr ⟨auth, rfl, rfl, List.mem_singleton.mp hMark⟩⟩
  all_goals
    split
    · exact ⟨_, rfl, fun mark hMark => .inl (List.mem_singleton.mp hMark)⟩
    · exact ⟨[], by simp, by simp⟩

theorem Stopped.no_dispatch (h : Stopped order orchestrator env task action w after) :
    ∃ effects, after.log = w.log ++ effects ∧ ∀ effect ∈ effects, effect.isDispatch = false := by
  obtain ⟨effects, hLog, hGate⟩ := h.log
  refine ⟨effects, hLog, fun effect hEffect => ?_⟩
  cases effect with
  | dispatched => exact absurd (hGate _ hEffect) (by simp [IsGateEffect])
  | _ => rfl

/-- The log up to the claim: what the gate and the cache answered. -/
theorem Passed.cleared_log
    (hPassed : Passed crypto regexNew order orchestrator env task action allowance w) :
    ∃ marks,
      (cleared order orchestrator env task action allowance w).log = w.log ++ marks ∧
      (∀ mark ∈ marks, mark.isDispatch = false ∧ ∀ nonce, mark ≠ .nonceForgotten nonce) ∧
      (w.replay.isSome → ∃ auth, action.authorization = some auth ∧
        .nonceAdmitted ⟨auth.nonce, auth.expiresAt⟩ ∈ marks) ∧
      (allowance.requiresApproval →
        orchestrator.approvalGate.isSome ∧ .gateAnswered task action .approved ∈ marks) := by
  obtain ⟨-, ⟨asked, hAsked, hGateEffects⟩, -⟩ := afterGate_spec action allowance w
  obtain ⟨admitted, hAdmitted, hOnlyAdmitted, hMark⟩ :=
    afterAdmission_log action (afterGate orchestrator env task action allowance w)
  refine ⟨asked ++ admitted, by rw [cleared, hAdmitted, hAsked, List.append_assoc], ?_, ?_, ?_⟩
  · intro mark hMem
    rcases List.mem_append.mp hMem with hGate | hAdmit
    · have hKind := hGateEffects mark hGate
      cases mark <;> simp_all [IsGateEffect, TaskEffect.isDispatch]
    · obtain ⟨use, rfl⟩ := hOnlyAdmitted mark hAdmit
      exact ⟨rfl, by simp⟩
  · intro hCached
    rw [← afterGate_isSome action allowance w, Option.isSome_iff_exists] at hCached
    obtain ⟨handle, hHandle⟩ := hCached
    obtain ⟨auth, hAuth, -⟩ := hPassed.admitted handle hHandle
    exact ⟨auth, hAuth, List.mem_append_right _ (hMark handle auth hHandle hAuth)⟩
  · intro hApproval
    obtain ⟨gate, hGate, hAnswer⟩ := hPassed.approved hApproval
    have hLog : (afterGate orchestrator env task action allowance w).log = w.log ++ _ :=
      gateAnswered_mem_afterGate hApproval hGate
    rw [hAsked, hAnswer] at hLog
    rw [List.append_cancel_left hLog, hGate]
    exact ⟨rfl, by simp⟩

/-- What a call does with a task that has passed every gate. It dispatches it and writes the result,
or the claim is lost: then only a nonce this call has admitted may be forgotten. -/
theorem Passed.call_cases {marks : List TaskEffect} {base : World σ δ γ}
    (hPassed : Passed crypto regexNew order orchestrator env task action allowance w)
    (hBase : cleared order orchestrator env task action allowance w = base)
    (hMarks : base.log = w.log ++ marks)
    (hAfter : (claimAndDispatch orchestrator store dispatcher env task action allowance base).2 =
      after) :
    (∃ claimed terminal result answer, after.log = w.log ++ (marks ++
        [.claimed (claimOptions orchestrator env task) (.ok claimed),
          .dispatched claimed action env.invocationId allowance,
          .finalized (finalOptions task claimed terminal result) answer]) ∧
      after.replay = base.replay) ∨
    ∃ effects, after.log = w.log ++ effects ∧
      (∀ effect ∈ effects, effect.isDispatch = false) ∧
      (∀ nonce, .nonceForgotten nonce ∈ effects →
        ∃ use : NonceUse, use.nonce = nonce ∧ .nonceAdmitted use ∈ effects) ∧
      (after.replay = base.replay ∨ after = releaseNonces orchestrator env action allowance
        (afterClaim orchestrator store env task base)) := by
  obtain ⟨marks', hMarks', hQuiet, hAdmitted, -⟩ := hPassed.cleared_log
  rw [hBase] at hMarks'
  obtain rfl : marks = marks' := List.append_cancel_left (hMarks.symm.trans hMarks')
  rcases claimAndDispatch_cases hAfter with
    ⟨claimed, terminal, result, answer, hLog, hReplay⟩ | ⟨error, hClaim, hNext⟩
  · left
    rw [hMarks, List.append_assoc] at hLog
    exact ⟨claimed, terminal, result, answer, hLog, hReplay⟩
  right
  rw [hMarks, List.append_assoc] at hClaim
  have hLost : ∀ mark ∈ marks ++ [.claimed (claimOptions orchestrator env task) (.error error)],
      mark.isDispatch = false ∧ ∀ nonce, mark ≠ .nonceForgotten nonce := by
    intro mark hMark
    rcases List.mem_append.mp hMark with hMark | hMark
    · exact hQuiet mark hMark
    · rw [List.mem_singleton.mp hMark]
      exact ⟨rfl, by simp⟩
  rcases hNext with hNext | hNext
  · refine ⟨_, by rw [hNext, hClaim], fun mark hMark => (hLost mark hMark).1, ?_,
      .inl (by rw [hNext]; rfl)⟩
    intro nonce hForgotten
    exact absurd rfl ((hLost _ hForgotten).2 nonce)
  · obtain ⟨released, hReleased, hOnly⟩ := releaseNonces_log action allowance
      (afterClaim orchestrator store env task base)
    refine ⟨_, by rw [hNext, hReleased, hClaim, List.append_assoc], ?_, ?_, .inr hNext⟩
    · intro mark hMark
      rcases List.mem_append.mp hMark with hMark | hMark
      · exact (hLost mark hMark).1
      · rcases hOnly mark hMark with rfl | ⟨auth, -, -, rfl⟩ <;> rfl
    · intro nonce hForgotten
      rcases List.mem_append.mp hForgotten with hMark | hMark
      · exact absurd rfl ((hLost _ hMark).2 nonce)
      · rcases hOnly _ hMark with hOther | ⟨auth, hCached, hAuth, hSame⟩
        · cases hOther
        · obtain ⟨auth', hAuth', hMem⟩ :=
            hAdmitted (by rwa [afterClaim_replay, ← hBase, cleared_isSome] at hCached)
          obtain rfl : auth = auth' := Option.some.inj (hAuth.symm.trans hAuth')
          cases hSame
          exact ⟨_, rfl, List.mem_append_left _ (List.mem_append_left _ hMem)⟩

end MxAgent.Daemon.TaskOrchestrator
