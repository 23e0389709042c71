import MxAgent.Policy.Engine
import MxAgent.Daemon.Identity
import MxAgent.Daemon.ReplayHandle
import MxAgent.Daemon.Task

/-! `TaskOrchestrator::process_one`: the gates a task passes before its action is
dispatched, the claim, the dispatch and the final write. Store, dispatcher and
approval gate are the traits of the source, so they are parameters here; every call
to one of them is logged. -/
namespace MxAgent.Daemon

open Protocol Std

structure TaskExecutionResult where
  exitCode : Option Int
  summary : String
  artifactMxc : Option String
  deriving DecidableEq, Repr

def TaskExecutionResult.isSuccess (result : TaskExecutionResult) : Bool :=
  result.exitCode == some 0

inductive TaskDispatchError where
  | policyDenied (reason : String)
  | failed (reason : String)
  deriving DecidableEq, Repr

inductive TaskStoreError where
  | staleClaim (taskId : String) (expected current : Nat)
  | notFound (taskId : String)
  | other (reason : String)
  deriving DecidableEq, Repr

inductive ApprovalDisposition where
  | approved
  | denied (reason : String)
  | pending (requestId : String)
  | expired (requestId : String)
  deriving DecidableEq, Repr

/-- A rejected write and a malformed action are kept as the error. -/
inductive OrchestrationOutcome where
  | notAssigned (taskId : String)
  | notRunnableState (taskId state : String)
  | blocked (taskId : String) (waitingOn : List String)
  | malformedAction (taskId : String) (reason : TaskActionError)
  | staleClaim (taskId : String)
  | denied (taskId invocationId : String)
  | completed (taskId invocationId state : String)
  | recoveredStale (taskId : String)
  | reconciledInvocation (taskId state : String)
  | stillRunningInvocation (taskId : String)
  | staleRemoteExecuting (taskId owner : String)
  | awaitingApproval (taskId : String) (requestId : Option String)
  | storeError (taskId : String) (reason : TaskStoreError)
  deriving DecidableEq, Repr

/-- What one call of `process_one` finds: its id, the time of its result, and clock and write
outcome at each use of the cache. -/
structure ProcessEnv where
  invocationId : String
  completedAt : String
  gateClock : Int
  gateWrite : IoResult
  admitClock : Int
  admitWrite : IoResult
  forgetWrite : IoResult
  compensateWrite : IoResult
  deriving DecidableEq

structure TaskStore (σ : Type) where
  claim : σ → UpdateTaskOptions → Except TaskStoreError TaskState × σ
  finalize : σ → UpdateTaskOptions → Except TaskStoreError TaskState × σ

structure TaskDispatcher (δ : Type) where
  dispatch : δ → TaskState → TaskAction → String → Allowance →
    Except TaskDispatchError TaskExecutionResult × δ

/-- `TaskApprovalGate`. It may use the shared cache. -/
structure TaskApprovalGate (γ : Type) where
  evaluate : ProcessEnv → TaskState → TaskAction → γ → Option ReplayHandle →
    ApprovalDisposition × γ × Option ReplayHandle
  compensateLostClaim : ProcessEnv → γ → Option ReplayHandle → γ × Option ReplayHandle
  evaluate_isSome : ∀ env task action gate replay,
    (evaluate env task action gate replay).2.2.isSome = replay.isSome

structure TaskOrchestrator (Key γ : Type) where
  agentId : String
  roomId : Option String
  policy : Option Policy
  trustStore : Option TrustStore
  verifyingKeys : ExtTreeMap String Key
  approvalGate : Option (TaskApprovalGate γ)

/-- A call that leaves the orchestrator, with its answer where there is one. -/
inductive TaskEffect where
  | claimed (options : UpdateTaskOptions) (result : Except TaskStoreError TaskState)
  | finalized (options : UpdateTaskOptions) (result : Except TaskStoreError TaskState)
  | dispatched (task : TaskState) (action : TaskAction) (invocationId : String)
      (allowance : Allowance)
  | gateAnswered (task : TaskState) (action : TaskAction) (disposition : ApprovalDisposition)
  /-- `ReplayCache::admit` returned `Ok` for an action's nonce. -/
  | nonceAdmitted (use : NonceUse)
  /-- `ReplayCache::forget` was called for an action's nonce. -/
  | nonceForgotten (nonce : String)
  | claimCompensated
  deriving DecidableEq

def TaskEffect.isDispatch : TaskEffect → Bool
  | .dispatched .. => true
  | _ => false

/-- Everything a call of `process_one` can change, and the log of its calls. -/
structure World (σ δ γ : Type) where
  store : σ
  dispatcher : δ
  gate : γ
  replay : Option ReplayHandle
  log : List TaskEffect

def failureResult (completedBy : String) (invocationId action : Option String) (reason : String)
    (summary : Option String) (completedAt : String) : Value :=
  TaskResult.intoValue ⟨stateFailed, completedBy, completedAt, invocationId, action, some reason,
    none, summary, none, ∅⟩

def dispatchResult (status completedBy invocationId action : String) (reason : Option String)
    (output : TaskExecutionResult) (completedAt : String) : Value :=
  TaskResult.intoValue ⟨status, completedBy, completedAt, some invocationId, some action, reason,
    output.exitCode, some output.summary, output.artifactMxc, ∅⟩

/-- `evaluate_task_action`. The policy is asked about `created_by`. -/
def evaluateTaskAction (regexNew : RegexNew) (policy : Policy) (roomId : String) (task : TaskState)
    (action : TaskAction) : Outcome :=
  match action with
  | .tool tool _ _ => policy.evaluateCall ⟨roomId, task.createdBy, tool⟩
  | .exec command cwd _ _ _ _ =>
    policy.evaluateExec regexNew ⟨roomId, task.createdBy, command, cwd⟩

namespace TaskOrchestrator

variable {Key σ δ γ : Type} (crypto : Crypto Key) (regexNew : RegexNew) (order : EvictionOrder)
  (orchestrator : TaskOrchestrator Key γ) (store : TaskStore σ) (dispatcher : TaskDispatcher δ)

def runnableTasks (tasks : List TaskState) : List TaskState :=
  ((tasks.filter fun task => task.assignedTo == orchestrator.agentId).filter fun task =>
    isRunnable task.state).filter fun task => (unmetDependencies task (succeededIds tasks)).isEmpty

def finalizeTask (options : UpdateTaskOptions) (w : World σ δ γ) :
    Except TaskStoreError TaskState × World σ δ γ :=
  let (result, after) := store.finalize w.store options
  (result, { w with store := after, log := w.log ++ [.finalized options result] })

def claimTask (options : UpdateTaskOptions) (w : World σ δ γ) :
    Except TaskStoreError TaskState × World σ δ γ :=
  let (result, after) := store.claim w.store options
  (result, { w with store := after, log := w.log ++ [.claimed options result] })

def dispatchTask (task : TaskState) (action : TaskAction) (invocationId : String)
    (allowance : Allowance) (w : World σ δ γ) :
    Except TaskDispatchError TaskExecutionResult × World σ δ γ :=
  let (result, after) := dispatcher.dispatch w.dispatcher task action invocationId allowance
  (result, { w with
    dispatcher := after
    log := w.log ++ [.dispatched task action invocationId allowance] })

def blockTask (env : ProcessEnv) (task : TaskState) (action : TaskAction)
    (reason summary : String) (w : World σ δ γ) : OrchestrationOutcome × World σ δ γ :=
  let options : UpdateTaskOptions :=
    { taskId := task.taskId
      state := some stateBlocked
      assignedTo := none
      invocationId := none
      result := some (failureResult orchestrator.agentId (some env.invocationId)
        (some action.kind) reason (some summary) env.completedAt)
      expectedStateRev := some task.stateRev }
  match finalizeTask store options w with
  | (.ok finalized, w) => (.denied finalized.taskId env.invocationId, w)
  | (.error error, w) => (.storeError task.taskId error, w)

def blockUnauthorized (env : ProcessEnv) (task : TaskState) (action : TaskAction)
    (reason : String) : World σ δ γ → OrchestrationOutcome × World σ δ γ :=
  blockTask orchestrator store env task action "unauthorized"
    ("task action authorization rejected: " ++ reason)

def blockPolicyDenied (env : ProcessEnv) (task : TaskState) (action : TaskAction)
    (reason : String) : World σ δ γ → OrchestrationOutcome × World σ δ γ :=
  blockTask orchestrator store env task action "policy_denied" reason

def blockApprovalDenied (env : ProcessEnv) (task : TaskState) (action : TaskAction)
    (reason : String) : World σ δ γ → OrchestrationOutcome × World σ δ γ :=
  blockTask orchestrator store env task action "approval_denied"
    ("task action approval denied: " ++ reason)

def blockApprovalExpired (env : ProcessEnv) (task : TaskState) (action : TaskAction) :
    World σ δ γ → OrchestrationOutcome × World σ δ γ :=
  blockTask orchestrator store env task action "approval_expired"
    "approval window expired before a decision was made"

/-- What `verify_task_action_authorization` finds wrong with an action. -/
def authorizationFailure (cached : Bool) (task : TaskState) (action : TaskAction) : Option String :=
  if orchestrator.trustStore.isNone && !cached then none
  else match action.authorization with
    | none => some "unsigned"
    | some auth =>
      if auth.targetAgent ≠ orchestrator.agentId then some "wrong_target"
      else match orchestrator.trustStore with
        | none => none
        | some trust =>
          if !trust.isKeyTrusted auth.signature.keyId then some "untrusted_key"
          else match orchestrator.verifyingKeys[auth.signature.keyId]? with
            | none => some "unresolved_key"
            | some key =>
              match verifyTaskActionSignature crypto key task.taskId action auth with
              | .ok () => none
              | .error _ => some "invalid_signature"

def verifyTaskActionAuthorization (env : ProcessEnv) (task : TaskState) (action : TaskAction)
    (w : World σ δ γ) : Except OrchestrationOutcome Unit × World σ δ γ :=
  match authorizationFailure crypto orchestrator w.replay.isSome task action with
  | none => (.ok (), w)
  | some reason =>
    let (outcome, w) := blockUnauthorized orchestrator store env task action reason w
    (.error outcome, w)

/-- `authorize_task_action`. Without a policy the action runs with the default
allowance. -/
def authorizeTaskAction (env : ProcessEnv) (task : TaskState) (action : TaskAction)
    (w : World σ δ γ) : Except OrchestrationOutcome Allowance × World σ δ γ :=
  match orchestrator.policy with
  | none => (.ok Allowance.empty, w)
  | some policy =>
    match orchestrator.roomId with
    | none =>
      let (outcome, w) := blockPolicyDenied orchestrator store env task action
        "policy_not_configured_for_room" w
      (.error outcome, w)
    | some roomId =>
      match evaluateTaskAction regexNew policy roomId task action with
      | .allow allowance => (.ok allowance, w)
      | .deny reason =>
        let (outcome, w) := blockPolicyDenied orchestrator store env task action
          reason.describe w
        (.error outcome, w)

def resolveApproval (env : ProcessEnv) (task : TaskState) (action : TaskAction)
    (w : World σ δ γ) : Except OrchestrationOutcome Unit × World σ δ γ :=
  match orchestrator.approvalGate with
  | none => (.error (.awaitingApproval task.taskId none), w)
  | some gate =>
    let (disposition, state, replay) := gate.evaluate env task action w.gate w.replay
    let w := { w with
      gate := state
      replay
      log := w.log ++ [.gateAnswered task action disposition] }
    match disposition with
    | .approved => (.ok (), w)
    | .denied reason =>
      let (outcome, w) := blockApprovalDenied orchestrator store env task action reason w
      (.error outcome, w)
    | .pending requestId => (.error (.awaitingApproval task.taskId (some requestId)), w)
    | .expired _ =>
      let (outcome, w) := blockApprovalExpired orchestrator store env task action w
      (.error outcome, w)

/-- The reason `admit_task_action_replay` gives for a refused nonce. -/
def replayReason : ReplayError → String
  | .expired => "expired"
  | .replayed => "replayed"
  | .malformedTimestamp => "malformed_expiry"
  | .corrupt => "replay_cache_corrupt"
  | .io _ => "replay_cache_unavailable"

def admitTaskActionReplay (env : ProcessEnv) (task : TaskState) (action : TaskAction)
    (w : World σ δ γ) : Except OrchestrationOutcome Unit × World σ δ γ :=
  match w.replay with
  | none => (.ok (), w)
  | some handle =>
    match action.authorization with
    | none =>
      let (outcome, w) := blockUnauthorized orchestrator store env task action "unsigned" w
      (.error outcome, w)
    | some auth =>
      let (result, handle) :=
        handle.admitAt order ⟨auth.nonce, auth.expiresAt⟩ env.admitClock env.admitWrite
      let w := { w with replay := some handle }
      match result with
      | .ok () =>
        (.ok (), { w with log := w.log ++ [.nonceAdmitted ⟨auth.nonce, auth.expiresAt⟩] })
      | .error error =>
        let (outcome, w) := blockUnauthorized orchestrator store env task action
          (replayReason error) w
        (.error outcome, w)

/-- From the verified signature to the burned nonce: the gates. -/
def gateAction (env : ProcessEnv) (task : TaskState) (action : TaskAction) (w : World σ δ γ) :
    Except OrchestrationOutcome Allowance × World σ δ γ :=
  match verifyTaskActionAuthorization crypto orchestrator store env task action w with
  | (.error outcome, w) => (.error outcome, w)
  | (.ok (), w) =>
    match authorizeTaskAction regexNew orchestrator store env task action w with
    | (.error outcome, w) => (.error outcome, w)
    | (.ok allowance, w) =>
      match (if allowance.requiresApproval then
          resolveApproval orchestrator store env task action w else (.ok (), w)) with
      | (.error outcome, w) => (.error outcome, w)
      | (.ok (), w) =>
        match admitTaskActionReplay order orchestrator store env task action w with
        | (.error outcome, w) => (.error outcome, w)
        | (.ok (), w) => (.ok allowance, w)

/-- Everything `process_one` checks before it claims the task. -/
def clearTask (env : ProcessEnv) (task : TaskState) (tasks : List TaskState) (w : World σ δ γ) :
    Except OrchestrationOutcome (TaskAction × Allowance) × World σ δ γ :=
  if task.assignedTo ≠ orchestrator.agentId then (.error (.notAssigned task.taskId), w)
  else if !isRunnable task.state then (.error (.notRunnableState task.taskId task.state), w)
  else match unmetDependencies task (succeededIds tasks) with
    | waiting :: rest => (.error (.blocked task.taskId (waiting :: rest)), w)
    | [] =>
      match actionFromTask task with
      | .error reason => (.error (.malformedAction task.taskId reason), w)
      | .ok action =>
        match gateAction crypto regexNew order orchestrator store env task action w with
        | (.error outcome, w) => (.error outcome, w)
        | (.ok allowance, w) => (.ok (action, allowance), w)

def claimOptions (env : ProcessEnv) (task : TaskState) : UpdateTaskOptions where
  taskId := task.taskId
  state := some stateExecuting
  assignedTo := some orchestrator.agentId
  invocationId := some env.invocationId
  result := none
  expectedStateRev := some task.stateRev

/-- After a lost claim the action's nonce is forgotten, and a gated decision's. -/
def releaseNonces (env : ProcessEnv) (action : TaskAction) (allowance : Allowance)
    (w : World σ δ γ) : World σ δ γ :=
  let w := match w.replay, action.authorization with
    | some handle, some auth =>
      { w with
        replay := some (handle.forget auth.nonce env.forgetWrite)
        log := w.log ++ [.nonceForgotten auth.nonce] }
    | _, _ => w
  match allowance.requiresApproval, orchestrator.approvalGate with
  | true, some gate =>
    let (state, replay) := gate.compensateLostClaim env w.gate w.replay
    { w with gate := state, replay, log := w.log ++ [.claimCompensated] }
  | _, _ => w

def terminalResult (env : ProcessEnv) (action : TaskAction)
    (dispatched : Except TaskDispatchError TaskExecutionResult) : String × Value :=
  match dispatched with
  | .ok output =>
    let state := if output.isSuccess then stateSucceeded else stateFailed
    (state, dispatchResult state orchestrator.agentId env.invocationId action.kind
      (if state = stateFailed then some "process_exit" else none) output env.completedAt)
  | .error (.policyDenied reason) =>
    (stateFailed, failureResult orchestrator.agentId (some env.invocationId) (some action.kind)
      "policy_denied" (some reason) env.completedAt)
  | .error (.failed reason) =>
    (stateFailed, failureResult orchestrator.agentId (some env.invocationId) (some action.kind)
      "dispatch_failed" (some reason) env.completedAt)

def resultReason (task : TaskState) : Option String := do
  let result ← task.result
  let fields ← result.asObject
  let reason ← fields["reason"]?
  reason.asString

def finalOptions (task claimed : TaskState) (terminal : String) (result : Value) :
    UpdateTaskOptions where
  taskId := task.taskId
  state := some terminal
  assignedTo := none
  invocationId := none
  result := some result
  expectedStateRev := some claimed.stateRev

def dispatchClaimed (env : ProcessEnv) (task : TaskState) (action : TaskAction)
    (allowance : Allowance) (claimed : TaskState) (w : World σ δ γ) :
    OrchestrationOutcome × World σ δ γ :=
  let (dispatched, w) := dispatchTask dispatcher claimed action env.invocationId allowance w
  let (terminal, result) := terminalResult orchestrator env action dispatched
  match finalizeTask store (finalOptions task claimed terminal result) w with
  | (.ok finalized, w) =>
    if terminal = stateFailed ∧ resultReason finalized = some "policy_denied" then
      (.denied finalized.taskId env.invocationId, w)
    else (.completed finalized.taskId env.invocationId finalized.state, w)
  | (.error error, w) => (.storeError task.taskId error, w)

def claimAndDispatch (env : ProcessEnv) (task : TaskState) (action : TaskAction)
    (allowance : Allowance) (w : World σ δ γ) : OrchestrationOutcome × World σ δ γ :=
  match claimTask store (claimOptions orchestrator env task) w with
  | (.ok claimed, w) =>
    dispatchClaimed orchestrator store dispatcher env task action allowance claimed w
  | (.error (.staleClaim ..), w) =>
    (.staleClaim task.taskId, releaseNonces orchestrator env action allowance w)
  | (.error error, w) => (.storeError task.taskId error, w)

def processOne (env : ProcessEnv) (task : TaskState) (tasks : List TaskState) (w : World σ δ γ) :
    OrchestrationOutcome × World σ δ γ :=
  match clearTask crypto regexNew order orchestrator store env task tasks w with
  | (.error outcome, w) => (outcome, w)
  | (.ok (action, allowance), w) =>
    claimAndDispatch orchestrator store dispatcher env task action allowance w

end TaskOrchestrator

end MxAgent.Daemon
