import MxAgent.Daemon.Approval
import MxAgent.Daemon.Runner

/-! Live exec requests: authorization, holding for approval, and the run spec an
authorized request starts with. -/
namespace MxAgent.Daemon

open Protocol Fallible

inductive ExecRejection where
  | malformed
  | unsigned
  | invalidSignature
  | wrongTarget (target : String)
  | untrustedKey (keyId : String)
  | policyDenied (reason : DenyReason)
  | unverifiedDevice
  | approvalDenied
  | approvalExpired
  | sandboxRequired
  | envOverrideNotAllowed (var : String)
  deriving DecidableEq, Repr

inductive CallRejection where
  | malformed
  | unsigned
  | invalidSignature
  | untrustedKey (keyId : String)
  | policyDenied (reason : DenyReason)
  | unverifiedDevice
  | approvalDenied
  | approvalExpired
  deriving DecidableEq, Repr

def ExecRejection.ofContentError : ContentError → ExecRejection
  | .malformed => .malformed
  | .unsigned => .unsigned
  | .invalidSignature => .invalidSignature

/-- What one handler call finds outside the daemon's own state. -/
structure LiveEnv where
  now : Int
  localUser : String
  /-- The rooms the client knows, by a well-formed id. -/
  room : String → Option RoomView
  trust : TrustStore
  policy : Policy
  senderVerified : String → Option Bool
  /-- Whether the daemon's signing key could be loaded or created. -/
  signingKey : Bool
  liveExecControl : String → Bool
  queueRead : IoResult
  /-- The second read of the queue file, where a handler makes one. -/
  queueReload : IoResult
  queueWrite : IoResult
  replayWrite : IoResult

inductive LiveEffect where
  | execRejected (roomId invocationId : String) (rejection : ExecRejection)
  | execAccepted (roomId invocationId : String)
  | execSpawned (roomId : String) (request : ExecRequest) (allowance : Allowance)
  | callRejected (roomId requestId : String) (rejection : CallRejection)
  | callExecuted (roomId : String) (request : CallRequest) (allowance : Allowance)
  | approvalRequested (roomId : String) (approval : ApprovalRequest)
  /-- `release_held_exec` or `release_held_call` is entered. -/
  | holdReleased (roomId : String) (held : HeldRequest)
  /-- `deny_held_exec` or `deny_held_call` is entered. -/
  | holdDenied (roomId : String) (held : HeldRequest)
  deriving DecidableEq

/-- `sandbox_backend`: what has no backend here runs unsandboxed. -/
def sandboxBackend : Option Sandbox → Backend
  | some .bubblewrap => .bubblewrap
  | some .docker | some .podman => .container
  | _ => .none

def containerRuntimeFor : Option Sandbox → Runtime
  | some .podman => .podman
  | _ => .docker

def networkFor : Option NetworkPolicy → Network
  | some .allow => .allow
  | _ => .deny

def resourceLimitsFor (allowance : Allowance) : ResourceLimits :=
  ⟨allowance.maxProcesses, allowance.maxMemoryBytes, allowance.maxCpuSeconds⟩

def seccompFor : Seccomp → SeccompMode
  | .off => .off
  | .default => .default

def containerRunIdentity (host : Host) (backend : Backend) : Option Nat × Option Nat :=
  if backend = .container then (some host.uid, some host.gid) else (none, none)

def checkSandboxFloor (allowance : Allowance) : Bool :=
  sandboxBackend allowance.sandbox != .none || !allowance.requireSandbox

def controlledExecSpec (host : Host) (request : ExecRequest) (allowance : Allowance) : RunSpec :=
  let backend := sandboxBackend allowance.sandbox
  let (runUid, runGid) := containerRunIdentity host backend
  { command := request.command
    cwd := request.cwd
    env := request.env
    envAllowlist := allowance.envAllowlist
    stdin := if request.stdin then some ByteArray.empty else none
    timeout := some (allowance.maxRuntimeMs.getD request.timeoutMs)
    gracePeriod := defaultGracePeriod
    sandbox := backend
    network := networkFor allowance.network
    readOnlyPaths := allowance.readOnlyPaths
    writablePaths := allowance.writablePaths
    containerRuntime := containerRuntimeFor allowance.sandbox
    containerImage := allowance.containerImage
    resources := resourceLimitsFor allowance
    seccomp := seccompFor allowance.seccomp
    runUid
    runGid }

/-- The run spec of `run_controlled_pty_exec`, with a terminal for stdin. -/
def controlledPtyExecSpec (host : Host) (request : ExecRequest) (allowance : Allowance) : RunSpec :=
  { controlledExecSpec host request allowance with stdin := none }

variable {Key : Type} (crypto : Crypto Key) (regexNew : RegexNew)

def authorizeExecRequestWithAllowance (content : Value) (key : Key) (trust : TrustStore)
    (policy : Policy) (roomId requestingAgent localAgent : String) :
    Except ExecRejection (ExecRequest × Allowance) := do
  let signature ← (verifiedSignature crypto key content).mapError .ofContentError
  let request ← okOr (ExecRequest.fromValue content) .malformed
  ensure (request.targetAgent == localAgent) (.wrongTarget request.targetAgent)
  ensure (trust.isKeyTrusted signature.keyId) (.untrustedKey signature.keyId)
  match policy.evaluateExec regexNew ⟨roomId, requestingAgent, request.command, request.cwd⟩ with
  | .allow allowance => pure (request, allowance)
  | .deny reason => throw (.policyDenied reason)

def enforceVerifiedDevice (allowance : Allowance) (deviceVerified : Option Bool) : Bool :=
  !allowance.requireVerifiedDevice || deviceVerified == some true

/-- `authorize_live_exec`: signature, trust and policy, then the deny gates. -/
def authorizeLiveExec (env : LiveEnv) (room : RoomView) (content : Value) (request : ExecRequest)
    (roomId : String) (authenticatedSender : Option String) :
    Except ExecRejection (ExecRequest × Allowance) := do
  let requester ← (room.agentState request.requestingAgent).mapError fun _ => .malformed
  let requester ← okOr requester (.untrustedKey request.signature.keyId)
  ensure (requester.signingKeyId == request.signature.keyId) .invalidSignature
  let key ← (verifyingKeyFromAgentState crypto requester).mapError fun _ => .invalidSignature
  let policyKey ← okOr (policyIdentity requester.matrixUserId authenticatedSender)
    .invalidSignature
  let (request, allowance) ← authorizeExecRequestWithAllowance crypto regexNew content key
    env.trust env.policy roomId policyKey request.targetAgent
  ensure (enforceVerifiedDevice allowance (env.senderVerified requester.matrixUserId))
    .unverifiedDevice
  ensure (checkSandboxFloor allowance) .sandboxRequired
  match firstDisallowedRemoteOverride request.env allowance.envAllowlist with
  | some var => throw (.envOverrideNotAllowed var)
  | none => pure (request, allowance)

def spawnAuthorizedLiveExec (roomId : String) (request : ExecRequest) (allowance : Allowance) :
    List LiveEffect :=
  [.execAccepted roomId request.invocationId, .execSpawned roomId request allowance]

def isLocalTarget (env : LiveEnv) (room : RoomView) (agentId : String) : Bool :=
  match room.agentState agentId with
  | .ok (some agent) => agent.matrixUserId == env.localUser
  | _ => false

def enqueueHold (env : LiveEnv) (file : QueueFile) (pending : PendingApproval) : QueueFile :=
  ApprovalQueue.save ((ApprovalQueue.loadOrDefault file env.queueRead).put pending) env.queueWrite
    file

def handleLiveExecRequest (env : LiveEnv) (file : QueueFile) (eventMeta : EventMeta)
    (request : ExecRequest) : QueueFile × List LiveEffect :=
  match env.room eventMeta.roomId with
  | none => (file, [])
  | some room =>
    if !isLocalTarget env room request.targetAgent || !env.signingKey then (file, [])
    else if request.idempotencyKey ≠ "exec:" ++ request.invocationId then
      (file, [.execRejected eventMeta.roomId request.invocationId .malformed])
    else match authorizeLiveExec crypto regexNew env room request.toValue request
        eventMeta.roomId (some eventMeta.sender) with
      | .error rejection =>
        (file, [.execRejected eventMeta.roomId request.invocationId rejection])
      | .ok (request, allowance) =>
        if env.liveExecControl request.invocationId then
          (file, [.execAccepted eventMeta.roomId request.invocationId])
        else match dispositionForExec request allowance with
          | some approval =>
            (enqueueHold env file
              ⟨eventMeta.roomId, approval, some (.exec request), some eventMeta.sender⟩,
              [.approvalRequested eventMeta.roomId approval])
          | none => (file, spawnAuthorizedLiveExec eventMeta.roomId request allowance)

/-- `release_held_exec`: the whole authorization again, then the spawn. -/
def releaseHeldExec (env : LiveEnv) (room : RoomView) (roomId : String) (request : ExecRequest)
    (authenticatedSender : Option String) : List LiveEffect :=
  .holdReleased roomId (.exec request) ::
    if !env.signingKey then []
    else match authorizeLiveExec crypto regexNew env room request.toValue request roomId
        authenticatedSender with
      | .ok (request, allowance) => spawnAuthorizedLiveExec roomId request allowance
      | .error rejection => [.execRejected roomId request.invocationId rejection]

/-- A rejection of a held exec, by `deny_held_exec` or `expire_held_exec`. -/
def rejectHeldExec (env : LiveEnv) (roomId : String) (request : ExecRequest)
    (rejection : ExecRejection) : List LiveEffect :=
  if env.signingKey then [.execRejected roomId request.invocationId rejection] else []

def denyHeldExec (env : LiveEnv) (roomId : String) (request : ExecRequest) : List LiveEffect :=
  .holdDenied roomId (.exec request) :: rejectHeldExec env roomId request .approvalDenied

variable {crypto} {regexNew}

/-- An authorized request is the one in the content, and the room's policy allows its command for
its user. -/
theorem authorizeExecRequestWithAllowance_ok {content : Value} {key : Key} {trust : TrustStore}
    {policy : Policy} {roomId requestingAgent localAgent : String}
    {result : ExecRequest × Allowance}
    (h : authorizeExecRequestWithAllowance crypto regexNew content key trust policy roomId
      requestingAgent localAgent = .ok result) :
    ExecRequest.fromValue content = some result.1 ∧
      policy.evaluateExec regexNew ⟨roomId, requestingAgent, result.1.command, result.1.cwd⟩ =
        .allow result.2 := by
  obtain ⟨signature, -, h⟩ := bind_eq_ok.mp h
  obtain ⟨request, hRequest, h⟩ := bind_eq_ok.mp h
  obtain ⟨-, h⟩ := ensure_bind_eq_ok.mp h
  obtain ⟨-, h⟩ := ensure_bind_eq_ok.mp h
  split at h
  · rename_i allowance hAllow
    cases h
    exact ⟨okOr_eq_ok.mp hRequest, hAllow⟩
  · cases h

/-- What passing `authorize_live_exec` says: the request is the given one, the room's policy allows
it, and its environment passed the screen. -/
theorem authorizeLiveExec_ok {env : LiveEnv} {room : RoomView} {request : ExecRequest}
    {roomId : String} {sender : Option String} {result : ExecRequest × Allowance}
    (h : authorizeLiveExec crypto regexNew env room request.toValue request roomId sender =
      .ok result) :
    result.1 = request ∧
      (∃ user, env.policy.evaluateExec regexNew ⟨roomId, user, request.command, request.cwd⟩ =
        .allow result.2) ∧
      firstDisallowedRemoteOverride request.env result.2.envAllowlist = none := by
  obtain ⟨found, -, h⟩ := bind_eq_ok.mp h
  obtain ⟨requester, -, h⟩ := bind_eq_ok.mp h
  obtain ⟨-, h⟩ := ensure_bind_eq_ok.mp h
  obtain ⟨key, -, h⟩ := bind_eq_ok.mp h
  obtain ⟨user, -, h⟩ := bind_eq_ok.mp h
  obtain ⟨authorized, hAuthorized, h⟩ := bind_eq_ok.mp h
  obtain ⟨hContent, hPolicy⟩ := authorizeExecRequestWithAllowance_ok hAuthorized
  rw [ExecRequest.fromValue_toValue, Option.some.injEq] at hContent
  obtain ⟨-, h⟩ := ensure_bind_eq_ok.mp h
  obtain ⟨-, h⟩ := ensure_bind_eq_ok.mp h
  split at h
  · cases h
  · rename_i hScreen
    cases h
    rw [← hContent] at hPolicy hScreen
    exact ⟨hContent.symm, ⟨user, hPolicy⟩, hScreen⟩

end MxAgent.Daemon
