import MxAgent.Daemon.LiveEvents
import MxAgent.Daemon.TaskDispatcher
import MxAgent.System.TaskAuthorizations

/-! The environment of remotely authored commands. The runner screens what a child
inherits but takes the overrides of a request as they are, so the screen of a remote
request has to stand on every path that hands the runner remote overrides. The live
path has it; the path of task actions does not. -/
namespace MxAgent.System.RemoteEnvironment

open Protocol Daemon TaskOrchestrator Std

/-- What a remotely authored command's environment has to be, given the daemon's own, the policy's
list of variables and the overrides. -/
structure Screened (vars : ExtTreeMap String String) (allowlist : List String)
    (overrides env : ExtTreeMap String String) : Prop where
  allowed : ∀ name ∈ env, isAllowedVar name allowlist
  notSecret : ∀ name ∈ env, ¬ isSecretVar name
  loader : ∀ name ∈ env, isLoaderControlVar name → env[name]? = vars[name]?
  inherited : ∀ name ∈ env, name ∉ overrides → env[name]? = vars[name]?

/-- Overrides that do no harm: allowed, not secret, and a loader variable keeps its value. -/
def Harmless (vars : ExtTreeMap String String) (allowlist : List String)
    (overrides : ExtTreeMap String String) : Prop :=
  ∀ name ∈ overrides, isAllowedVar name allowlist ∧ ¬ isSecretVar name ∧
    (isLoaderControlVar name → overrides[name]? = vars[name]?)

variable {Key : Type} (crypto : Crypto Key) (regexNew : RegexNew) (order : EvictionOrder)
  (host : Host)

/-- A command line that a remote party wrote and the daemon starts, with its overrides and the
policy's list of variables. -/
inductive RemoteCommand : ExtTreeMap String String → List String → Command → Prop where
  | live {env : LiveEnv} {room : RoomView} {request : ExecRequest} {roomId : String}
      {sender : Option String} {allowance : Allowance} {command : Command}
      (authorized : authorizeLiveExec crypto regexNew env room request.toValue request roomId
        sender = .ok (request, allowance))
      (built : buildCommand host (controlledExecSpec host request allowance) = .ok command) :
      RemoteCommand request.env allowance.envAllowlist command
  | task {σ γ τ : Type} {orchestrator : TaskOrchestrator Key γ} {store : TaskStore σ}
      {spawn : Command → Except RunError RunOutput}
      {runTool : τ → String → Value → Allowance → Except String ToolResult × τ}
      {env : ProcessEnv} {task claimed : TaskState} {tasks : List TaskState}
      {w : World σ (τ × List Command) γ} {argv : List String} {cwd : String}
      {overrides : ExtTreeMap String String} {timeoutMs : Option Nat} {stream : Bool}
      {authorization : Option TaskActionAuthorization} {invocationId : String}
      {allowance : Allowance} {command : Command}
      (trusted : orchestrator.trustStore.isSome)
      (idle : w.log = [] ∧ w.dispatcher.2 = [])
      (dispatched : .dispatched claimed
          (.exec argv cwd overrides timeoutMs stream authorization) invocationId allowance ∈
        (processOne crypto regexNew order orchestrator store (localDispatcher host spawn runTool)
          env task tasks w).2.log)
      (started : command ∈ ((localDispatcher host spawn runTool).dispatch w.dispatcher claimed
        (.exec argv cwd overrides timeoutMs stream authorization) invocationId allowance).2.2) :
      RemoteCommand overrides allowance.envAllowlist command

variable {crypto regexNew order host}

variable {overrides : ExtTreeMap String String}

/-- The sanitized environment is screened exactly when the overrides are harmless. -/
theorem sanitizeEnv_screened_iff {vars : ExtTreeMap String String} {allowlist : List String} :
    Screened vars allowlist overrides (sanitizeEnv vars overrides allowlist) ↔
      Harmless vars allowlist overrides := by
  constructor
  · intro h name hName
    obtain ⟨value, hValue⟩ := StringMap.mem_iff_exists.mp hName
    have hOverride : (sanitizeEnv vars overrides allowlist)[name]? = overrides[name]? := by
      rw [sanitizeEnv_getElem?, hValue, Option.some_or]
    have hMem : name ∈ sanitizeEnv vars overrides allowlist :=
      StringMap.mem_iff_exists.mpr ⟨value, hOverride.trans hValue⟩
    exact ⟨h.allowed name hMem, h.notSecret name hMem, fun hLoader =>
      hOverride.symm.trans (h.loader name hMem hLoader)⟩
  · intro h
    -- A variable of the child is an override, or is inherited and passed the filter.
    have hOrigin : ∀ name ∈ sanitizeEnv vars overrides allowlist,
        (name ∈ overrides ∧ (sanitizeEnv vars overrides allowlist)[name]? = overrides[name]?) ∨
        name ∉ overrides ∧ (sanitizeEnv vars overrides allowlist)[name]? = vars[name]? ∧
          isAllowedVar name allowlist ∧ ¬ isSecretVar name := by
      intro name hName
      by_cases hOverride : name ∈ overrides
      · obtain ⟨value, hValue⟩ := StringMap.mem_iff_exists.mp hOverride
        exact .inl ⟨hOverride, by rw [sanitizeEnv_getElem?, hValue, Option.some_or]⟩
      · have hNone := StringMap.getElem?_eq_none_of_not_mem hOverride
        obtain ⟨value, hValue⟩ := StringMap.mem_iff_exists.mp hName
        rw [sanitizeEnv_getElem?, hNone, Option.none_or] at hValue ⊢
        split at hValue
        · rename_i hPassed
          simp only [Bool.and_eq_true, Bool.not_eq_true'] at hPassed
          exact .inr ⟨hOverride, by simp [hPassed], hPassed.1, by simp [hPassed.2]⟩
        · cases hValue
    refine ⟨?_, ?_, ?_, ?_⟩
    · intro name hName
      rcases hOrigin name hName with ⟨hOverride, -⟩ | ⟨-, -, hAllowed, -⟩
      · exact (h name hOverride).1
      · exact hAllowed
    · intro name hName
      rcases hOrigin name hName with ⟨hOverride, -⟩ | ⟨-, -, -, hSecret⟩
      · exact (h name hOverride).2.1
      · exact hSecret
    · intro name hName hLoader
      rcases hOrigin name hName with ⟨hOverride, hSame⟩ | ⟨-, hSame, -⟩
      · exact hSame.trans ((h name hOverride).2.2 hLoader)
      · exact hSame
    · intro name hName hOwn
      rcases hOrigin name hName with ⟨hOverride, -⟩ | ⟨-, hSame, -⟩
      · exact absurd hOverride hOwn
      · exact hSame

/-- Every remote command gets the sanitized environment of its own overrides. -/
theorem RemoteCommand.env_eq {allowlist : List String} {command : Command}
    (h : RemoteCommand crypto regexNew order host overrides allowlist command) :
    command.env = sanitizeEnv host.vars overrides allowlist := by
  cases h with
  | live authorized built =>
    have hEnv := buildCommand_env built
    exact hEnv
  | task trusted idle dispatched started =>
    rcases localDispatcher_started started with hOld | ⟨_, _, _, _, _, _, hAction, hBuild⟩
    · rw [idle.2] at hOld
      cases hOld
    · cases hAction
      have hEnv := buildCommand_env hBuild
      exact hEnv

/-- The overrides of a request that passed `authorize_live_exec` are harmless. -/
theorem harmless_of_authorized {env : LiveEnv} {room : RoomView} {request : ExecRequest}
    {roomId : String} {sender : Option String} {allowance : Allowance}
    (h : authorizeLiveExec crypto regexNew env room request.toValue request roomId sender =
      .ok (request, allowance)) :
    Harmless host.vars allowance.envAllowlist request.env := by
  intro name hName
  obtain ⟨value, hValue⟩ := StringMap.mem_iff_exists.mp hName
  obtain ⟨-, -, hScreen⟩ := authorizeLiveExec_ok h
  obtain ⟨hAllowed, hSecret, hLoader⟩ := firstDisallowedRemoteOverride_eq_none hScreen hValue
  exact ⟨hAllowed, hSecret, fun h => absurd h hLoader⟩

/-- A remote command's environment is screened if its overrides are harmless. -/
theorem remote_screened_iff {overrides : ExtTreeMap String String} {allowlist : List String}
    {command : Command}
    (h : RemoteCommand crypto regexNew order host overrides allowlist command) :
    Screened host.vars allowlist overrides command.env ↔
      Harmless host.vars allowlist overrides := by
  rw [h.env_eq]
  exact sanitizeEnv_screened_iff

section LiveSpawns

variable {roomId : String} {request : ExecRequest} {allowance : Allowance}

variable (crypto regexNew) in
/-- The request has passed `authorize_live_exec` with this allowance. -/
def Authorized (roomId : String) (request : ExecRequest) (allowance : Allowance) : Prop :=
  ∃ env room sender, authorizeLiveExec crypto regexNew env room request.toValue request roomId
    sender = .ok (request, allowance)

theorem authorized_of_result {env : LiveEnv} {room : RoomView} {asked : ExecRequest}
    {sender : Option String} {arrived : String} {result : ExecRequest × Allowance}
    (hResult : authorizeLiveExec crypto regexNew env room asked.toValue asked arrived sender =
      .ok result)
    (h : .execSpawned roomId request allowance ∈
      spawnAuthorizedLiveExec arrived result.1 result.2) :
    Authorized crypto regexNew roomId request allowance := by
  obtain ⟨authorized, granted⟩ := result
  obtain rfl : authorized = asked := (authorizeLiveExec_ok hResult).1
  simp only [spawnAuthorizedLiveExec, List.mem_cons, LiveEffect.execSpawned.injEq, reduceCtorEq,
    List.not_mem_nil, or_false, false_or] at h
  obtain ⟨rfl, rfl, rfl⟩ := h
  exact ⟨env, room, sender, hResult⟩

theorem authorized_of_execRequest {env : LiveEnv} {file : QueueFile} {eventMeta : EventMeta}
    {asked : ExecRequest}
    (h : .execSpawned roomId request allowance ∈
      (handleLiveExecRequest crypto regexNew env file eventMeta asked).2) :
    Authorized crypto regexNew roomId request allowance := by
  unfold handleLiveExecRequest at h
  split at h
  · simp at h
  split at h
  · simp at h
  split at h
  · simp at h
  split at h
  · simp at h
  rename_i hResult
  split at h
  · simp at h
  split at h
  · simp at h
  · exact authorized_of_result hResult h

theorem authorized_of_settleHold {env : LiveEnv} {room : RoomView} {arrived : String}
    {decision : ApprovalDecision} {held : HeldRequest} {requesterUser : Option String}
    (h : .execSpawned roomId request allowance ∈
      settleHold crypto regexNew env room arrived decision held requesterUser) :
    Authorized crypto regexNew roomId request allowance := by
  unfold settleHold at h
  split at h
  · cases held with
    | exec asked => simp [denyHeldExec, rejectHeldExec] at h
    | call asked => simp [denyHeldCall, rejectHeldCall] at h
  · cases held with
    | exec asked =>
      simp only [releaseHeldExec, List.mem_cons, reduceCtorEq, false_or] at h
      split at h
      · simp at h
      split at h
      · rename_i hResult
        exact authorized_of_result hResult h
      · simp at h
    | call asked =>
      simp only [releaseHeldCall, List.mem_cons, reduceCtorEq, false_or] at h
      split at h
      · simp at h
      split at h <;> simp at h

/-- A live event spawns authorized requests only. -/
theorem authorized_of_spawned {s : LiveState} {event : LiveEvent}
    (h : .execSpawned roomId request allowance ∈ (event.handle crypto regexNew order s).2) :
    Authorized crypto regexNew roomId request allowance := by
  cases event with
  | execRequest env eventMeta asked => exact authorized_of_execRequest h
  | callRequest env eventMeta asked =>
    simp only [LiveEvent.handle, handleLiveCallRequest] at h
    repeat' split at h
    all_goals simp at h
  | approvalDecision env eventMeta decision =>
    rcases handleLiveApprovalDecision_cases crypto regexNew order env s eventMeta decision with
      ⟨-, hNone⟩ | ⟨pending, held, room, -, -, -, hEffects⟩
    · rw [LiveEvent.handle, hNone] at h
      cases h
    · rw [LiveEvent.handle, hEffects] at h
      exact authorized_of_settleHold h

end LiveSpawns

section PreloadTask

open ApprovalRooms TaskAuthorizations

def buildHost : Host where
  vars := .ofList [("PATH", "/usr/bin"), ("GITHUB_TOKEN", "ghp-daemon")]
  isExistingDir _ := true
  pathExists _ := true
  writeSeccompProfile := .error "unavailable"
  seccompFd := .error "unavailable"
  currentExe := .ok "/usr/bin/mx-agent"
  uid := 1000
  gid := 1000

def terminalRequest : ExecRequest :=
  { buildRequest ["make"] with env := .ofList [("TERM", "xterm")], pty := true }

def terminalEvent : LiveEvent :=
  .execRequest (twoRoomEnv 1780401660)
    ⟨"com.mxagent.exec.request.v1", labRoom, "@runner:example.org", none, none⟩ terminalRequest

def makeAction (overrides : ExtTreeMap String String) : TaskAction :=
  .exec ["make"] "/srv/app" overrides none false (some leadAuthorization)

def leadPolicy : Policy where
  execution := ExecutionPolicy.empty
  rooms := .ofList [(labRoom, { RoomPolicy.empty with
    trusted := true
    agents := .ofList [("@lead:example.org", buildPolicy false)] })]

def taskOrchestrator : TaskOrchestrator String Unit where
  agentId := "agent-daemon"
  roomId := some labRoom
  policy := some leadPolicy
  trustStore := some ⟨[⟨"agent-lead", "mxagent-ed25519:lead", .trusted⟩]⟩
  verifyingKeys := .ofList [("mxagent-ed25519:lead", "lead")]
  approvalGate := none

def taskWorld : World Unit (Unit × List Command) Unit := ⟨(), ((), []), (), some emptyCache, []⟩

def exitsZero (_ : Command) : Except RunError RunOutput := .ok ⟨some 0, none, false⟩

def noTools (state : Unit) (_ : String) (_ : Value) (_ : Allowance) :
    Except String ToolResult × Unit := (.error "unknown tool", state)

def makeCommand (overrides : ExtTreeMap String String) : Command :=
  ⟨"make", [], "/srv/app", sanitizeEnv buildHost.vars overrides [], false, none⟩

/-- The daemon dispatches a task the lead has signed and starts its command. -/
def Starts (overrides : ExtTreeMap String String) : Prop :=
  .dispatched (taskOf buildAction 2) (makeAction overrides) "inv-1" Allowance.empty ∈
      (processOne namedKeys (fun _ => none) .byNonce taskOrchestrator forgetfulStore
        (localDispatcher buildHost exitsZero noTools) processEnv (taskOf (makeAction overrides) 1)
        [] taskWorld).2.log ∧
    makeCommand overrides ∈ ((localDispatcher buildHost exitsZero noTools).dispatch ((), [])
      (taskOf buildAction 2) (makeAction overrides) "inv-1" Allowance.empty).2.2

instance (overrides : ExtTreeMap String String) : Decidable (Starts overrides) :=
  inferInstanceAs (Decidable (_ ∧ _))

theorem Starts.remote (h : Starts overrides) :
    RemoteCommand namedKeys (fun _ => none) .byNonce buildHost overrides []
      (makeCommand overrides) :=
  have hTask : RemoteCommand namedKeys (fun _ => none) .byNonce buildHost overrides
      Allowance.empty.envAllowlist (makeCommand overrides) :=
    .task rfl ⟨rfl, rfl⟩ h.1 h.2
  hTask

/-- A task that sets its terminal type. -/
theorem remote_screened_terminal_type :
    Screened buildHost.vars [] (.ofList [("TERM", "xterm")])
      (makeCommand (.ofList [("TERM", "xterm")])).env := by
  have hStarts : Starts (.ofList [("TERM", "xterm")]) := by decide +kernel
  refine (remote_screened_iff hStarts.remote).mpr ?_
  intro name hName
  obtain rfl : "TERM" = name := by simpa using hName
  decide +kernel

/-- The lead's task preloads a library into the build. -/
theorem task_environment_not_screened :
    ¬ ∀ (crypto : Crypto String) (regexNew : RegexNew) (order : EvictionOrder) (host : Host)
        (overrides : ExtTreeMap String String) (allowlist : List String) (command : Command),
        RemoteCommand crypto regexNew order host overrides allowlist command →
        Screened host.vars allowlist overrides command.env := by
  intro hClaim
  have hStarts : Starts (.ofList [("LD_PRELOAD", "/tmp/hook.so")]) := by decide +kernel
  have hLoader := (hClaim _ _ _ _ _ _ _ hStarts.remote).loader "LD_PRELOAD" (by decide +kernel)
    (by decide +kernel)
  revert hLoader
  decide +kernel

/-- A task can also hand the child a token under the name of a secret. -/
example : isSecretVar "GITHUB_TOKEN" ∧ Starts (.ofList [("GITHUB_TOKEN", "ghp-lead")]) := by
  decide +kernel

end PreloadTask

end MxAgent.System.RemoteEnvironment
