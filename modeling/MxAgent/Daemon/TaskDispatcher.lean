import MxAgent.Daemon.Exec
import MxAgent.Daemon.TaskOrchestrator

/-! The dispatchers of task actions: tools, commands, and the router between them.
A task's command runs under the isolation of its allowance, in an environment the
runner builds from the action's own overrides. -/
namespace MxAgent.Daemon

open Protocol Std

structure ToolResult where
  exitCode : Int
  summary : String
  deriving DecidableEq, Repr

/-- `ToolTaskDispatcher` for any tool runner. An error is given by its text. -/
def toolTaskDispatcher {τ : Type}
    (runTool : τ → String → Value → Allowance → Except String ToolResult × τ) :
    TaskDispatcher τ where
  dispatch state _ action _ allowance :=
    match action with
    | .tool tool args _ =>
      match runTool state tool args allowance with
      | (.ok result, state) => (.ok ⟨some result.exitCode, result.summary, none⟩, state)
      | (.error error, state) =>
        (.error (.failed
          ("tool " ++ debugString tool ++ " could not be invoked: " ++ error)), state)
    | .exec .. => (.error (.failed "exec action cannot run through the tool dispatcher"), state)

structure RunOutput where
  exitCode : Option Int
  signal : Option Int
  timedOut : Bool
  deriving DecidableEq, Repr

def RunError.describe : RunError → String
  | .emptyCommand => "command argv is empty"
  | .missingCwd cwd => "working directory " ++ debugString cwd ++ " does not exist"
  | .spawn message => "could not run command: " ++ message

structure ExecRunRequest where
  command : List String
  cwd : String
  env : ExtTreeMap String String
  timeout : Option Nat
  sandbox : Backend
  network : Network
  readOnlyPaths : List String
  writablePaths : List String
  envAllowlist : List String
  containerRuntime : Runtime
  containerImage : Option String
  resources : ResourceLimits
  seccomp : SeccompMode
  runUid : Option Nat
  runGid : Option Nat

def ExecRunRequest.spec (request : ExecRunRequest) : RunSpec where
  command := request.command
  cwd := request.cwd
  env := request.env
  envAllowlist := request.envAllowlist
  stdin := none
  timeout := request.timeout
  gracePeriod := defaultGracePeriod
  sandbox := request.sandbox
  network := request.network
  readOnlyPaths := request.readOnlyPaths
  writablePaths := request.writablePaths
  containerRuntime := request.containerRuntime
  containerImage := request.containerImage
  resources := request.resources
  seccomp := request.seccomp
  runUid := request.runUid
  runGid := request.runGid

/-- `default_command_runner`, with a record of the commands started. -/
def defaultCommandRunner (host : Host) (spawn : Command → Except RunError RunOutput)
    (started : List Command) (request : ExecRunRequest) :
    Except RunError RunOutput × List Command :=
  match buildCommand host request.spec with
  | .error error => (.error error, started)
  | .ok command => (spawn command, started ++ [command])

def execResultFromOutput (output : RunOutput) (artifactMxc : Option String) :
    TaskExecutionResult where
  exitCode :=
    match output.exitCode with
    | some code => some code
    | none => some (128 + output.signal.getD 0)
  summary :=
    if output.timedOut then "exec command timed out"
    else match output.exitCode, output.signal with
      | some code, _ => "exec command exited with code " ++ toString code
      | none, some signal => "exec command terminated by signal " ++ toString signal
      | none, none => "exec command finished"
  artifactMxc

/-- The request `ExecTaskDispatcher::dispatch` makes of an action and its allowance. -/
def execRunRequest (host : Host) (command : List String) (cwd : String)
    (env : ExtTreeMap String String) (timeoutMs : Option Nat) (allowance : Allowance) :
    ExecRunRequest :=
  let backend := sandboxBackend allowance.sandbox
  let (runUid, runGid) := containerRunIdentity host backend
  { command, cwd, env
    timeout := timeoutMs
    sandbox := backend
    network := networkFor allowance.network
    readOnlyPaths := allowance.readOnlyPaths
    writablePaths := allowance.writablePaths
    envAllowlist := allowance.envAllowlist
    containerRuntime := containerRuntimeFor allowance.sandbox
    containerImage := allowance.containerImage
    resources := resourceLimitsFor allowance
    seccomp := seccompFor allowance.seccomp
    runUid, runGid }

def execTaskDispatcher {δ : Type} (host : Host)
    (runCommand : δ → ExecRunRequest → Except RunError RunOutput × δ) : TaskDispatcher δ where
  dispatch state _ action _ allowance :=
    match action with
    | .exec command cwd env timeoutMs _ _ =>
      if !checkSandboxFloor allowance then
        (.error (.policyDenied
          "execution.require_sandbox is set but the resolved sandbox backend is none"), state)
      else match runCommand state (execRunRequest host command cwd env timeoutMs allowance) with
        | (.ok output, state) => (.ok (execResultFromOutput output none), state)
        | (.error error, state) =>
          (.error (.failed ("exec command could not be run: " ++ error.describe)), state)
    | .tool .. => (.error (.failed "tool action cannot run through the exec dispatcher"), state)

def routingDispatcher {τ δ : Type} (tool : TaskDispatcher τ) (exec : TaskDispatcher δ) :
    TaskDispatcher (τ × δ) where
  dispatch state task action invocationId allowance :=
    match action with
    | .tool .. =>
      let (result, toolState) := tool.dispatch state.1 task action invocationId allowance
      (result, toolState, state.2)
    | .exec .. =>
      let (result, execState) := exec.dispatch state.2 task action invocationId allowance
      (result, state.1, execState)

def localDispatcher {τ : Type} (host : Host) (spawn : Command → Except RunError RunOutput)
    (runTool : τ → String → Value → Allowance → Except String ToolResult × τ) :
    TaskDispatcher (τ × List Command) :=
  routingDispatcher (toolTaskDispatcher runTool)
    (execTaskDispatcher host (defaultCommandRunner host spawn))

theorem defaultCommandRunner_started {host : Host}
    {spawn : Command → Except RunError RunOutput} {started : List Command}
    {request : ExecRunRequest} {command : Command}
    (h : command ∈ (defaultCommandRunner host spawn started request).2) :
    command ∈ started ∨ buildCommand host request.spec = .ok command := by
  unfold defaultCommandRunner at h
  split at h
  · exact .inl h
  · rename_i built hBuild
    rcases List.mem_append.mp h with hOld | hNew
    · exact .inl hOld
    · rw [List.mem_singleton.mp hNew]
      exact .inr hBuild

/-- A dispatched exec action goes to the runner, or lacks a sandbox. -/
theorem execTaskDispatcher_state {δ : Type} (host : Host)
    (runCommand : δ → ExecRunRequest → Except RunError RunOutput × δ) (state : δ)
    (task : TaskState) (argv : List String) (cwd : String) (env : ExtTreeMap String String)
    (timeoutMs : Option Nat) (stream : Bool) (authorization : Option TaskActionAuthorization)
    (invocationId : String) (allowance : Allowance) :
    ((execTaskDispatcher host runCommand).dispatch state task
      (.exec argv cwd env timeoutMs stream authorization) invocationId allowance).2 =
      if !checkSandboxFloor allowance then state
      else (runCommand state (execRunRequest host argv cwd env timeoutMs allowance)).2 := by
  simp only [execTaskDispatcher]
  split
  · rfl
  · rcases runCommand state (execRunRequest host argv cwd env timeoutMs allowance) with
      ⟨error | output, after⟩ <;> rfl

/-- A command that a dispatch starts is built from an exec action, with its overrides and the
allowance's variables. -/
theorem localDispatcher_started {τ : Type} {host : Host}
    {spawn : Command → Except RunError RunOutput}
    {runTool : τ → String → Value → Allowance → Except String ToolResult × τ}
    {state : τ × List Command} {task : TaskState} {action : TaskAction} {invocationId : String}
    {allowance : Allowance} {command : Command}
    (h : command ∈ ((localDispatcher host spawn runTool).dispatch state task action invocationId
      allowance).2.2) :
    command ∈ state.2 ∨ ∃ argv cwd env timeoutMs stream authorization,
      action = .exec argv cwd env timeoutMs stream authorization ∧
        buildCommand host (execRunRequest host argv cwd env timeoutMs allowance).spec =
          .ok command := by
  cases action with
  | tool name args authorization => exact .inl h
  | exec argv cwd env timeoutMs stream authorization =>
    simp only [localDispatcher, routingDispatcher, execTaskDispatcher_state] at h
    split at h
    · exact .inl h
    · rcases defaultCommandRunner_started h with hOld | hBuild
      · exact .inl hOld
      · exact .inr ⟨argv, cwd, env, timeoutMs, stream, authorization, rfl, hBuild⟩

end MxAgent.Daemon
