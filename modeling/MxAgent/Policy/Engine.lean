import MxAgent.Policy.File

/-! Policy evaluation. The outcome depends on the requesting room and agent
only through their own entries in the file. -/
namespace MxAgent

/-- What a policy grants with a request. -/
structure Allowance where
  maxRuntimeMs : Option Nat
  maxOutputBytes : Option Nat
  sandbox : Option Sandbox
  network : Option NetworkPolicy
  requiresApproval : Bool
  envAllowlist : List String
  readOnlyPaths : List String
  writablePaths : List String
  requireVerifiedDevice : Bool
  containerImage : Option String
  maxProcesses : Option Nat
  maxMemoryBytes : Option Nat
  maxCpuSeconds : Option Nat
  seccomp : Seccomp
  requireSandbox : Bool
  deriving DecidableEq

def Allowance.empty : Allowance :=
  ⟨none, none, none, none, false, [], [], [], false, none, none, none, none, .off, false⟩

/-- Why a request is denied, in the order of the checks. -/
inductive DenyReason where
  | unknownRoom
  | untrustedRoom
  | unknownAgent
  | emptyCommand
  | execNotAllowed
  | commandNotAllowed (command : String)
  | cwdNotAllowed (cwd : String)
  | deniedArguments (pattern : String)
  | toolNotAllowed (tool : String)
  deriving DecidableEq, Repr

/-- Rust's `Debug` for a character; what is printable stays. -/
def debugChar (c : Char) : String :=
  if c = '\x22' then "\\\"" else if c = '\x5c' then "\\\\"
  else if c = '\t' then "\\t" else if c = '\n' then "\\n" else if c = '\r' then "\\r"
  else if c = '\x00' then "\\0"
  else if c.toNat < 32 ∨ c.toNat = 127 then
    "\\u\x7b" ++ String.ofList (Nat.toDigits 16 c.toNat) ++ "\x7d"
  else c.toString

def debugString (s : String) : String := "\"" ++ String.join (s.toList.map debugChar) ++ "\""

def DenyReason.describe : DenyReason → String
  | .unknownRoom => "no policy for requesting room"
  | .untrustedRoom => "room is not trusted for raw exec"
  | .unknownAgent => "no policy for requesting agent in this room"
  | .emptyCommand => "command argv is empty"
  | .execNotAllowed => "raw exec is not permitted"
  | .commandNotAllowed command => "command " ++ debugString command ++ " is not allowlisted"
  | .cwdNotAllowed cwd => "working directory " ++ debugString cwd ++ " is not allowlisted"
  | .deniedArguments pattern => "arguments matched deny pattern " ++ debugString pattern
  | .toolNotAllowed tool => "tool " ++ debugString tool ++ " is not allowlisted"

inductive Outcome where
  | allow (allowance : Allowance)
  | deny (reason : DenyReason)
  deriving DecidableEq

def Outcome.allowance : Outcome → Option Allowance
  | .allow allowance => some allowance
  | .deny _ => none

/-- `Regex::new` of the regex crate: a pattern that compiles gives a matcher. -/
abbrev RegexNew := String → Option (String → Bool)

structure ExecContext where
  roomId : String
  requestingAgent : String
  command : List String
  cwd : String
  deriving DecidableEq

structure CallContext where
  roomId : String
  requestingAgent : String
  tool : String
  deriving DecidableEq

def basename (s : String) : String := (fileName s).getD s

def commandAllowed (program : String) (allowCommands : List String) : Bool :=
  allowCommands.any fun allowed => allowed == program || basename allowed == basename program

/-- `cwd_allowed`: an absolute directory at or below an allowed one. -/
def cwdAllowed (cwd : String) (allowCwd : List String) : Bool :=
  isAbsolute cwd && !((splitSlash cwd).any fun segment => segment == ".." || segment == ".")
    && allowCwd.any fun allowed => pathStartsWith cwd allowed

variable (regexNew : RegexNew)

/-- `matched_deny_pattern`: the first pattern that matches the joined command or an argument, or
that does not compile. -/
def matchedDenyPattern (command : List String) : List String → Option String
  | [] => none
  | pattern :: rest =>
    match regexNew pattern with
    | none => some pattern
    | some isMatch =>
      if isMatch (" ".intercalate command) || command.any isMatch then some pattern
      else matchedDenyPattern command rest

namespace Policy

/-- The room and the agent's entry in it, or why there is none. -/
def lookup (policy : Policy) (roomId agentId : String) :
    Except DenyReason (RoomPolicy × AgentPolicy) :=
  match policy.rooms[roomId]? with
  | none => .error .unknownRoom
  | some room =>
    match room.agents[agentId]? with
    | none => .error .unknownAgent
    | some agent => .ok (room, agent)

theorem lookup_eq_ok_iff {policy : Policy} {roomId agentId : String} {room : RoomPolicy}
    {agent : AgentPolicy} :
    policy.lookup roomId agentId = .ok (room, agent) ↔
      policy.rooms[roomId]? = some room ∧ room.agents[agentId]? = some agent := by
  unfold lookup
  cases hRoom : policy.rooms[roomId]? with
  | none => simp
  | some found =>
    simp only [Option.some.injEq]
    cases hAgent : found.agents[agentId]? with
    | none =>
      simp only [reduceCtorEq, false_iff, not_and]
      rintro rfl
      simp [hAgent]
    | some other =>
      simp only [Except.ok.injEq, Prod.mk.injEq]
      constructor
      · rintro ⟨rfl, rfl⟩
        exact ⟨rfl, hAgent⟩
      · rintro ⟨rfl, hOther⟩
        exact ⟨rfl, Option.some.inj (hAgent.symm.trans hOther)⟩

/-- The limits that an allowed request is given. -/
def allowanceFor (policy : Policy) (room : RoomPolicy) (agent : AgentPolicy) : Allowance where
  maxRuntimeMs := agent.maxRuntimeMs
  maxOutputBytes := agent.maxOutputBytes
  sandbox := agent.sandbox.or policy.execution.defaultSandbox
  network := agent.network.or policy.execution.network
  requiresApproval := agent.requiresApproval
  envAllowlist := policy.execution.envAllowlist
  readOnlyPaths := policy.execution.readOnlyPaths
  writablePaths := policy.execution.writablePaths
  containerImage := policy.execution.containerImage
  maxProcesses := agent.maxProcesses.or policy.execution.maxProcesses
  maxMemoryBytes := agent.maxMemoryBytes.or policy.execution.maxMemoryBytes
  maxCpuSeconds := agent.maxCpuSeconds.or policy.execution.maxCpuSeconds
  seccomp := agent.seccomp.getD policy.execution.seccomp
  requireSandbox := policy.execution.requireSandbox
  requireVerifiedDevice := room.requireVerifiedDevice || agent.requireVerifiedDevice

/-- `evaluate_exec`: deny by default, first failing check reported. -/
def evaluateExec (policy : Policy) (ctx : ExecContext) : Outcome :=
  match policy.lookup ctx.roomId ctx.requestingAgent with
  | .error reason => .deny reason
  | .ok (room, agent) =>
    match ctx.command with
    | [] => .deny .emptyCommand
    | program :: _ =>
      if !(agent.allowExec || room.rawExecDefault == some .allow) then .deny .execNotAllowed
      else if !room.trusted then .deny .untrustedRoom
      else if !commandAllowed program agent.allowCommands then
        .deny (.commandNotAllowed program)
      else if !cwdAllowed ctx.cwd agent.allowCwd then .deny (.cwdNotAllowed ctx.cwd)
      else match matchedDenyPattern regexNew ctx.command agent.denyArgsRegex with
        | some pattern => .deny (.deniedArguments pattern)
        | none => .allow (policy.allowanceFor room agent)

/-- `evaluate_call`: the tools an agent may call. -/
def evaluateCall (policy : Policy) (ctx : CallContext) : Outcome :=
  match policy.lookup ctx.roomId ctx.requestingAgent with
  | .error reason => .deny reason
  | .ok (room, agent) =>
    if !agent.allowTools.contains ctx.tool then .deny (.toolNotAllowed ctx.tool)
    else .allow (policy.allowanceFor room agent)

end Policy

end MxAgent
