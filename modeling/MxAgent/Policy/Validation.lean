import MxAgent.Foundations.Fallible
import MxAgent.Foundations.Whitespace
import MxAgent.Policy.Engine

/-! Validation of a parsed policy file. The rules are checked in a fixed order, and the
first one that fails is reported with the dotted path of its field. A policy is accepted
exactly when it is well formed. -/
namespace MxAgent

open Fallible Std Whitespace

/-- `PolicyError::Validation`: the offending field and what is wrong with it. -/
structure PolicyError where
  path : String
  message : String
  deriving DecidableEq, Repr

abbrev Checked := Except PolicyError Unit

def Sandbox.name : Sandbox → String
  | .none => "none"
  | .bubblewrap => "bubblewrap"
  | .firejail => "firejail"
  | .docker => "docker"
  | .podman => "podman"
  | .chroot => "chroot"

/-- A segment that does not name a directory of its own. -/
def hasDotSegment (path : String) : Bool :=
  (splitSlash path).any fun segment => segment == ".." || segment == "."

def elementPath (field : String) (idx : Nat) : String := field ++ "[" ++ toString idx ++ "]"

/-- `quote`: a TOML key as it stands in the file. -/
def quote (key : String) : String := debugString key

def validatePaths (field : String) (paths : List String) : Checked :=
  paths.zipIdx.forM fun (path, idx) => do
    ensure (isAbsolute path) ⟨elementPath field idx, "path " ++ path ++ " must be absolute"⟩
    ensure (!hasDotSegment path) ⟨elementPath field idx,
      "path " ++ path ++ " must be canonical (no \"..\" or \".\" segments)"⟩

/-- `validate_sandbox`: the two backends that only have a name are refused. -/
def validateSandbox (path : String) : Option Sandbox → Checked
  | some .firejail => .error ⟨path, unimplemented .firejail⟩
  | some .chroot => .error ⟨path, unimplemented .chroot⟩
  | _ => .ok ()
where
  unimplemented (backend : Sandbox) : String :=
    "sandbox backend " ++ debugString backend.name ++
      " is not implemented; use \"bubblewrap\", \"docker\", or \"podman\""

/-- A limit of zero would forbid all work; no limit is no field. -/
def validateLimit (path field : String) (value : Option Nat) : Checked :=
  ensure (value != some 0) ⟨path ++ "." ++ field, field ++ " must be greater than zero"⟩

def validateResourceCaps (path : String) (maxProcesses maxMemoryBytes maxCpuSeconds : Option Nat) :
    Checked :=
  [(maxProcesses, "max_processes"), (maxMemoryBytes, "max_memory_bytes"),
    (maxCpuSeconds, "max_cpu_seconds")].forM fun (value, field) => validateLimit path field value

section

variable (regexNew : RegexNew) (regexError : String → String)

/-- `validate_agent`. The text of a regex error is the regex crate's. -/
def validateAgent (path : String) (agent : AgentPolicy) : Checked := do
  validatePaths (path ++ ".allow_cwd") agent.allowCwd
  validateSandbox (path ++ ".sandbox") agent.sandbox
  validateResourceCaps path agent.maxProcesses agent.maxMemoryBytes agent.maxCpuSeconds
  ensureEach agent.denyArgsRegex (fun pattern => (regexNew pattern).isSome) fun pattern idx =>
    ⟨elementPath (path ++ ".deny_args_regex") idx,
      "invalid regular expression: " ++ regexError pattern⟩
  ensureEach agent.allowTools (fun name => !isBlank name) fun name _ =>
    ⟨path ++ ".allow_tools", "tool name " ++ debugString name ++ " must not be empty"⟩
  ensureEach agent.allowCommands (fun cmd => !isBlank cmd) fun cmd _ =>
    ⟨path ++ ".allow_commands", "command " ++ debugString cmd ++ " must not be empty"⟩
  validateLimit path "max_runtime_ms" agent.maxRuntimeMs
  validateLimit path "max_output_bytes" agent.maxOutputBytes

def validateRoom (roomId : String) (room : RoomPolicy) : Checked := do
  let roomPath := "rooms." ++ quote roomId
  ensure (roomId.toList.head? == some '!') ⟨roomPath,
    "room id " ++ debugString roomId ++ " must be a Matrix room id starting with '!'"⟩
  ensureEach room.approvers (fun approver => approver.toList.head? == some '@') fun approver idx =>
    ⟨elementPath (roomPath ++ ".approvers") idx,
      "approver id " ++ debugString approver ++ " must be a Matrix user id starting with '@'"⟩
  room.agents.toList.forM fun (agentId, agent) => do
    let agentPath := roomPath ++ ".agents." ++ quote agentId
    ensure (agentId.toList.head? == some '@') ⟨agentPath,
      "agent id " ++ debugString agentId ++ " must be a Matrix user id starting with '@'"⟩
    validateAgent regexNew regexError agentPath agent

def Policy.validate (policy : Policy) : Checked := do
  validatePaths "execution.read_only_paths" policy.execution.readOnlyPaths
  validatePaths "execution.writable_paths" policy.execution.writablePaths
  validateSandbox "execution.default_sandbox" policy.execution.defaultSandbox
  validateResourceCaps "execution" policy.execution.maxProcesses policy.execution.maxMemoryBytes
    policy.execution.maxCpuSeconds
  ensureEach policy.execution.envAllowlist (fun name => !isBlank name) fun _ idx =>
    ⟨elementPath "execution.env_allowlist" idx, "environment variable name must not be empty"⟩
  policy.rooms.toList.forM fun (roomId, room) => validateRoom regexNew regexError roomId room

end

/-- An absolute path whose segments all name a directory. -/
def Canonical (path : String) : Prop := isAbsolute path ∧ hasDotSegment path = false

def Sandbox.Implemented (sandbox : Option Sandbox) : Prop :=
  sandbox ≠ some .firejail ∧ sandbox ≠ some .chroot

structure AgentPolicy.WellFormed (regexNew : RegexNew) (agent : AgentPolicy) : Prop where
  allowCwd : ∀ path ∈ agent.allowCwd, Canonical path
  sandbox : Sandbox.Implemented agent.sandbox
  maxProcesses : agent.maxProcesses ≠ some 0
  maxMemoryBytes : agent.maxMemoryBytes ≠ some 0
  maxCpuSeconds : agent.maxCpuSeconds ≠ some 0
  denyArgsRegex : ∀ pattern ∈ agent.denyArgsRegex, (regexNew pattern).isSome
  allowTools : ∀ name ∈ agent.allowTools, isBlank name = false
  allowCommands : ∀ cmd ∈ agent.allowCommands, isBlank cmd = false
  maxRuntimeMs : agent.maxRuntimeMs ≠ some 0
  maxOutputBytes : agent.maxOutputBytes ≠ some 0

structure RoomPolicy.WellFormed (regexNew : RegexNew) (room : RoomPolicy) : Prop where
  approvers : ∀ approver ∈ room.approvers, approver.toList.head? = some '@'
  agents : ∀ (agentId : String) agent, room.agents[agentId]? = some agent →
    agentId.toList.head? = some '@' ∧ agent.WellFormed regexNew

structure Policy.WellFormed (regexNew : RegexNew) (policy : Policy) : Prop where
  readOnlyPaths : ∀ path ∈ policy.execution.readOnlyPaths, Canonical path
  writablePaths : ∀ path ∈ policy.execution.writablePaths, Canonical path
  defaultSandbox : Sandbox.Implemented policy.execution.defaultSandbox
  maxProcesses : policy.execution.maxProcesses ≠ some 0
  maxMemoryBytes : policy.execution.maxMemoryBytes ≠ some 0
  maxCpuSeconds : policy.execution.maxCpuSeconds ≠ some 0
  envAllowlist : ∀ name ∈ policy.execution.envAllowlist, isBlank name = false
  rooms : ∀ (roomId : String) room, policy.rooms[roomId]? = some room →
    roomId.toList.head? = some '!' ∧ room.WellFormed regexNew

@[simp] theorem validatePaths_eq_ok {field : String} {paths : List String} :
    validatePaths field paths = .ok () ↔ ∀ path ∈ paths, Canonical path := by
  simp only [validatePaths, forM_eq_ok, seq_eq_ok, ensure_eq_ok, Bool.not_eq_true']
  exact forall_mem_zipIdx paths Canonical

variable {path : String} {regexNew : RegexNew} {regexError : String → String}

@[simp] theorem validateSandbox_eq_ok {sandbox : Option Sandbox} :
    validateSandbox path sandbox = .ok () ↔ Sandbox.Implemented sandbox := by
  rcases sandbox with _ | backend
  · simp [validateSandbox, Sandbox.Implemented]
  · cases backend <;> simp [validateSandbox, Sandbox.Implemented]

@[simp] theorem validateLimit_eq_ok {field : String} {value : Option Nat} :
    validateLimit path field value = .ok () ↔ value ≠ some 0 := by
  simp [validateLimit]

@[simp] theorem validateResourceCaps_eq_ok
    {maxProcesses maxMemoryBytes maxCpuSeconds : Option Nat} :
    validateResourceCaps path maxProcesses maxMemoryBytes maxCpuSeconds = .ok () ↔
      maxProcesses ≠ some 0 ∧ maxMemoryBytes ≠ some 0 ∧ maxCpuSeconds ≠ some 0 := by
  rw [validateResourceCaps, forM_eq_ok]
  simp

theorem validateAgent_eq_ok {agent : AgentPolicy} :
    validateAgent regexNew regexError path agent = .ok () ↔ agent.WellFormed regexNew := by
  simp only [validateAgent, seq_eq_ok, validatePaths_eq_ok, validateSandbox_eq_ok,
    validateResourceCaps_eq_ok, ensureEach_eq_ok, validateLimit_eq_ok, Bool.not_eq_true']
  constructor
  · rintro ⟨hCwd, hSandbox, ⟨hProcesses, hMemory, hCpu⟩, hRegex, hTools, hCommands, hRuntime,
      hOutput⟩
    exact ⟨hCwd, hSandbox, hProcesses, hMemory, hCpu, hRegex, hTools, hCommands, hRuntime, hOutput⟩
  · intro h
    exact ⟨h.allowCwd, h.sandbox, ⟨h.maxProcesses, h.maxMemoryBytes, h.maxCpuSeconds⟩,
      h.denyArgsRegex, h.allowTools, h.allowCommands, h.maxRuntimeMs, h.maxOutputBytes⟩

theorem validateRoom_eq_ok {roomId : String} {room : RoomPolicy} :
    validateRoom regexNew regexError roomId room = .ok () ↔
      roomId.toList.head? = some '!' ∧ room.WellFormed regexNew := by
  simp only [validateRoom, ensure_bind_eq_ok, seq_eq_ok, ensureEach_eq_ok, forM_eq_ok,
    validateAgent_eq_ok, beq_iff_eq, Prod.forall, ExtTreeMap.mem_toList_iff_getElem?_eq_some]
  constructor
  · rintro ⟨hId, hApprovers, hAgents⟩
    exact ⟨hId, hApprovers, hAgents⟩
  · rintro ⟨hId, h⟩
    exact ⟨hId, h.approvers, h.agents⟩

/-- Validation accepts exactly the well-formed policies. -/
theorem Policy.validate_eq_ok {policy : Policy} :
    policy.validate regexNew regexError = .ok () ↔ policy.WellFormed regexNew := by
  simp only [validate, seq_eq_ok, validatePaths_eq_ok, validateSandbox_eq_ok,
    validateResourceCaps_eq_ok, ensureEach_eq_ok, forM_eq_ok, validateRoom_eq_ok, Prod.forall,
    Bool.not_eq_true', ExtTreeMap.mem_toList_iff_getElem?_eq_some]
  constructor
  · rintro ⟨hRead, hWrite, hSandbox, ⟨hProcesses, hMemory, hCpu⟩, hEnv, hRooms⟩
    exact ⟨hRead, hWrite, hSandbox, hProcesses, hMemory, hCpu, hEnv, hRooms⟩
  · intro h
    exact ⟨h.readOnlyPaths, h.writablePaths, h.defaultSandbox,
      ⟨h.maxProcesses, h.maxMemoryBytes, h.maxCpuSeconds⟩, h.envAllowlist, h.rooms⟩

end MxAgent
