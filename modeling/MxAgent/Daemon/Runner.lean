import Mathlib.Data.List.Infix
import MxAgent.Foundations.Fallible
import MxAgent.Sandbox.Backend
import MxAgent.Policy.File

/-! The command runner: which environment variables a child gets, and how a
command is built from a run spec. -/
namespace MxAgent.Daemon

open Std Fallible

def containsText (text needle : String) : Bool :=
  text.toList.tails.any fun rest => needle.toList.isPrefixOf rest

def startsWithText (text start : String) : Bool := start.toList.isPrefixOf text.toList

def endsWithText (text ending : String) : Bool := ending.toList.isSuffixOf text.toList

def asciiLowercase (text : String) : String := String.ofList (text.toList.map Char.toLower)

/-- `is_sensitive_key`. A bare `key` counts on a token boundary only. -/
def isSensitiveKey (key : String) : Bool :=
  let lower := asciiLowercase key
  ["token", "secret", "password", "passwd", "api_key", "apikey", "access_key", "private_key",
    "credential", "authorization", "recovery", "passphrase"].any (containsText lower)
  || lower == "key" || endsWithText lower "_key"

def secretVars : List String :=
  ["MATRIX_ACCESS_TOKEN", "MX_AGENT_TOKEN", "MX_AGENT_PASSWORD", "MX_AGENT_RECOVERY_KEY",
    "SSH_AUTH_SOCK", "GITHUB_TOKEN", "OPENAI_API_KEY", "ANTHROPIC_API_KEY", "NPM_TOKEN"]

def secretPrefixes : List String := ["AWS_", "GOOGLE_", "AZURE_"]

def defaultAllowedVars : List String :=
  ["PATH", "HOME", "USER", "LOGNAME", "SHELL", "LANG", "LANGUAGE", "LC_ALL", "LC_CTYPE", "TZ",
    "TERM", "TMPDIR", "PWD"]

/-- `is_secret_var`: a known name, a known prefix or a sensitive word. -/
def isSecretVar (name : String) : Bool :=
  secretVars.contains name || secretPrefixes.any (startsWithText name) || isSensitiveKey name

/-- `is_allowed_var`: a default variable or one the policy lists. -/
def isAllowedVar (name : String) (extraAllowed : List String) : Bool :=
  defaultAllowedVars.contains name || extraAllowed.contains name

/-- `is_loader_control_var`: what steers the dynamic loader. -/
def isLoaderControlVar (name : String) : Bool :=
  name == "PATH" || startsWithText name "LD_" || startsWithText name "DYLD_"

/-- `sanitize_env`: the inherited part is screened, the overrides are not. -/
def sanitizeEnv (inherited overrides : ExtTreeMap String String) (extraAllowed : List String) :
    ExtTreeMap String String :=
  inherited.filter (fun name _ => isAllowedVar name extraAllowed && !isSecretVar name) ∪ overrides

/-- What `first_disallowed_remote_override` looks for. -/
def disallowedOverride (extraAllowed : List String) (name : String) : Bool :=
  isSecretVar name || isLoaderControlVar name || !isAllowedVar name extraAllowed

/-- The first override that a remote request may not make. -/
def firstDisallowedRemoteOverride (env : ExtTreeMap String String) (extraAllowed : List String) :
    Option String :=
  env.keys.find? (disallowedOverride extraAllowed)

/-- A child's variable comes from the overrides or, screened, the daemon. -/
theorem sanitizeEnv_getElem? (inherited overrides : ExtTreeMap String String)
    (extraAllowed : List String) (name : String) :
    (sanitizeEnv inherited overrides extraAllowed)[name]? =
      (overrides[name]?).or
        (if isAllowedVar name extraAllowed && !isSecretVar name then inherited[name]? else
          none) := by
  rw [sanitizeEnv, ExtTreeMap.getElem?_union, ExtTreeMap.getElem?_filter']
  congr 1
  cases inherited[name]? <;> simp [Option.filter]

theorem firstDisallowedRemoteOverride_eq_none {env : ExtTreeMap String String}
    {extraAllowed : List String} (h : firstDisallowedRemoteOverride env extraAllowed = none)
    {name value : String} (hName : env[name]? = some value) :
    isAllowedVar name extraAllowed ∧ ¬ isSecretVar name ∧ ¬ isLoaderControlVar name := by
  have hKey : name ∈ env.keys := by
    rw [ExtTreeMap.mem_keys, ← ExtTreeMap.isSome_getElem?_iff_mem, hName]
    rfl
  have hScreen := List.find?_eq_none.mp h name hKey
  simp only [disallowedOverride, Bool.or_eq_true, Bool.not_eq_true', not_or] at hScreen
  exact ⟨by simpa using hScreen.2, hScreen.1.1, hScreen.1.2⟩

/-- What is to be run, and under which limits. -/
structure RunSpec where
  command : List String
  cwd : String
  env : ExtTreeMap String String
  envAllowlist : List String
  stdin : Option ByteArray
  timeout : Option Nat
  gracePeriod : Nat
  sandbox : Backend
  network : Network
  readOnlyPaths : List String
  writablePaths : List String
  containerRuntime : Runtime
  containerImage : Option String
  resources : ResourceLimits
  seccomp : SeccompMode
  runUid : Option Nat
  runGid : Option Nat

def defaultGracePeriod : Nat := 5000

inductive RunError where
  | emptyCommand
  | missingCwd (cwd : String)
  | spawn (message : String)
  deriving DecidableEq, Repr

/-- What the host answers while a command is built. -/
structure Host where
  /-- The daemon's own environment, `std::env::vars()`. -/
  vars : ExtTreeMap String String
  isExistingDir : String → Bool
  pathExists : String → Bool
  /-- Writing the OCI seccomp profile gives its path. -/
  writeSeccompProfile : Except String String
  /-- Filling a memfd with the filter program gives its number. -/
  seccompFd : Except String Nat
  currentExe : Except String String
  uid : Nat
  gid : Nat

/-- The configured `Command`: the fields `build_command` sets. -/
structure Command where
  program : String
  args : List String
  currentDir : String
  env : ExtTreeMap String String
  stdinPiped : Bool
  seccompFd : Option Nat
  deriving DecidableEq

def restrictionsFor (spec : RunSpec) (env : ExtTreeMap String String) : Restrictions where
  cwd := spec.cwd
  env
  timeout := spec.timeout
  maxOutputBytes := none
  network := spec.network
  readOnlyPaths := spec.readOnlyPaths
  writablePaths := spec.writablePaths
  interactive := false
  resources := spec.resources
  seccomp := spec.seccomp
  seccompProfilePath := none
  runUid := spec.runUid
  runGid := spec.runGid

def resolveSandbox (spec : RunSpec) : SandboxImpl :=
  match spec.sandbox with
  | .container => sandboxForContainer spec.containerRuntime spec.containerImage
  | other => sandboxFor other

/-- `Path::join` with a relative program name. -/
def pathJoin (dir name : String) : String :=
  if dir.toList.getLast? = some '/' then dir ++ name else dir ++ "/" ++ name

/-- `preflight_backend`: whether the backend's program is there. -/
def preflightBackend (host : Host) (backend : Backend) (runtime : Runtime) : Except String Unit :=
  match backendProgram backend runtime with
  | none => .ok ()
  | some program =>
    let dirs := ((host.vars["PATH"]?.getD "").toList.splitOn ':').map String.ofList
    if (dirs.filter (· ≠ "")).any fun dir => host.pathExists (pathJoin dir program) then .ok ()
    else .error ("sandbox backend \"" ++ backend.name ++ "\" selected but its launcher `" ++
      program ++ "` was not found on PATH")

def containerSeccompProfilePath (host : Host) (spec : RunSpec) : Except RunError (Option String) :=
  if spec.sandbox ≠ .container ∨ !spec.seccomp.isOn then .ok none
  else (host.writeSeccompProfile.map some).mapError .spawn

def injectBubblewrapSeccomp (host : Host) (spec : RunSpec) (argv : List String) :
    Except RunError (List String × Option Nat) :=
  if spec.sandbox ≠ .bubblewrap ∨ !spec.seccomp.isOn then .ok (argv, none)
  else match host.seccompFd with
    | .error message => .error (.spawn message)
    | .ok fd => .ok (bubblewrapWithSeccompFd argv fd, some fd)

def launcherWrap (host : Host) (spec : RunSpec) (argv : List String) :
    Except RunError (List String) :=
  if spec.sandbox = .container then .ok argv
  else
    let isNone := spec.sandbox == .none
    if !LauncherArgs.isNeeded spec.resources spec.seccomp isNone then .ok argv
    else match host.currentExe with
      | .error message => .error (.spawn
          ("could not resolve the daemon binary to apply sandbox resource limits: " ++ message))
      | .ok exe =>
        let args : LauncherArgs :=
          ⟨spec.resources, if isNone then spec.seccomp else .off, argv⟩
        .ok ([exe, LauncherArgs.subcommand] ++ args.toArgs)

/-- `build_command`: the environment, the sandbox, the filter and the launcher. -/
def buildCommand (host : Host) (spec : RunSpec) : Except RunError Command := do
  ensure (!spec.command.isEmpty) .emptyCommand
  ensure (host.isExistingDir spec.cwd) (.missingCwd spec.cwd)
  (preflightBackend host spec.sandbox spec.containerRuntime).mapError .spawn
  let env := sanitizeEnv host.vars spec.env spec.envAllowlist
  let seccompProfilePath ← containerSeccompProfilePath host spec
  let restrictions := { restrictionsFor spec env with seccompProfilePath }
  let prepared := (resolveSandbox spec).prepare spec.command restrictions
  let (preparedArgv, seccompFd) ← injectBubblewrapSeccomp host spec prepared.argv
  let argv ← launcherWrap host spec preparedArgv
  match argv with
  | [] => throw .emptyCommand
  | program :: args =>
    pure { program, args, currentDir := prepared.restrictions.cwd,
           env := prepared.restrictions.env, stdinPiped := spec.stdin.isSome, seccompFd }

/-- Whatever wrapper the command gets, its environment is the sanitized one. -/
theorem buildCommand_env {host : Host} {spec : RunSpec} {command : Command}
    (h : buildCommand host spec = .ok command) :
    command.env = sanitizeEnv host.vars spec.env spec.envAllowlist := by
  rw [buildCommand, ensure_bind_eq_ok, ensure_bind_eq_ok, bind_eq_ok] at h
  obtain ⟨-, -, -, -, h⟩ := h
  obtain ⟨profile, -, h⟩ := bind_eq_ok.mp h
  obtain ⟨injected, -, h⟩ := bind_eq_ok.mp h
  obtain ⟨argv, -, h⟩ := bind_eq_ok.mp h
  cases argv with
  | nil => cases h
  | cons program args =>
    cases h
    rw [SandboxImpl.prepare_restrictions]
    rfl

end MxAgent.Daemon
