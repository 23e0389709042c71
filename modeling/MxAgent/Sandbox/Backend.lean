import Std.Data.ExtTreeMap.Lemmas

/-! Sandbox backends. A backend rewrites the argv of a command so that it starts
inside the backend's wrapper; the restrictions it was given are handed back for the
runner to enforce. -/
namespace MxAgent

open Std

structure ResourceLimits where
  maxProcesses : Option Nat
  maxMemoryBytes : Option Nat
  maxCpuSeconds : Option Nat
  deriving DecidableEq, Repr

def ResourceLimits.isUnset (limits : ResourceLimits) : Bool :=
  limits.maxProcesses.isNone && limits.maxMemoryBytes.isNone && limits.maxCpuSeconds.isNone

inductive SeccompMode where
  | off | default
  deriving DecidableEq, Repr

def SeccompMode.isOn : SeccompMode → Bool
  | .off => false
  | .default => true

def SeccompMode.name : SeccompMode → String
  | .off => "off"
  | .default => "default"

inductive Backend where
  | none | bubblewrap | container
  deriving DecidableEq, Repr

def Backend.name : Backend → String
  | .none => "none"
  | .bubblewrap => "bubblewrap"
  | .container => "container"

inductive Network where
  | allow | deny
  deriving DecidableEq, Repr

inductive Runtime where
  | docker | podman
  deriving DecidableEq, Repr

def Runtime.program : Runtime → String
  | .docker => "docker"
  | .podman => "podman"

structure Restrictions where
  cwd : String
  env : ExtTreeMap String String
  timeout : Option Nat
  maxOutputBytes : Option Nat
  network : Network
  readOnlyPaths : List String
  writablePaths : List String
  interactive : Bool
  resources : ResourceLimits
  seccomp : SeccompMode
  seccompProfilePath : Option String
  runUid : Option Nat
  runGid : Option Nat
  deriving DecidableEq

structure Prepared where
  backend : Backend
  argv : List String
  restrictions : Restrictions
  deriving DecidableEq

inductive SandboxImpl where
  | none
  | bubblewrap
  | container (runtime : Runtime) (image : String)
  deriving DecidableEq, Repr

def defaultImage : String := "debian:stable-slim"

def flagWith (flag : String) (value : Option String) : List String :=
  match value with
  | Option.none => []
  | some text => [flag, text]

/-- What stands before the separator. Later binds win. -/
def bubblewrapFlags (restrictions : Restrictions) : List String :=
  ["bwrap", "--die-with-parent", "--unshare-pid", "--unshare-uts", "--unshare-ipc",
    "--unshare-user", "--cap-drop", "ALL"]
  ++ (if restrictions.interactive then [] else ["--new-session"])
  ++ (if restrictions.network = .deny then ["--unshare-net"] else [])
  ++ ["--proc", "/proc", "--dev", "/dev", "--tmpfs", "/tmp"]
  ++ restrictions.readOnlyPaths.flatMap (fun path => ["--ro-bind", path, path])
  ++ restrictions.writablePaths.flatMap (fun path => ["--bind", path, path])
  ++ ["--chdir", restrictions.cwd]

/-- `BubblewrapSandbox::prepare`. -/
def bubblewrapArgv (argv : List String) (restrictions : Restrictions) : List String :=
  bubblewrapFlags restrictions ++ "--" :: argv

/-- The identity a container runs as, with every capability dropped. -/
def identityFlags (runtime : Runtime) (restrictions : Restrictions) : List String :=
  match restrictions.runUid with
  | Option.none => []
  | some uid =>
    (match runtime with
      | .docker =>
        ["--user", toString uid ++ ":" ++ toString (restrictions.runGid.getD uid)]
      | .podman => ["--userns=keep-id"])
    ++ ["--cap-drop", "ALL"]

/-- `ContainerSandbox::prepare`. The environment is forwarded by name only. -/
def containerArgv (runtime : Runtime) (image : String) (argv : List String)
    (restrictions : Restrictions) : List String :=
  [runtime.program, "run", "--rm", "--read-only", "--security-opt", "no-new-privileges"]
  ++ (if restrictions.seccomp.isOn then
      flagWith "--security-opt" (restrictions.seccompProfilePath.map ("seccomp=" ++ ·))
    else [])
  ++ identityFlags runtime restrictions
  ++ flagWith "--pids-limit" (restrictions.resources.maxProcesses.map toString)
  ++ flagWith "--memory" (restrictions.resources.maxMemoryBytes.map toString)
  ++ flagWith "--ulimit" (restrictions.resources.maxCpuSeconds.map fun secs =>
      "cpu=" ++ toString secs ++ ":" ++ toString secs)
  ++ (if restrictions.interactive then ["-i", "-t"] else [])
  ++ (if restrictions.network = .deny then ["--network", "none"] else [])
  ++ restrictions.env.keys.flatMap (fun key => ["--env", key])
  ++ restrictions.readOnlyPaths.flatMap (fun path => ["--volume", path ++ ":" ++ path ++ ":ro"])
  ++ restrictions.writablePaths.flatMap (fun path => ["--volume", path ++ ":" ++ path])
  ++ ["--workdir", restrictions.cwd, image] ++ argv

def SandboxImpl.prepare (sandbox : SandboxImpl) (argv : List String)
    (restrictions : Restrictions) : Prepared :=
  match sandbox with
  | .none => ⟨.none, argv, restrictions⟩
  | .bubblewrap => ⟨.bubblewrap, bubblewrapArgv argv restrictions, restrictions⟩
  | .container runtime image =>
    ⟨.container, containerArgv runtime image argv restrictions, restrictions⟩

/-- No backend touches the restrictions, and with them the environment. -/
@[simp] theorem SandboxImpl.prepare_restrictions (sandbox : SandboxImpl) (argv : List String)
    (restrictions : Restrictions) :
    (sandbox.prepare argv restrictions).restrictions = restrictions := by
  cases sandbox <;> rfl

def sandboxFor : Backend → SandboxImpl
  | .none => .none
  | .bubblewrap => .bubblewrap
  | .container => .container .docker defaultImage

def sandboxForContainer (runtime : Runtime) (image : Option String) : SandboxImpl :=
  .container runtime (image.getD defaultImage)

/-- `bubblewrap_with_seccomp_fd`: the flag goes before the first separator. -/
def bubblewrapWithSeccompFd (argv : List String) (fd : Nat) : List String :=
  argv.takeWhile (· ≠ "--") ++ ["--seccomp", toString fd] ++ argv.dropWhile (· ≠ "--")

def backendProgram (backend : Backend) (runtime : Runtime) : Option String :=
  match backend with
  | .none => Option.none
  | .bubblewrap => some "bwrap"
  | .container => some runtime.program

/-- The arguments of the launcher that applies resource caps before `exec`. -/
structure LauncherArgs where
  resources : ResourceLimits
  seccomp : SeccompMode
  command : List String
  deriving DecidableEq, Repr

namespace LauncherArgs

def subcommand : String := "__sandbox-exec"

def isNeeded (resources : ResourceLimits) (seccomp : SeccompMode) (isNoneBackend : Bool) : Bool :=
  !resources.isUnset || (isNoneBackend && seccomp.isOn)

def toArgs (args : LauncherArgs) : List String :=
  flagWith "--nproc" (args.resources.maxProcesses.map toString)
  ++ flagWith "--as" (args.resources.maxMemoryBytes.map toString)
  ++ flagWith "--cpu" (args.resources.maxCpuSeconds.map toString)
  ++ (if args.seccomp.isOn then ["--seccomp", args.seccomp.name] else [])
  ++ ["--"] ++ args.command

end LauncherArgs

end MxAgent
