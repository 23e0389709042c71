import Mathlib.Data.String.Basic
import Std.Data.ExtTreeMap.Lemmas

/-! The local policy file, and the parts of `std::path` that policy matching uses. -/
namespace MxAgent

open Std

inductive NetworkPolicy where
  | allow | deny
  deriving DecidableEq, Repr

inductive RawExecDefault where
  | allow | deny
  deriving DecidableEq, Repr

inductive Sandbox where
  | none | bubblewrap | firejail | docker | podman | chroot
  deriving DecidableEq, Repr

inductive Seccomp where
  | off | default
  deriving DecidableEq, Repr

structure ExecutionPolicy where
  defaultSandbox : Option Sandbox
  network : Option NetworkPolicy
  readOnlyPaths : List String
  writablePaths : List String
  envAllowlist : List String
  containerImage : Option String
  maxProcesses : Option Nat
  maxMemoryBytes : Option Nat
  maxCpuSeconds : Option Nat
  seccomp : Seccomp
  requireSandbox : Bool
  deriving DecidableEq

/-- What an agent may do in a room. -/
structure AgentPolicy where
  allowExec : Bool
  allowTools : List String
  allowCommands : List String
  allowCwd : List String
  denyArgsRegex : List String
  maxRuntimeMs : Option Nat
  maxOutputBytes : Option Nat
  requiresApproval : Bool
  sandbox : Option Sandbox
  network : Option NetworkPolicy
  maxProcesses : Option Nat
  maxMemoryBytes : Option Nat
  maxCpuSeconds : Option Nat
  seccomp : Option Seccomp
  requireVerifiedDevice : Bool
  deriving DecidableEq

/-- A room's settings and its agents. -/
structure RoomPolicy where
  trusted : Bool
  rawExecDefault : Option RawExecDefault
  requireVerifiedDevice : Bool
  approvers : List String
  agents : ExtTreeMap String AgentPolicy
  deriving DecidableEq

/-- The policy file. -/
structure Policy where
  execution : ExecutionPolicy
  rooms : ExtTreeMap String RoomPolicy
  deriving DecidableEq

/-- Every field left out of the file takes its serde default. -/
def ExecutionPolicy.empty : ExecutionPolicy :=
  ⟨none, none, [], [], [], none, none, none, none, .off, false⟩

def AgentPolicy.empty : AgentPolicy :=
  ⟨false, [], [], [], [], none, none, false, none, none, none, none, none, none, false⟩

def RoomPolicy.empty : RoomPolicy := ⟨false, none, false, [], ∅⟩

inductive PathComponent where
  | rootDir | curDir | parentDir
  | normal (name : String)
  deriving DecidableEq, Repr

def splitSlash (path : String) : List String := (path.toList.splitOn '/').map String.ofList

def componentOf (segment : String) : Option PathComponent :=
  if segment = "" ∨ segment = "." then none
  else if segment = ".." then some .parentDir
  else some (.normal segment)

def isAbsolute (path : String) : Bool := path.toList.head? == some '/'

/-- `Path::components` on Unix: empty and `.` segments disappear, except a leading `.`. -/
def components (path : String) : List PathComponent :=
  if isAbsolute path then .rootDir :: (splitSlash path).filterMap componentOf
  else match splitSlash path with
    | "." :: rest => .curDir :: rest.filterMap componentOf
    | segments => segments.filterMap componentOf

/-- `Path::starts_with`, component by component. -/
def pathStartsWith (path base : String) : Bool := (components base).isPrefixOf (components path)

def fileName (path : String) : Option String :=
  match (components path).getLast? with
  | some (.normal name) => some name
  | _ => none

end MxAgent
