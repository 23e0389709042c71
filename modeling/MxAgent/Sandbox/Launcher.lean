import Mathlib.Data.Nat.Digits.Defs
import MxAgent.Sandbox.Backend

/-! The arguments of the launcher, read back. Everything after the first separator is the command,
so that a command with separators or launcher flags of its own survives the round trip. -/
namespace MxAgent

inductive LauncherError where
  | expectsValue (flag : String)
  | expectsInteger (flag value : String)
  | expectsMode (got : Option String)
  | unknownFlag (flag : String)
  | missingSeparator
  | emptyCommand
  deriving DecidableEq, Repr

/-- The text of the error. `quote` is the debug rendering of a string. -/
def LauncherError.message (quote : String → String) : LauncherError → String
  | .expectsValue flag => flag ++ " expects a value"
  | .expectsInteger flag value =>
    flag ++ " expects a non-negative integer, got " ++ quote value
  | .expectsMode got =>
    "--seccomp expects \"off\" or \"default\", got " ++
      match got with
      | none => "None"
      | some text => "Some(" ++ quote text ++ ")"
  | .unknownFlag flag => "unknown launcher flag " ++ quote flag
  | .missingSeparator => "missing `--` before the launcher command"
  | .emptyCommand => "launcher command argv is empty"

/-- `str::parse::<u64>`. A leading `+` is accepted. -/
def u64FromStr (text : String) : Option Nat :=
  let digits := if text.toList.head? = some '+' then text.toList.tail else text.toList
  if digits.isEmpty || !digits.all Char.isDigit then none
  else
    let value := Nat.ofDigitChars 10 digits 0
    if value < 2 ^ 64 then some value else none

/-- `parse_u64` of a value that is there, naming the flag on error. -/
def parseU64 (flag value : String) : Except LauncherError Nat :=
  match u64FromStr value with
  | none => .error (.expectsInteger flag value)
  | some number => .ok number

def parseMode (value : String) : Except LauncherError SeccompMode :=
  if value = "off" then .ok .off
  else if value = "default" then .ok .default
  else .error (.expectsMode (some value))

def ResourceLimits.unset : ResourceLimits :=
  { maxProcesses := none, maxMemoryBytes := none, maxCpuSeconds := none }

def ResourceLimits.Fits (limits : ResourceLimits) : Prop :=
  (∀ n ∈ limits.maxProcesses, n < 2 ^ 64) ∧ (∀ n ∈ limits.maxMemoryBytes, n < 2 ^ 64) ∧
    ∀ n ∈ limits.maxCpuSeconds, n < 2 ^ 64

namespace LauncherArgs

/-- The loop of `parse`, with what the flags so far have set. -/
def parseFrom (resources : ResourceLimits) (seccomp : SeccompMode) :
    List String → Except LauncherError LauncherArgs
  | [] => .error .missingSeparator
  | arg :: rest =>
    if arg = "--" then
      if rest.isEmpty then .error .emptyCommand else .ok ⟨resources, seccomp, rest⟩
    else if arg = "--nproc" then
      match rest with
      | [] => .error (.expectsValue "--nproc")
      | value :: rest => do
        let n ← parseU64 "--nproc" value
        parseFrom { resources with maxProcesses := some n } seccomp rest
    else if arg = "--as" then
      match rest with
      | [] => .error (.expectsValue "--as")
      | value :: rest => do
        let n ← parseU64 "--as" value
        parseFrom { resources with maxMemoryBytes := some n } seccomp rest
    else if arg = "--cpu" then
      match rest with
      | [] => .error (.expectsValue "--cpu")
      | value :: rest => do
        let n ← parseU64 "--cpu" value
        parseFrom { resources with maxCpuSeconds := some n } seccomp rest
    else if arg = "--seccomp" then
      match rest with
      | [] => .error (.expectsMode none)
      | value :: rest => do
        let mode ← parseMode value
        parseFrom resources mode rest
    else .error (.unknownFlag arg)

def parse (args : List String) : Except LauncherError LauncherArgs :=
  parseFrom .unset .off args

end LauncherArgs

theorem u64FromStr_toString {n : Nat} (hn : n < 2 ^ 64) : u64FromStr (toString n) = some n := by
  have hText : (toString n).toList = Nat.toDigits 10 n := by
    rw [Nat.toString_eq_ofList_toDigits, String.toList_ofList]
  have hDigits : ∀ c ∈ Nat.toDigits 10 n, c.isDigit := fun c hc =>
    Nat.isDigit_of_mem_toDigits (by decide) (by decide) hc
  have hPlus : (Nat.toDigits 10 n).head? ≠ some '+' := by
    intro hHead
    exact absurd (hDigits '+' (List.mem_of_mem_head? hHead)) (by decide)
  have hAll : (Nat.toDigits 10 n).all Char.isDigit := List.all_eq_true.mpr hDigits
  have hSome : (Nat.toDigits 10 n).isEmpty = false := by
    rw [List.isEmpty_eq_false_iff]
    exact Nat.toDigits_ne_nil
  simp only [u64FromStr, hText, if_neg hPlus, hAll, hSome, Bool.not_true, Bool.or_self,
    Bool.false_eq_true, if_false, Nat.ofDigitChars_ten_toDigits, if_pos hn]

theorem parseU64_toString {n : Nat} (hn : n < 2 ^ 64) (flag : String) :
    parseU64 flag (toString n) = .ok n := by
  rw [parseU64, u64FromStr_toString hn]

theorem parseMode_name (mode : SeccompMode) : parseMode mode.name = .ok mode := by
  cases mode <;> rfl

variable {cap : Option Nat}

namespace LauncherArgs

section Flags

variable (resources : ResourceLimits) (seccomp : SeccompMode) (rest : List String)

theorem parseFrom_separator {command : List String} (hCommand : command ≠ []) :
    parseFrom resources seccomp ("--" :: command) = .ok ⟨resources, seccomp, command⟩ := by
  obtain ⟨program, arguments, rfl⟩ := List.exists_cons_of_ne_nil hCommand
  rw [parseFrom, if_pos rfl]
  rfl

theorem parseFrom_nproc (hCap : ∀ n ∈ cap, n < 2 ^ 64) :
    parseFrom resources seccomp (flagWith "--nproc" (cap.map toString) ++ rest) =
      parseFrom { resources with maxProcesses := cap.or resources.maxProcesses } seccomp rest := by
  cases cap with
  | none => rfl
  | some n =>
    simp only [Option.map_some, flagWith, List.cons_append, List.nil_append]
    rw [parseFrom, if_neg (by decide), if_pos rfl, parseU64_toString (hCap n rfl)]
    rfl

theorem parseFrom_as (hCap : ∀ n ∈ cap, n < 2 ^ 64) :
    parseFrom resources seccomp (flagWith "--as" (cap.map toString) ++ rest) =
      parseFrom { resources with maxMemoryBytes := cap.or resources.maxMemoryBytes } seccomp
        rest := by
  cases cap with
  | none => rfl
  | some n =>
    simp only [Option.map_some, flagWith, List.cons_append, List.nil_append]
    rw [parseFrom, if_neg (by decide), if_neg (by decide), if_pos rfl,
      parseU64_toString (hCap n rfl)]
    rfl

theorem parseFrom_cpu (hCap : ∀ n ∈ cap, n < 2 ^ 64) :
    parseFrom resources seccomp (flagWith "--cpu" (cap.map toString) ++ rest) =
      parseFrom { resources with maxCpuSeconds := cap.or resources.maxCpuSeconds } seccomp
        rest := by
  cases cap with
  | none => rfl
  | some n =>
    simp only [Option.map_some, flagWith, List.cons_append, List.nil_append]
    rw [parseFrom, if_neg (by decide), if_neg (by decide), if_neg (by decide), if_pos rfl,
      parseU64_toString (hCap n rfl)]
    rfl

theorem parseFrom_seccomp (mode : SeccompMode) :
    parseFrom resources .off ((if mode.isOn then ["--seccomp", mode.name] else []) ++ rest) =
      parseFrom resources mode rest := by
  cases mode with
  | off => rfl
  | default =>
    simp only [SeccompMode.isOn, if_true, List.cons_append, List.nil_append]
    rw [parseFrom, if_neg (by decide), if_neg (by decide), if_neg (by decide),
      if_neg (by decide), if_pos rfl, parseMode_name]
    rfl

end Flags

/-- `parse` is the inverse of `to_args`, for any command. -/
theorem parse_toArgs {args : LauncherArgs} (hCommand : args.command ≠ [])
    (hCaps : args.resources.Fits) : parse args.toArgs = .ok args := by
  obtain ⟨hProcesses, hMemory, hCpu⟩ := hCaps
  rw [parse, toArgs, List.append_assoc, List.append_assoc, List.append_assoc, List.append_assoc,
    parseFrom_nproc _ _ _ hProcesses, parseFrom_as _ _ _ hMemory, parseFrom_cpu _ _ _ hCpu,
    parseFrom_seccomp, List.singleton_append, parseFrom_separator _ _ hCommand]
  simp [ResourceLimits.unset]

end LauncherArgs

end MxAgent
