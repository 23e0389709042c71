import MxAgent.System.RemoteEnvironment

/-! The wall-clock limit of remotely requested commands. The requester asks for one,
the policy of the operator may cap it, and three places put the two together. -/
namespace MxAgent.System.RuntimeCaps

open Protocol Daemon ApprovalRooms RemoteEnvironment Std

inductive RemoteExecution where
  | batch (request : ExecRequest)
  | pty (request : ExecRequest)
  | task (command : List String) (cwd : String) (env : ExtTreeMap String String)
      (timeoutMs : Option Nat)

namespace RemoteExecution

def spec (host : Host) (allowance : Allowance) : RemoteExecution → RunSpec
  | .batch request => controlledExecSpec host request allowance
  | .pty request => controlledPtyExecSpec host request allowance
  | .task command cwd env timeoutMs =>
    (execRunRequest host command cwd env timeoutMs allowance).spec

def requestedMs : RemoteExecution → Option Nat
  | .batch request | .pty request => some request.timeoutMs
  | .task _ _ _ timeoutMs => timeoutMs

end RemoteExecution

def effectiveMs (requestedMs maxRuntimeMs : Option Nat) : Option Nat :=
  Option.merge min requestedMs maxRuntimeMs

/-- The documented limit, `min(policy cap, requested)`, is the one that is set. -/
def Clamped (host : Host) (allowance : Allowance) (execution : RemoteExecution) : Prop :=
  (execution.spec host allowance).timeout =
    effectiveMs execution.requestedMs allowance.maxRuntimeMs

instance (host : Host) (allowance : Allowance) (execution : RemoteExecution) :
    Decidable (Clamped host allowance execution) :=
  inferInstanceAs (Decidable (_ = _))

/-- When each path sets the right limit: a live request runs under the cap, a task under its own
limit. -/
def Harmonious (allowance : Allowance) : RemoteExecution → Prop
  | .batch request | .pty request => ∀ cap ∈ allowance.maxRuntimeMs, cap ≤ request.timeoutMs
  | .task _ _ _ timeoutMs =>
    ∀ cap ∈ allowance.maxRuntimeMs, ∃ requested ∈ timeoutMs, requested ≤ cap

/-- The cap replaces the requested limit rightly when it is lower. -/
theorem getD_eq_effectiveMs_iff (maxRuntimeMs : Option Nat) (requested : Nat) :
    some (maxRuntimeMs.getD requested) = effectiveMs (some requested) maxRuntimeMs ↔
      ∀ cap ∈ maxRuntimeMs, cap ≤ requested := by
  cases maxRuntimeMs with
  | none => simp [effectiveMs]
  | some cap => simp [effectiveMs]

/-- The cap is left out rightly when there is none, or a lower request. -/
theorem eq_effectiveMs_iff (requestedMs maxRuntimeMs : Option Nat) :
    requestedMs = effectiveMs requestedMs maxRuntimeMs ↔
      ∀ cap ∈ maxRuntimeMs, ∃ requested ∈ requestedMs, requested ≤ cap := by
  cases maxRuntimeMs with
  | none => cases requestedMs <;> simp [effectiveMs]
  | some cap => cases requestedMs <;> simp [effectiveMs]

/-- The limit of a remote execution is the documented one exactly when its path picks the lower of
the two. -/
theorem clamped_iff_harmonious (host : Host) (allowance : Allowance)
    (execution : RemoteExecution) :
    Clamped host allowance execution ↔ Harmonious allowance execution := by
  cases execution with
  | batch request => exact getD_eq_effectiveMs_iff allowance.maxRuntimeMs request.timeoutMs
  | pty request => exact getD_eq_effectiveMs_iff allowance.maxRuntimeMs request.timeoutMs
  | task command cwd env timeoutMs => exact eq_effectiveMs_iff timeoutMs allowance.maxRuntimeMs

def quarterHour : Allowance := { Allowance.empty with maxRuntimeMs := some 900000 }

/-- A build with a limit of one minute runs for a quarter of an hour, and a task without one runs
without any. -/
theorem cap_replaced_or_ignored :
    ¬ Clamped buildHost quarterHour (.batch (buildRequest ["make"])) ∧
      ¬ Clamped buildHost quarterHour (.pty (buildRequest ["make"])) ∧
      ¬ Clamped buildHost quarterHour (.task ["make"] "/srv/app" ∅ none) := by
  refine ⟨?_, ?_, ?_⟩ <;> decide

end MxAgent.System.RuntimeCaps
