import Mathlib.Algebra.GroupWithZero.Nat
import MxAgent.Foundations.Whitespace

/-! The `/sync` loop: it resumes from the stored token, stores every token it is given, and backs
off exponentially while it fails. The answers of the sync step, of the file system and of the
clock are inputs, and so is what each look at the `running` flag finds. -/
namespace MxAgent.Daemon

open Whitespace

/-! ## Backoff -/

/-- A `Duration`, in nanoseconds. -/
abbrev Duration := Nat

namespace Duration

def asMillis (duration : Duration) : Nat := duration / 1000000

def fromMillis (millis : Nat) : Duration := millis * 1000000

def asSecs (duration : Duration) : Nat := duration / 1000000000

end Duration

def u64Max : Nat := 2 ^ 64 - 1

def checkedPow (base exponent : Nat) : Option Nat :=
  if base ^ exponent < 2 ^ 64 then some (base ^ exponent) else none

def saturatingMul (a b : Nat) : Nat := min (a * b) u64Max

structure BackoffConfig where
  base : Duration
  max : Duration
  factor : Nat
  deriving DecidableEq, Repr

structure Backoff where
  config : BackoffConfig
  attempt : Nat
  deriving DecidableEq, Repr

namespace Backoff

def new (config : BackoffConfig) : Backoff := { config, attempt := 0 }

/-- The delay for this attempt, and the backoff with its `u32` counter on. -/
def nextDelay (backoff : Backoff) : Duration × Backoff :=
  let baseMs := Duration.asMillis backoff.config.base % 2 ^ 64
  let maxMs := Duration.asMillis backoff.config.max % 2 ^ 64
  let mult := (checkedPow backoff.config.factor backoff.attempt).getD u64Max
  let delayMs := min (saturatingMul baseMs mult) maxMs
  (Duration.fromMillis delayMs, { backoff with attempt := min (backoff.attempt + 1) (2 ^ 32 - 1) })

def reset (backoff : Backoff) : Backoff := { backoff with attempt := 0 }

end Backoff

/-! ## Health -/

inductive SyncState where
  | initializing | healthy | degraded | stopped
  deriving DecidableEq, Repr

structure SyncHealth where
  state : SyncState
  totalSyncs : Nat
  consecutiveFailures : Nat
  lastSuccessUnix : Option Nat
  lastError : Option String
  rateLimitedSecs : Option Nat
  resumedFromToken : Bool
  deriving DecidableEq, Repr

namespace SyncHealth

def initializing (resumedFromToken : Bool) : SyncHealth where
  state := .initializing
  totalSyncs := 0
  consecutiveFailures := 0
  lastSuccessUnix := none
  lastError := none
  rateLimitedSecs := none
  resumedFromToken

def recordSuccess (health : SyncHealth) (now : Nat) : SyncHealth :=
  { health with
    state := .healthy
    totalSyncs := min (health.totalSyncs + 1) u64Max
    consecutiveFailures := 0
    lastSuccessUnix := some now
    lastError := none
    rateLimitedSecs := none }

def recordFailure (health : SyncHealth) (error : String) : SyncHealth :=
  { health with
    state := .degraded
    consecutiveFailures := min (health.consecutiveFailures + 1) (2 ^ 32 - 1)
    lastError := some error
    rateLimitedSecs := none }

def recordRateLimited (health : SyncHealth) (delay : Duration) : SyncHealth :=
  { health with
    state := .degraded
    consecutiveFailures := min (health.consecutiveFailures + 1) (2 ^ 32 - 1)
    rateLimitedSecs := some (Duration.asSecs delay)
    lastError := some
      ("rate limited by homeserver; retrying in " ++ toString (Duration.asSecs delay) ++ "s") }

def recordFatal (health : SyncHealth) (error : String) : SyncHealth :=
  { health with state := .stopped, lastError := some error, rateLimitedSecs := none }

def recordStopped (health : SyncHealth) : SyncHealth := { health with state := .stopped }

end SyncHealth

/-! ## The stored token -/

inductive TokenFile where
  | missing
  | text (content : String)
  | unreadable (error : String)
  deriving DecidableEq, Repr

/-- Load the persisted token. A blank file counts as none. -/
def loadSyncToken : TokenFile → Except String (Option String)
  | .missing => .ok none
  | .text content => if isBlank content then .ok none else .ok (some (trimText content))
  | .unreadable error => .error error

/-- `save_sync_token`: the file is replaced as a whole, or left alone. -/
def saveSyncToken (file : TokenFile) (token : String) : Except String Unit → TokenFile
  | .ok () => .text token
  | .error _ => file

/-! ## The loop -/

inductive StepError where
  | transient (message : String)
  | rateLimited (retryAfter : Option Duration)
  | fatal (message : String)
  deriving DecidableEq, Repr

/-- One turn of the loop as the world decides it: the step's result and, where used, how saving the
token ends and the clock. -/
structure SyncTurn where
  result : Except StepError String
  saved : Except String Unit
  now : Nat

/-- One call of the step: its token, the file then, and the wait after it. -/
structure StepCall where
  token : Option String
  stored : TokenFile
  waited : Option Duration
  deriving DecidableEq, Repr

structure SyncLoop where
  token : Option String
  file : TokenFile
  backoff : Backoff
  health : SyncHealth
  /-- How often the `running` flag has been looked at. -/
  checks : Nat

/-- A run of the loop so far: its calls and, if it has ended, its result. -/
structure SyncRun where
  calls : List StepCall
  loop : SyncLoop
  result : Option (Except String Unit)

def sleepStep : Duration := Duration.fromMillis 50

/-- The loop of `sleep_interruptible`: the time slept and the looks at the flag. -/
def sleepFrom (running : Nat → Bool) : (turns : Nat) → Duration → (checks : Nat) → Duration × Nat
  | 0, _, checks => (0, checks)
  | turns + 1, remaining, checks =>
    if remaining = 0 then (0, checks)
    else if running checks then
      let chunk := min remaining sleepStep
      let (slept, after) := sleepFrom running turns (remaining - chunk) (checks + 1)
      (chunk + slept, after)
    else (0, checks + 1)

/-- `sleep_interruptible`. Every chunk but the last one is a whole step. -/
def sleepInterruptible (running : Nat → Bool) (delay : Duration) (checks : Nat) : Duration × Nat :=
  sleepFrom running (delay / sleepStep + 1) delay checks

/-- The body of the loop: the call, the state after it and maybe the result. -/
def syncTurn (running : Nat → Bool) (turn : SyncTurn) (loop : SyncLoop) :
    StepCall × SyncLoop × Option (Except String Unit) :=
  match turn.result with
  | .ok next =>
    let file := saveSyncToken loop.file next turn.saved
    match turn.saved with
    | .error error =>
      let health := loop.health.recordFatal ("sync token save failed: " ++ error)
      (⟨loop.token, loop.file, none⟩, { loop with file, health }, some (.error error))
    | .ok () =>
      (⟨loop.token, loop.file, none⟩,
        { loop with
          token := some next
          file
          backoff := loop.backoff.reset
          health := loop.health.recordSuccess turn.now },
        none)
  | .error (.transient message) =>
    let health := loop.health.recordFailure message
    let delay := loop.backoff.nextDelay.1
    let slept := sleepInterruptible running delay loop.checks
    (⟨loop.token, loop.file, some slept.1⟩,
      { loop with health, backoff := loop.backoff.nextDelay.2, checks := slept.2 }, none)
  | .error (.rateLimited retryAfter) =>
    let floor := loop.backoff.nextDelay.1
    let delay := retryAfter.elim floor fun after => max after floor
    let health := loop.health.recordRateLimited delay
    let slept := sleepInterruptible running delay loop.checks
    (⟨loop.token, loop.file, some slept.1⟩,
      { loop with health, backoff := loop.backoff.nextDelay.2, checks := slept.2 }, none)
  | .error (.fatal message) =>
    let health := loop.health.recordFatal message
    (⟨loop.token, loop.file, none⟩, { loop with health }, some (.ok ()))

/-- `run_sync_loop` after the token is loaded, for a number of turns. -/
def syncFrom (running : Nat → Bool) : List SyncTurn → SyncLoop → SyncRun
  | [], loop => ⟨[], loop, none⟩
  | turn :: turns, loop =>
    if running loop.checks then
      match syncTurn running turn { loop with checks := loop.checks + 1 } with
      | (call, loop, some result) => ⟨[call], loop, some result⟩
      | (call, loop, none) =>
        let run := syncFrom running turns loop
        { run with calls := call :: run.calls }
    else
      ⟨[], { loop with checks := loop.checks + 1, health := loop.health.recordStopped },
        some (.ok ())⟩

def runSyncLoop (running : Nat → Bool) (config : BackoffConfig) (file : TokenFile)
    (health : SyncHealth) (turns : List SyncTurn) : SyncRun :=
  let backoff := Backoff.new config
  match loadSyncToken file with
  | .error error =>
    let health := health.recordFatal ("sync token load failed: " ++ error)
    ⟨[], { token := none, file, backoff, health, checks := 0 }, some (.error error)⟩
  | .ok token =>
    syncFrom running turns
      { token, file, backoff, health := .initializing token.isSome, checks := 0 }

/-! ## The delays -/

/-- What the configuration promises after failure `failures`, counted from 0. -/
def BackoffConfig.delayAfter (config : BackoffConfig) (failures : Nat) : Duration :=
  Duration.fromMillis
    (min (Duration.asMillis config.base * config.factor ^ failures) (Duration.asMillis config.max))

/-- A power too large for the machine saturates, and the cap decides. -/
theorem saturatingMul_checkedPow {factor attempt power cap : Nat} (base : Nat)
    (hCap : cap ≤ u64Max)
    (hPower : factor ^ attempt = power ∨ 2 ^ 64 ≤ factor ^ attempt ∧ 2 ^ 64 ≤ power) :
    min (saturatingMul base ((checkedPow factor attempt).getD u64Max)) cap
      = min (base * power) cap := by
  have hMax : u64Max = 2 ^ 64 - 1 := rfl
  rw [saturatingMul, checkedPow]
  by_cases hFits : factor ^ attempt < 2 ^ 64
  · have hSame : factor ^ attempt = power := by omega
    rw [if_pos hFits, Option.getD_some, hSame, Nat.min_assoc, Nat.min_eq_right hCap]
  · rw [if_neg hFits, Option.getD_none]
    obtain rfl | hBase := Nat.eq_zero_or_pos base
    · simp
    · -- both products exceed the cap
      have hSaturated : u64Max ≤ base * u64Max := Nat.le_mul_of_pos_left u64Max hBase
      have hExact : power ≤ base * power := Nat.le_mul_of_pos_left power hBase
      rw [Nat.min_eq_right hSaturated, Nat.min_eq_right hCap, Nat.min_eq_right (by omega)]

/-- The counter saturates only where the power is out of range, or 1. -/
theorem pow_saturated_attempt {factor : Nat} (hFactor : 1 ≤ factor) (failures : Nat) :
    factor ^ min failures (2 ^ 32 - 1) = factor ^ failures ∨
      2 ^ 64 ≤ factor ^ min failures (2 ^ 32 - 1) ∧ 2 ^ 64 ≤ factor ^ failures := by
  by_cases hCount : failures ≤ 2 ^ 32 - 1
  · exact .inl (by rw [Nat.min_eq_left hCount])
  obtain rfl | hTwo : factor = 1 ∨ 2 ≤ factor := by omega
  · exact .inl (by rw [Nat.one_pow, Nat.one_pow])
  · have hLarge {exponent : Nat} (hExponent : 64 ≤ exponent) : 2 ^ 64 ≤ factor ^ exponent :=
      calc 2 ^ 64 ≤ factor ^ 64 := Nat.pow_le_pow_left hTwo 64
        _ ≤ factor ^ exponent := Nat.pow_le_pow_right hFactor hExponent
    exact .inr ⟨hLarge (by omega), hLarge (by omega)⟩

theorem Backoff.nextDelay_fst {backoff : Backoff} {failures : Nat}
    (hFactor : 1 ≤ backoff.config.factor)
    (hBase : Duration.asMillis backoff.config.base < 2 ^ 64)
    (hMax : Duration.asMillis backoff.config.max < 2 ^ 64)
    (hAttempt : backoff.attempt = min failures (2 ^ 32 - 1)) :
    backoff.nextDelay.1 = backoff.config.delayAfter failures := by
  have hCap : Duration.asMillis backoff.config.max ≤ u64Max := Nat.le_sub_one_of_lt hMax
  simp only [nextDelay, BackoffConfig.delayAfter]
  rw [Nat.mod_eq_of_lt hBase, Nat.mod_eq_of_lt hMax, hAttempt,
    saturatingMul_checkedPow _ hCap (pow_saturated_attempt hFactor failures)]

theorem sleepFrom_uninterrupted {running : Nat → Bool} (hRunning : ∀ check, running check)
    {turns : Nat} {remaining : Duration} (hTurns : remaining ≤ turns * sleepStep)
    (checks : Nat) : (sleepFrom running turns remaining checks).1 = remaining := by
  induction turns generalizing remaining checks with
  | zero =>
    rw [Nat.zero_mul] at hTurns
    rw [sleepFrom, Nat.le_zero.mp hTurns]
  | succ turns ih =>
    rw [sleepFrom]
    by_cases hDone : remaining = 0
    · rw [if_pos hDone, hDone]
    · rw [if_neg hDone, if_pos (hRunning checks)]
      rw [Nat.succ_mul] at hTurns
      have hRest : remaining - min remaining sleepStep ≤ turns * sleepStep := by
        obtain hLast | hMore := Nat.le_total remaining sleepStep
        · rw [Nat.min_eq_left hLast, Nat.sub_self]
          exact Nat.zero_le _
        · rw [Nat.min_eq_right hMore]
          exact Nat.sub_le_of_le_add hTurns
      simp only [ih hRest]
      exact Nat.add_sub_cancel' (Nat.min_le_left remaining sleepStep)

/-- While the flag stays set, the sleep is as long as asked for. -/
theorem sleepInterruptible_uninterrupted {running : Nat → Bool}
    (hRunning : ∀ check, running check) (delay : Duration) (checks : Nat) :
    (sleepInterruptible running delay checks).1 = delay := by
  have hSteps : delay ≤ (delay / sleepStep + 1) * sleepStep := by
    rw [Nat.mul_comm]
    exact Nat.le_of_lt (Nat.lt_mul_div_succ delay (by decide))
  exact sleepFrom_uninterrupted hRunning hSteps checks

end MxAgent.Daemon
