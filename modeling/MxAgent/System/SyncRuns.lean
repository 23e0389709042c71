import MxAgent.Daemon.Sync

/-! Whole runs of the sync loop. What a call of the step is given, what is stored at that moment
and how long the loop waits afterwards are functions of the results that came before: the last
token, and the number of failures since. -/
namespace MxAgent.System.SyncRuns

open Daemon Whitespace

def okToken (turn : SyncTurn) : Option String :=
  match turn.result with
  | .ok token => some token
  | .error _ => none

def lastOk (history : List SyncTurn) : Option String :=
  (history.filterMap okToken).getLast?

def failuresSinceOk (history : List SyncTurn) : Nat :=
  (history.reverse.takeWhile fun turn => (okToken turn).isNone).length

def waitAfter (config : BackoffConfig) (failures : Nat) : Except StepError String → Option Duration
  | .ok _ => none
  | .error (.transient _) => some (config.delayAfter failures)
  | .error (.rateLimited none) => some (config.delayAfter failures)
  | .error (.rateLimited (some retryAfter)) => some (max retryAfter (config.delayAfter failures))
  | .error (.fatal _) => none

def stops (turn : SyncTurn) : Bool :=
  match turn.result, turn.saved with
  | .ok _, .error _ => true
  | .error (.fatal _), _ => true
  | _, _ => false

theorem lastOk_snoc (history : List SyncTurn) (turn : SyncTurn) :
    lastOk (history ++ [turn]) = (okToken turn).or (lastOk history) := by
  cases hToken : okToken turn <;> simp [lastOk, hToken]

theorem failuresSinceOk_snoc (history : List SyncTurn) (turn : SyncTurn) :
    failuresSinceOk (history ++ [turn])
      = if (okToken turn).isNone then failuresSinceOk history + 1 else 0 := by
  cases hToken : okToken turn <;> simp [failuresSinceOk, hToken]

/-! ## The invariant -/

/-- The state of the loop as its history determines it. The backoff counter is a machine word. -/
structure Tracks (config : BackoffConfig) (file : TokenFile) (loaded : Option String)
    (history : List SyncTurn) (loop : SyncLoop) : Prop where
  token : loop.token = (lastOk history).or loaded
  stored : loop.file = ((lastOk history).map TokenFile.text).getD file
  config : loop.backoff.config = config
  attempt : loop.backoff.attempt = min (failuresSinceOk history) (2 ^ 32 - 1)

def expectedCall (config : BackoffConfig) (file : TokenFile) (loaded : Option String)
    (history : List SyncTurn) (turn : SyncTurn) : StepCall where
  token := (lastOk history).or loaded
  stored := ((lastOk history).map TokenFile.text).getD file
  waited := waitAfter config (failuresSinceOk history) turn.result

variable {turn : SyncTurn}

section Runs

variable {config : BackoffConfig} {file : TokenFile} {loaded : Option String}
  {history : List SyncTurn} {loop : SyncLoop} {running : Nat → Bool}

theorem Tracks.initial (health : SyncHealth) :
    Tracks config file loaded [] ⟨loaded, file, .new config, health, 0⟩ :=
  ⟨rfl, rfl, rfl, rfl⟩

theorem Tracks.checked (hTracks : Tracks config file loaded history loop) (checks : Nat) :
    Tracks config file loaded history { loop with checks } :=
  ⟨hTracks.token, hTracks.stored, hTracks.config, hTracks.attempt⟩

theorem Tracks.nextDelay (hTracks : Tracks config file loaded history loop)
    (hFactor : 1 ≤ config.factor) (hBase : Duration.asMillis config.base < 2 ^ 64)
    (hMax : Duration.asMillis config.max < 2 ^ 64) :
    loop.backoff.nextDelay.1 = config.delayAfter (failuresSinceOk history) := by
  obtain ⟨-, -, rfl, hAttempt⟩ := hTracks
  exact Backoff.nextDelay_fst hFactor hBase hMax hAttempt

/-- A stored token is the last one, and the backoff starts over. -/
theorem Tracks.succeeded (hTracks : Tracks config file loaded history loop) {token : String}
    (hResult : turn.result = .ok token) (health : SyncHealth) :
    Tracks config file loaded (history ++ [turn])
      { loop with
        token := some token, file := .text token, backoff := loop.backoff.reset, health } := by
  have hToken : okToken turn = some token := by rw [okToken, hResult]
  refine ⟨?_, ?_, hTracks.config, ?_⟩
  · simp [lastOk_snoc, hToken]
  · simp [lastOk_snoc, hToken]
  · simp [failuresSinceOk_snoc, hToken, Backoff.reset]

/-- A failure moves the backoff on and leaves the token alone. -/
theorem Tracks.failed (hTracks : Tracks config file loaded history loop) {error : StepError}
    (hResult : turn.result = .error error) (health : SyncHealth) (checks : Nat) :
    Tracks config file loaded (history ++ [turn])
      { loop with backoff := loop.backoff.nextDelay.2, health, checks } := by
  have hToken : okToken turn = none := by rw [okToken, hResult]
  refine ⟨?_, ?_, hTracks.config, ?_⟩
  · simp [lastOk_snoc, hToken, hTracks.token]
  · simp [lastOk_snoc, hToken, hTracks.stored]
  · simp only [failuresSinceOk_snoc, hToken, Backoff.nextDelay, hTracks.attempt, Option.isNone_none,
      if_true]
    omega

variable (hFactor : 1 ≤ config.factor) (hBase : Duration.asMillis config.base < 2 ^ 64)
  (hMax : Duration.asMillis config.max < 2 ^ 64) (hRunning : ∀ check, running check)

include hFactor hBase hMax hRunning

/-- One turn: the call is the expected one, and the loop ends on a turn that stops it, or the
history grows. -/
theorem syncTurn_spec (hTracks : Tracks config file loaded history loop) (turn : SyncTurn) :
    (syncTurn running turn loop).1 = expectedCall config file loaded history turn ∧
      (syncTurn running turn loop).2.2.isSome = stops turn ∧
      (stops turn = false →
        Tracks config file loaded (history ++ [turn]) (syncTurn running turn loop).2.1) := by
  have hDelay := hTracks.nextDelay hFactor hBase hMax
  have hSlept := sleepInterruptible_uninterrupted hRunning
  obtain ⟨result, saved, now⟩ := turn
  rcases result with (message | retryAfter | message) | token
  case ok =>
    cases saved with
    | error error =>
      refine ⟨?_, rfl, fun hStops => nomatch hStops⟩
      simp [syncTurn, expectedCall, waitAfter, hTracks.token, hTracks.stored]
    | ok =>
      refine ⟨?_, rfl, fun _ => hTracks.succeeded rfl _⟩
      simp [syncTurn, expectedCall, waitAfter, hTracks.token, hTracks.stored]
  case error.transient =>
    refine ⟨?_, rfl, fun _ => hTracks.failed rfl _ _⟩
    simp [syncTurn, expectedCall, waitAfter, hTracks.token, hTracks.stored, hSlept, hDelay]
  case error.rateLimited =>
    refine ⟨?_, rfl, fun _ => hTracks.failed rfl _ _⟩
    cases retryAfter with
    | none =>
      simp [syncTurn, expectedCall, waitAfter, hTracks.token, hTracks.stored, hSlept, hDelay]
    | some retryAfter =>
      simp [syncTurn, expectedCall, waitAfter, hTracks.token, hTracks.stored, hSlept, hDelay]
  case error.fatal =>
    refine ⟨?_, rfl, fun hStops => nomatch hStops⟩
    simp [syncTurn, expectedCall, waitAfter, hTracks.token, hTracks.stored]

theorem syncFrom_calls_cons (hTracks : Tracks config file loaded history loop) (turn : SyncTurn)
    (turns : List SyncTurn) :
    ∃ rest, (syncFrom running (turn :: turns) loop).calls
        = expectedCall config file loaded history turn :: rest ∧
      (stops turn → rest = []) ∧
      (stops turn = false → ∃ next, Tracks config file loaded (history ++ [turn]) next ∧
        rest = (syncFrom running turns next).calls) := by
  obtain ⟨hCall, hEnded, hNext⟩ :=
    syncTurn_spec hFactor hBase hMax hRunning (hTracks.checked (loop.checks + 1)) turn
  rw [syncFrom, if_pos (hRunning loop.checks)]
  rcases hTurn : syncTurn running turn { loop with checks := loop.checks + 1 }
    with ⟨call, next, _ | result⟩ <;> rw [hTurn] at hCall hEnded hNext
  · refine ⟨(syncFrom running turns next).calls, by rw [← hCall], fun hStops => ?_, fun hGoes => ?_⟩
    · rw [hStops] at hEnded
      cases hEnded
    · exact ⟨next, hNext hGoes, rfl⟩
  · refine ⟨[], by rw [← hCall], fun _ => rfl, fun hGoes => ?_⟩
    rw [hGoes] at hEnded
    cases hEnded

theorem syncFrom_made_iff (hTracks : Tracks config file loaded history loop) (turns : List SyncTurn)
    (index : Nat) :
    index < (syncFrom running turns loop).calls.length ↔
      index < turns.length ∧ ∀ turn ∈ turns.take index, stops turn = false := by
  induction turns generalizing history loop index with
  | nil => simp [syncFrom]
  | cons turn turns ih =>
    obtain ⟨rest, hCalls, hEnds, hGoesOn⟩ :=
      syncFrom_calls_cons hFactor hBase hMax hRunning hTracks turn turns
    rw [hCalls]
    cases index with
    | zero => simp
    | succ index =>
      cases hStops : stops turn with
      | true => simp [hEnds hStops, hStops]
      | false =>
        obtain ⟨next, hNext, rfl⟩ := hGoesOn hStops
        simp [ih hNext index, hStops]

theorem syncFrom_call (hTracks : Tracks config file loaded history loop) {turns : List SyncTurn}
    {index : Nat} {call : StepCall}
    (hCall : (syncFrom running turns loop).calls[index]? = some call)
    (hTurn : turns[index]? = some turn) :
    call = expectedCall config file loaded (history ++ turns.take index) turn := by
  induction turns generalizing history loop index with
  | nil => simp at hTurn
  | cons first turns ih =>
    obtain ⟨rest, hCalls, hEnds, hGoesOn⟩ :=
      syncFrom_calls_cons hFactor hBase hMax hRunning hTracks first turns
    rw [hCalls] at hCall
    cases index with
    | zero =>
      simp only [List.getElem?_cons_zero, Option.some.injEq] at hCall hTurn
      rw [← hCall, hTurn, List.take_zero, List.append_nil]
    | succ index =>
      simp only [List.getElem?_cons_succ] at hCall hTurn
      cases hStops : stops first with
      | true => simp [hEnds hStops] at hCall
      | false =>
        obtain ⟨next, hNext, rfl⟩ := hGoesOn hStops
        rw [ih hNext hCall hTurn, List.take_succ_cons, List.append_assoc, List.singleton_append]

end Runs

/-! ## The discipline -/

/-- While the flag stays set: every call is given the last token, which is then stored; the wait
after a failure is the promised one; and the calls go on to the first turn that stops the loop. -/
theorem syncLoop_disciplined {config : BackoffConfig} (hFactor : 1 ≤ config.factor)
    (hBase : Duration.asMillis config.base < 2 ^ 64)
    (hMax : Duration.asMillis config.max < 2 ^ 64) {running : Nat → Bool}
    (hRunning : ∀ check, running check) {file : TokenFile} {loaded : Option String}
    (hLoaded : loadSyncToken file = .ok loaded) (health : SyncHealth) (turns : List SyncTurn) :
    (∀ index call turn,
      (runSyncLoop running config file health turns).calls[index]? = some call →
      turns[index]? = some turn →
        call.token = (lastOk (turns.take index)).or loaded ∧
        call.stored = ((lastOk (turns.take index)).map TokenFile.text).getD file ∧
        call.waited = waitAfter config (failuresSinceOk (turns.take index)) turn.result) ∧
    (∀ index, index < (runSyncLoop running config file health turns).calls.length ↔
      index < turns.length ∧ ∀ turn ∈ turns.take index, stops turn = false) := by
  simp only [runSyncLoop, hLoaded]
  have hStart : Tracks config file loaded [] ⟨loaded, file, .new config, _, 0⟩ :=
    Tracks.initial (.initializing loaded.isSome)
  constructor
  · intro index call turn hCall hTurn
    rw [syncFrom_call hFactor hBase hMax hRunning hStart hCall hTurn, List.nil_append]
    exact ⟨rfl, rfl, rfl⟩
  · exact syncFrom_made_iff hFactor hBase hMax hRunning hStart turns

def flakyTurns : List SyncTurn :=
  [⟨.error (.transient "connection reset"), .ok (), 0⟩,
    ⟨.error (.rateLimited (some (Duration.fromMillis 5000))), .ok (), 0⟩,
    ⟨.ok "s1", .ok (), 1700000000⟩,
    ⟨.error (.transient "connection reset"), .ok (), 0⟩]

def secondToMinute : BackoffConfig where
  base := Duration.fromMillis 1000
  max := Duration.fromMillis 60000
  factor := 2

theorem flakyTurns_disciplined :
    ∃ call, (runSyncLoop (fun _ => true) secondToMinute (.text "s0\n") (.initializing false)
        flakyTurns).calls[3]? = some call ∧
      call.token = some "s1" ∧ call.stored = .text "s1" ∧
      call.waited = some (Duration.fromMillis 1000) := by
  have hLoaded : loadSyncToken (.text "s0\n") = .ok (some "s0") := by decide +kernel
  obtain ⟨hCalls, hMade⟩ := @syncLoop_disciplined secondToMinute (by decide) (by decide)
    (by decide) (fun _ => true) (fun _ => rfl) _ _ hLoaded (.initializing false) flakyTurns
  have hThird := (hMade 3).mpr (by decide +kernel)
  obtain ⟨hToken, hStored, hWaited⟩ :=
    hCalls 3 _ _ (List.getElem?_eq_getElem hThird) (List.getElem?_eq_getElem (by decide))
  refine ⟨_, List.getElem?_eq_getElem hThird, hToken.trans ?_, hStored.trans ?_, hWaited.trans ?_⟩
  · decide +kernel
  · decide +kernel
  · decide +kernel

/-! ## Restarts -/

/-- A restart would resume from the token the loop has. -/
def Resumable (file : TokenFile) (token : Option String) : Prop := loadSyncToken file = .ok token

/-- The token is what is left of it when it is stored and read back. -/
def Storable (token : String) : Prop := isBlank token = false ∧ trimText token = token

theorem resumable_syncTurn (running : Nat → Bool) (loop : SyncLoop) {turn : SyncTurn}
    (hTurn : ∀ token, turn.result = .ok token → Storable token)
    (h : Resumable loop.file loop.token) :
    Resumable (syncTurn running turn loop).1.stored (syncTurn running turn loop).1.token ∧
      Resumable (syncTurn running turn loop).2.1.file (syncTurn running turn loop).2.1.token := by
  rcases hResult : turn.result with (message | retryAfter | message) | token
  · simp only [syncTurn, hResult]
    exact ⟨h, h⟩
  · simp only [syncTurn, hResult]
    exact ⟨h, h⟩
  · simp only [syncTurn, hResult]
    exact ⟨h, h⟩
  · obtain ⟨hText, hSame⟩ := hTurn token hResult
    rcases hSaved : turn.saved with error | done
    · simp only [syncTurn, hResult, hSaved]
      exact ⟨h, h⟩
    · simp only [syncTurn, hResult, hSaved]
      exact ⟨h, by simp [Resumable, saveSyncToken, loadSyncToken, hText, hSame]⟩

theorem resumable_syncFrom {running : Nat → Bool} {turns : List SyncTurn} {loop : SyncLoop}
    (hTurns : ∀ turn ∈ turns, ∀ token, turn.result = .ok token → Storable token)
    (h : Resumable loop.file loop.token) :
    (∀ call ∈ (syncFrom running turns loop).calls, Resumable call.stored call.token) ∧
      Resumable (syncFrom running turns loop).loop.file
        (syncFrom running turns loop).loop.token := by
  induction turns generalizing loop with
  | nil => exact ⟨by simp [syncFrom], h⟩
  | cons turn turns ih =>
    rw [List.forall_mem_cons] at hTurns
    rw [syncFrom]
    split
    · obtain ⟨hCall, hNext⟩ :=
        resumable_syncTurn running { loop with checks := loop.checks + 1 } hTurns.1 h
      rcases hTurn : syncTurn running turn { loop with checks := loop.checks + 1 }
        with ⟨call, next, _ | result⟩ <;> rw [hTurn] at hCall hNext
      · obtain ⟨hCalls, hEnd⟩ := ih hTurns.2 hNext
        exact ⟨List.forall_mem_cons.mpr ⟨hCall, hCalls⟩, hEnd⟩
      · exact ⟨by simpa using hCall, hNext⟩
    · exact ⟨by simp, h⟩

/-- A daemon stopped at any call of the step, or after the loop, resumes from the token it had,
whatever the steps and saves came to and whenever the flag was cleared. A token is read back
trimmed, so it must have no space around it. -/
theorem restart_resumes (running : Nat → Bool) (config : BackoffConfig) {file : TokenFile}
    {loaded : Option String} (hLoaded : loadSyncToken file = .ok loaded) (health : SyncHealth)
    (turns : List SyncTurn)
    (hTurns : ∀ turn ∈ turns, ∀ token, turn.result = .ok token → Storable token) :
    (∀ call ∈ (runSyncLoop running config file health turns).calls,
      Resumable call.stored call.token) ∧
      Resumable (runSyncLoop running config file health turns).loop.file
        (runSyncLoop running config file health turns).loop.token := by
  simp only [runSyncLoop, hLoaded]
  exact resumable_syncFrom hTurns hLoaded

theorem flakyTurns_resume :
    (runSyncLoop (fun _ => true) secondToMinute (.text "s0\n") (.initializing false)
        flakyTurns).loop.file = .text "s1" ∧
      ∀ call ∈ (runSyncLoop (fun _ => true) secondToMinute (.text "s0\n") (.initializing false)
        flakyTurns).calls, Resumable call.stored call.token := by
  have hLoaded : loadSyncToken (.text "s0\n") = .ok (some "s0") := by decide +kernel
  have hStored : Storable "s1" := ⟨by decide +kernel, by decide +kernel⟩
  refine ⟨by decide +kernel, (restart_resumes _ _ hLoaded _ flakyTurns ?_).1⟩
  simp [flakyTurns, hStored]

end MxAgent.System.SyncRuns
