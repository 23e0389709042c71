import MxAgent.Adw.Orchestrator

/-! What the parts of a delivery run can do. All but three of them are quiet: they neither look
for a pull request, nor merge one, nor read a state file, and none forgets a phase that is done.
The loops end once they have as many turns as their limits allow. -/
namespace MxAgent.System.DriverRuns

open Protocol Adw EffectLog EffectLog.Program

/-- The effects that the merge gate goes by. -/
def Telling : Effect → Prop
  | .readState _ | .prForBranch .. | .createPr .. | .squashMerge .. => True
  | _ => False

def Quiet : LogEntry → Prop
  | .called effect _ => ¬ Telling effect
  | .marked _ => True

variable {endless : Prop} {ctx : Context} {turns : Nat}

theorem emits_act {effect : Effect} (h : ¬ Telling effect) :
    Emits Quiet endless (Adw.perform effect) fun _ => True :=
  emits_perform fun _ => h

theorem emits_ensure {condition : Bool} {message : String} :
    Emits Quiet endless (ensure condition message) fun _ => condition := by
  cases condition with
  | true => exact emits_pure rfl
  | false => exact emits_throw

theorem emits_progress {phase : String} :
    Emits Quiet endless (progress ctx phase) fun _ => True := by
  unfold progress
  split
  · exact emits_pure trivial
  · exact emits_act id

variable {phase : AgentPhase} {s : PhaseState} {state : AdwState} {attempt issue : Nat} {gh : Gh}
  {opts : ResolvedOptions}

theorem emits_save : Emits Quiet endless (save state) fun _ => True :=
  (emits_act id).ignoringErrors

theorem emits_report {phase : String} {result : Bool} :
    Emits Quiet endless (do progress ctx phase; pure result) fun _ => True :=
  emits_progress.bind fun _ _ => emits_pure trivial

/-! ## Turns -/

/-- A loop limited in its attempts can go on for its turns. -/
def Suffices (limit : JsNumber) (turns attempt : Nat) : Prop :=
  ∃ bound, limit.le (.ofNat bound) ∧ attempt ≤ bound ∧ bound < turns + attempt

theorem not_suffices_zero {limit : JsNumber} : ¬ Suffices limit 0 attempt := by
  rintro ⟨bound, -, hAttempt, hTurns⟩
  omega

/-- A turn that is taken leaves enough turns. -/
theorem Suffices.next {limit : JsNumber} (h : Suffices limit (turns + 1) attempt)
    (hOn : limit.le (.ofNat attempt) = false) : Suffices limit turns (attempt + 1) := by
  obtain ⟨bound, hLimit, hAttempt, hTurns⟩ := h
  have hNe : attempt ≠ bound := by
    rintro rfl
    exact Bool.false_ne_true (hOn.symm.trans hLimit)
  exact ⟨bound, hLimit, by omega, by omega⟩

/-- The loop over test failures ends, or may be endless. -/
theorem emits_resolveLoop {testCmd : String}
    (h : endless ∨ Suffices ctx.opts.maxResolve turns attempt) :
    Emits Quiet endless (resolveLoop ctx testCmd turns attempt) fun _ => True := by
  induction turns generalizing attempt with
  | zero => exact emits_outOfTurns (h.resolve_right not_suffices_zero)
  | succ turns ih =>
    refine (emits_act id).bind fun rc _ => ?_
    split
    · exact emits_report
    split
    · exact emits_report
    rename_i hOn
    refine emits_progress.bind fun _ _ => (emits_act id).bind fun outcome _ => ?_
    split
    · exact emits_report
    exact ih (h.imp_right fun hTurns => hTurns.next (Bool.eq_false_iff.mpr hOn))

theorem emits_patchFrom {remaining : JsNumber}
    (h : endless ∨ Suffices ctx.opts.maxPatch turns attempt) :
    Emits Quiet endless (patchFrom ctx turns attempt remaining) fun _ => True := by
  induction turns generalizing attempt remaining with
  | zero => exact emits_outOfTurns (h.resolve_right not_suffices_zero)
  | succ turns ih =>
    unfold patchFrom
    split
    · rename_i hOn
      refine emits_progress.bind fun _ _ => (emits_act id).bind fun outcome _ => ?_
      split
      · exact emits_pure trivial
      have hLimit := JsNumber.le_ofNat_eq_false (Bool.and_eq_true_iff.mp hOn).2
      exact ih (h.imp_right fun hTurns => hTurns.next hLimit)
    · exact emits_pure trivial

theorem emits_patchBlockers {blockers : List ReviewFinding}
    (h : endless ∨ Suffices ctx.opts.maxPatch turns 0) :
    Emits Quiet endless (patchBlockers ctx turns blockers) fun _ => True := by
  unfold patchBlockers
  split
  · exact emits_report
  · exact (emits_patchFrom h).bind fun _ _ => emits_pure trivial

theorem emits_patchLoop {findings : List ReviewFinding}
    (h : endless ∨ Suffices ctx.opts.maxPatch turns 0) :
    Emits Quiet endless (patchLoop ctx turns findings) fun _ => True := by
  unfold patchLoop
  extract_lets blockers
  split
  · exact emits_progress.bind fun _ _ => emits_patchBlockers h
  · exact emits_patchBlockers h

/-- The budgets left to the watch over the checks add up to fewer turns than it has. Every fix
allows all the polls again. -/
structure CiRoom (fixes polls turns : Nat) (counters : CiCounters) : Prop where
  attempt_le : counters.attempt ≤ fixes
  polls_le : counters.polls ≤ polls
  nones_le : counters.nonePolls ≤ noChecksSettlePolls
  turns_lt : (fixes - counters.attempt) * (polls + 1) + (polls - counters.polls) +
    (noChecksSettlePolls - counters.nonePolls) < turns

namespace CiRoom

variable {fixes polls : Nat} {counters : CiCounters} {limit : JsNumber}

theorem attempt_lt (h : CiRoom fixes polls turns counters)
    (hLimit : limit.le (.ofNat fixes))
    (hOn : ¬ limit.le (.ofNat counters.attempt)) : counters.attempt < fixes := by
  refine Nat.lt_of_le_of_ne h.attempt_le fun hSame => ?_
  rw [hSame] at hOn
  exact hOn hLimit

variable (h : CiRoom fixes polls (turns + 1) counters)

include h

theorem next_none (hOn : ¬ noChecksSettlePolls < counters.nonePolls + 1) :
    CiRoom fixes polls turns { counters with nonePolls := counters.nonePolls + 1 } := by
  obtain ⟨hAttempt, hPoll, hNone, hTurns⟩ := h
  exact ⟨hAttempt, hPoll, by simp only; omega, by simp only; omega⟩

theorem next_pending (hLimit : limit.le (.ofNat polls))
    (hOn : ¬ limit.lt (.ofNat (counters.polls + 1))) :
    CiRoom fixes polls turns { counters with polls := counters.polls + 1 } := by
  obtain ⟨hAttempt, hPoll, hNone, hTurns⟩ := h
  have hBelow : counters.polls + 1 ≤ polls := by
    by_contra hAbove
    exact hOn (JsNumber.lt_ofNat_of_le hLimit (Nat.lt_of_not_le hAbove))
  exact ⟨hAttempt, hBelow, hNone, by simp only; omega⟩

/-- A fix uses one attempt. The polls it frees are those of the attempt. -/
theorem next_fix (hOn : counters.attempt < fixes) {later : CiCounters}
    (hAttempt : later.attempt = counters.attempt + 1) (hPolls : later.polls ≤ counters.polls)
    (hNone : later.nonePolls = counters.nonePolls) : CiRoom fixes polls turns later := by
  obtain ⟨-, hPoll, hSettle, hTurns⟩ := h
  obtain ⟨left, hLeft⟩ : ∃ left, fixes - counters.attempt = left + 1 :=
    ⟨fixes - counters.attempt - 1, by omega⟩
  have hAfter : fixes - later.attempt = left := by omega
  refine ⟨by omega, by omega, by omega, ?_⟩
  rw [hLeft, Nat.add_mul, Nat.one_mul] at hTurns
  rw [hAfter, hNone]
  omega

end CiRoom

/-- The watch over the checks can go on for as many turns as it has. -/
def CiSuffices (opts : ResolvedOptions) (turns : Nat) (counters : CiCounters) : Prop :=
  ∃ fixes polls, opts.maxCiFix.le (.ofNat fixes) ∧
    opts.ciMaxPolls.le (.ofNat polls) ∧ CiRoom fixes polls turns counters

theorem CiSuffices.next {opts : ResolvedOptions} {counters later : CiCounters}
    (h : CiSuffices opts (turns + 1) counters)
    (hNext : ∀ fixes polls, opts.maxCiFix.le (.ofNat fixes) →
      opts.ciMaxPolls.le (.ofNat polls) → CiRoom fixes polls (turns + 1) counters →
        CiRoom fixes polls turns later) : CiSuffices opts turns later := by
  obtain ⟨fixes, polls, hFixes, hPolls, hRoom⟩ := h
  exact ⟨fixes, polls, hFixes, hPolls, hNext fixes polls hFixes hPolls hRoom⟩

theorem emits_pollSleep : Emits Quiet endless (pollSleep ctx) fun _ => True := by
  unfold pollSleep
  split
  · exact emits_act id
  · exact emits_pure trivial

/-- The watch over the checks ends while there is room for its counters. -/
theorem emits_ciFixFrom {branch : String} {pr : Number} {counters : CiCounters}
    (h : endless ∨ CiSuffices ctx.opts turns counters) :
    Emits Quiet endless (ciFixFrom ctx gh branch pr turns counters) fun _ => True := by
  induction turns generalizing counters with
  | zero =>
    refine emits_outOfTurns (h.resolve_right ?_)
    rintro ⟨fixes, polls, -, -, hRoom⟩
    exact absurd hRoom.turns_lt (Nat.not_lt_zero _)
  | succ turns ih =>
    refine (emits_act id).bind fun status _ => ?_
    split
    · exact emits_report
    · split
      · exact emits_report
      · rename_i hOn
        exact emits_pollSleep.bind fun _ _ => ih (h.imp_right fun hTurns =>
          hTurns.next fun _ _ _ _ hRoom => hRoom.next_none hOn)
    · exact emits_report
    · split
      · exact emits_report
      · rename_i hOn
        exact emits_pollSleep.bind fun _ _ => ih (h.imp_right fun hTurns =>
          hTurns.next fun _ _ _ hPolls hRoom => hRoom.next_pending hPolls hOn)
    · split
      · exact emits_report
      rename_i hOn
      refine emits_progress.bind fun _ _ => (emits_act id).bind fun outcome _ => ?_
      split
      · exact emits_report
      refine (emits_act id).bind fun dirty _ => ?_
      split
      · exact emits_report
      refine (emits_act id).bind fun committed _ => ?_
      split
      · exact (emits_act id).bind fun _ _ =>
          ih (h.imp_right fun hTurns => hTurns.next fun _ _ hFixes _ hRoom =>
            hRoom.next_fix (hRoom.attempt_lt hFixes hOn) rfl (Nat.zero_le _) rfl)
      · exact ih (h.imp_right fun hTurns => hTurns.next fun _ _ hFixes _ hRoom =>
          hRoom.next_fix (hRoom.attempt_lt hFixes hOn) rfl le_rfl rfl)

theorem emits_ciFixLoop {branch : String} {pr : Number}
    (h : endless ∨ CiSuffices ctx.opts turns ⟨0, 0, 0⟩) :
    Emits Quiet endless (ciFixLoop ctx gh branch turns pr) fun _ => True :=
  (emits_ciFixFrom h).bind fun _ _ => (emits_mark trivial).bind fun _ _ => emits_pure trivial

/-! ## The phases -/

theorem completedPhases_subset_markDone {phase : String} :
    state.completedPhases ⊆ (state.markDone phase).completedPhases := by
  unfold AdwState.markDone
  split
  · exact List.Subset.refl _
  · exact List.subset_append_left _ _

theorem emits_absorbAuthoredText :
    Emits Quiet endless (absorbAuthoredText state)
      fun later => later.completedPhases = state.completedPhases :=
  (emits_act id).bind fun _ _ => (emits_act id).bind fun _ _ => emits_pure rfl

theorem applyResult_completedPhases (state : AdwState) (phase : AgentPhase) (data : PhaseData) :
    (applyResult state phase data).completedPhases = state.completedPhases := by
  cases phase <;> rfl

theorem emits_finishPhase :
    Emits Quiet endless (finishPhase phase s)
      fun later => s.state.completedPhases ⊆ later.state.completedPhases :=
  emits_save.bind fun _ _ => emits_pure completedPhases_subset_markDone

theorem emits_absorbResult {data : PhaseData} :
    Emits Quiet endless (absorbResult phase data s)
      fun later => later.state.completedPhases = s.state.completedPhases := by
  have hApply := applyResult_completedPhases s.state phase data
  cases phase with
  | review =>
    exact emits_absorbAuthoredText.bind fun later hLater => emits_pure (hLater.trans hApply)
  | document =>
    exact emits_absorbAuthoredText.bind fun later hLater => emits_pure (hLater.trans hApply)
  | _ => exact emits_pure hApply

theorem emits_agentPhase :
    Emits Quiet endless (do
        let data ← Adw.perform (.runAgentPhase phase)
        let s ← absorbResult phase data s
        let s ← finishPhase phase s
        progress ctx phase.name
        pure s)
      fun later => s.state.completedPhases ⊆ later.state.completedPhases := by
  refine (emits_act id).bind fun data _ => emits_absorbResult.bind fun middle hMiddle => ?_
  refine emits_finishPhase.bind fun later hLater => emits_progress.bind fun _ _ => ?_
  exact emits_pure (hMiddle ▸ hLater)

/-- There are turns enough for every loop of a run. -/
structure Enough (opts : ResolvedOptions) (turns : Nat) : Prop where
  resolve : Suffices opts.maxResolve turns 0
  patch : Suffices opts.maxPatch turns 0
  ciFix : CiSuffices opts turns ⟨0, 0, 0⟩

/-- A phase runs quietly and keeps what was completed. -/
theorem emits_runPhase (h : endless ∨ Enough ctx.opts turns) :
    Emits Quiet endless (runPhase ctx turns phase s)
      fun later => s.state.completedPhases ⊆ later.state.completedPhases := by
  unfold runPhase
  split
  · exact emits_pure (List.Subset.refl _)
  split
  · exact emits_progress.bind fun _ _ => emits_finishPhase
  split
  · exact (emits_resolveLoop (h.imp_right Enough.resolve)).bind fun _ _ => emits_finishPhase
  · exact (emits_patchLoop (h.imp_right Enough.patch)).bind fun _ _ => emits_finishPhase
  · split
    · exact emits_agentPhase
    · refine (emits_act id).bind fun _ _ => (emits_act id).bind fun issueClass _ => ?_
      refine (emits_act id).bind fun _ _ => emits_finishPhase.bind fun later hLater => ?_
      exact emits_progress.bind fun _ _ => emits_pure hLater
  · exact emits_agentPhase

/-- The phases run quietly, one after another. -/
theorem emits_runPhases {phases : List AgentPhase} (h : endless ∨ Enough ctx.opts turns) :
    Emits Quiet endless (runPhases ctx turns phases s)
      fun later => s.state.completedPhases ⊆ later.state.completedPhases := by
  induction phases generalizing s with
  | nil => exact emits_pure (List.Subset.refl _)
  | cons phase rest ih =>
    refine (emits_runPhase h).bind fun middle hMiddle => ?_
    exact ih.mono (fun _ => id) fun later hLater => List.Subset.trans hMiddle hLater

theorem emits_setup {issueContext : IssueContext} :
    Emits Quiet endless (setup ctx issueContext state)
      fun later => later.completedPhases = state.completedPhases := by
  refine (emits_act id).bind fun switched _ => emits_ensure.bind fun _ _ => ?_
  refine emits_progress.bind fun _ _ => ?_
  split
  · exact emits_pure rfl
  · refine (emits_act id).bind fun _ _ => ?_
    extract_lets owner
    split
    · exact (emits_act id).ignoringErrors.bind fun _ _ => emits_pure rfl
    · exact emits_pure rfl

theorem emits_checkTree {resumed : Bool} :
    Emits Quiet endless (checkTree ctx resumed) fun _ => True := by
  unfold checkTree
  split
  · exact (emits_act id).bind fun _ _ => emits_ensure.mono (fun _ => id) fun _ _ => trivial
  · exact emits_pure trivial

theorem emits_setupOnce {issueContext : IssueContext} :
    Emits Quiet endless (setupOnce ctx issueContext state)
      fun later => state.completedPhases ⊆ later.completedPhases := by
  unfold setupOnce
  split
  · exact emits_pure (List.Subset.refl _)
  · refine emits_setup.bind fun later hLater => emits_save.bind fun _ _ => emits_pure ?_
    exact hLater ▸ completedPhases_subset_markDone

theorem emits_prepare {resumed : Bool} :
    Emits Quiet endless (prepare ctx state resumed)
      fun s => state.completedPhases ⊆ s.state.completedPhases := by
  refine emits_checkTree.bind fun _ _ => emits_progress.bind fun _ _ => ?_
  refine (emits_act id).bind fun _ _ => emits_setupOnce.bind fun later hLater => ?_
  exact (emits_act id).bind fun _ _ => (emits_act id).bind fun _ _ => emits_pure hLater

/-! ## The start of a run -/

theorem emits_findRepo {ghBin : Option String} :
    Emits Quiet endless (findRepo opts ghBin) fun _ => True := by
  unfold findRepo
  split
  · exact emits_pure trivial
  · exact emits_act id

theorem emits_preflight {ghBin : Option String}
    {repo : String} : Emits Quiet endless (preflight opts ghBin repo issue) fun _ => True := by
  unfold preflight
  split
  · split
    · exact emits_ensure.bind fun _ _ => emits_pure trivial
    · refine (emits_act id).bind fun issueState _ => ?_
      split
      · exact emits_pure trivial
      · exact emits_ensure.bind fun _ _ => emits_pure trivial
  · exact emits_pure trivial

theorem emits_startState {adwId : String} {valid : isAdwId adwId = true} :
    Emits Quiet endless (startState opts issue adwId valid) fun _ => True :=
  emits_save.bind fun _ _ => emits_pure trivial

theorem emits_resumeState {adwId : String} :
    Emits Quiet endless (resumeState opts issue adwId state)
      fun result => state.completedPhases ⊆ result.1.completedPhases :=
  emits_ensure.bind fun _ _ => emits_ensure.bind fun _ _ => emits_save.bind fun _ _ =>
    emits_pure (List.Subset.refl _)

/-! ## The end of a run -/

theorem emits_reportMerged : Emits Quiet endless (reportMerged ctx) fun _ => True := by
  refine emits_progress.bind fun _ _ => ?_
  split
  · split
    · exact (emits_act id).bind fun _ _ => emits_ensure.bind fun _ _ => emits_pure trivial
    · exact emits_pure trivial
  · exact emits_pure trivial

theorem emits_runGates {gates : List String} :
    Emits Quiet endless (runGates ctx gates) fun _ => True := by
  induction gates with
  | nil => exact emits_progress
  | cons gate rest ih =>
    refine (emits_act id).bind fun rc _ => ?_
    split
    · exact ih
    · exact emits_progress.bind fun _ _ => emits_throw

theorem emits_commitAndPush : Emits Quiet endless (commitAndPush ctx state) fun _ => True := by
  refine (emits_act id).bind fun _ _ => emits_ensure.bind fun _ _ => ?_
  refine (emits_act id).bind fun _ _ => emits_ensure.mono (fun _ => id) fun _ _ => trivial

theorem emits_watchCi (h : endless ∨ Enough ctx.opts turns) :
    Emits Quiet endless (watchCi ctx gh turns state) fun _ => True := by
  unfold watchCi
  split
  · exact emits_pure trivial
  · refine (emits_ciFixLoop (h.imp_right Enough.ciFix)).bind fun _ _ => ?_
    exact emits_ensure.mono (fun _ => id) fun _ _ => trivial

theorem emits_confirmMerge : Emits Quiet endless (confirmMerge ctx) fun _ => True := by
  refine (emits_act id).bind fun _ _ => ?_
  split
  · exact emits_mark trivial
  · refine emits_ensure.bind fun _ _ => (emits_act id).bind fun _ _ => ?_
    exact emits_ensure.bind fun _ _ => emits_mark trivial

theorem emits_verifyClosed : Emits Quiet endless (verifyClosed ctx gh) fun _ => True := by
  unfold verifyClosed
  split
  · exact (emits_act id).bind fun _ _ => emits_ensure.bind fun _ _ => emits_progress
  · exact emits_pure trivial

theorem emits_afterMerge {merged : GitResult} :
    Emits Quiet endless (afterMerge ctx gh state merged) fun _ => True := by
  refine emits_ensure.bind fun _ _ => (emits_act id).bind fun _ _ => emits_save.bind fun _ _ => ?_
  exact emits_verifyClosed.bind fun _ _ => emits_progress.bind fun _ _ => emits_pure trivial

/-! ## Termination -/

def Any (_ : LogEntry) : Prop := True

variable {α : Type} {program : Driver α} {good : α → Prop}

theorem any_of_quiet (h : Emits Quiet endless program good) : Emits Any endless program good :=
  h.mono (fun _ _ => trivial) fun _ => id

theorem emits_any {effect : Effect} : Emits Any endless (Adw.perform effect) fun _ => True :=
  emits_perform fun _ => trivial

theorem emits_openPr : Emits Any endless (openPr ctx gh state) fun _ => True := by
  refine emits_any.bind fun found _ => ?_
  split
  · exact emits_pure trivial
  · refine emits_any.bind fun created _ => ?_
    split
    · exact emits_throw
    · exact emits_pure trivial

/-- From the pull request to the end of the run. -/
theorem emits_finalizeAndMerge (h : endless ∨ Enough ctx.opts turns) :
    Emits Any endless (finalizeAndMerge ctx turns state) fun _ => True := by
  unfold finalizeAndMerge
  split
  · exact any_of_quiet emits_reportMerged
  refine (any_of_quiet emits_runGates).bind fun _ _ => ?_
  refine (any_of_quiet emits_commitAndPush).bind fun _ _ => ?_
  split
  · exact emits_throw
  refine emits_openPr.bind fun later _ => (any_of_quiet emits_save).bind fun _ _ => ?_
  refine (any_of_quiet emits_progress).bind fun _ _ => ?_
  refine (any_of_quiet (emits_watchCi h)).bind fun _ _ => ?_
  refine (any_of_quiet emits_confirmMerge).bind fun _ _ => ?_
  exact emits_any.bind fun merged _ => any_of_quiet emits_afterMerge

theorem emits_resolveState : Emits Any endless (resolveState opts issue) fun _ => True := by
  unfold resolveState
  split
  · refine (any_of_quiet emits_ensure).bind fun _ _ => emits_any.bind fun id _ => ?_
    exact any_of_quiet emits_startState
  split
  · refine emits_any.bind fun file _ => ?_
    split
    · exact any_of_quiet emits_startState
    · exact (any_of_quiet emits_resumeState).mono (fun _ => id) fun _ _ => trivial
  · exact emits_throw

/-- A whole run, which ends if there are turns enough. -/
theorem emits_run {js : Js} {env : String → Option String} {runner : String} {options : RunOptions}
    (h : endless ∨ Enough (resolveOptions options) turns) :
    Emits Any endless (run js env issue runner options turns) fun _ => True := by
  unfold run
  extract_lets opts
  split
  · exact emits_throw
  split
  · exact emits_pure trivial
  refine emits_any.bind fun ghBin _ => (any_of_quiet emits_findRepo).bind fun repo _ => ?_
  refine (any_of_quiet emits_preflight).bind fun goOn _ => ?_
  split
  · exact emits_pure trivial
  refine emits_resolveState.bind fun result _ => (any_of_quiet emits_save).bind fun _ _ => ?_
  refine (any_of_quiet emits_prepare).bind fun s _ => Emits.withFinally ?_ emits_any
  exact (any_of_quiet (emits_runPhases h)).bind fun later _ => emits_finalizeAndMerge h

/-- A run whose limits are numbers below infinity ends, whatever the world answers. -/
theorem run_ends (js : Js) (env : String → Option String) (issue : Nat) (runner : String)
    (options : RunOptions) (h : Enough (resolveOptions options) turns)
    (world : World Effect Effect.Answer Mark Thrown) (log : List LogEntry) :
    (run js env issue runner options turns world log).1 ≠ .running := by
  intro hRunning
  have hRun : Emits Any False (run js env issue runner options turns) fun _ => True :=
    emits_run (Or.inr h)
  have hWithin := (hRun world log).2
  rw [hRunning] at hWithin
  exact hWithin

/-- The default limits need 167 turns. -/
theorem enough_default {options : RunOptions} (hResolve : options.maxResolve = none)
    (hPatch : options.maxPatch = none) (hFix : options.maxCiFix = none)
    (hPolls : options.ciMaxPolls = none) : Enough (resolveOptions options) 167 where
  resolve := ⟨3, by rw [resolveOptions, hResolve]; rfl, by decide, by decide⟩
  patch := ⟨2, by rw [resolveOptions, hPatch]; rfl, by decide, by decide⟩
  ciFix := ⟨3, 40, by rw [resolveOptions, hFix]; rfl, by rw [resolveOptions, hPolls]; rfl,
    by decide, by decide, by decide, by decide⟩

end MxAgent.System.DriverRuns
