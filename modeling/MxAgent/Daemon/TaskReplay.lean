import MxAgent.Daemon.TaskGates
import MxAgent.Daemon.ApprovalGate

/-! What one call of `process_one` does to the shared replay cache. A call that
does not dispatch leaves every live use in the cache, whether it stops at a gate or
releases its nonces after a lost claim; a call that dispatches adds the dispatched
authorization. -/
namespace MxAgent.Daemon

open Protocol

/-- A gate that costs the shared cache nothing, also when undone later. -/
structure TaskApprovalGate.Sound {γ : Type} (gate : TaskApprovalGate γ) : Prop where
  evaluate : ∀ env task action state handle, ∃ after,
    (gate.evaluate env task action state (some handle)).2.2 = some after ∧ handle.Keeps after
  compensate : ∀ env task action state handle later,
    (gate.evaluate env task action state (some handle)).1 = .approved → handle.Keeps later →
    ∃ after, (gate.compensateLostClaim env (gate.evaluate env task action state
      (some handle)).2.1 (some later)).2 = some after ∧ handle.Keeps after

theorem QueueApprovalGate.toGate_sound (order : EvictionOrder) (gate : QueueApprovalGate) :
    (gate.toGate order).Sound where
  evaluate env task action state handle := by
    show ∃ after, (gate.evaluate order env task action state (some handle)).2.2 = some after ∧ _
    rcases gate.evaluate_cases task action state (some handle) with
      ⟨decision, _, _, -, -, hAdmit, hEvaluate⟩ | ⟨_, -, -, hEvaluate⟩ |
        ⟨_, _, _, rfl | ⟨decision, _, _, hAdmit⟩, hEvaluate⟩ <;> rw [hEvaluate]
    · obtain ⟨after, hAfter, hKeeps, -⟩ := admitDecisionNonce_keeps hAdmit
      exact ⟨after, hAfter, hKeeps⟩
    · exact ⟨handle, rfl, .refl handle⟩
    · exact ⟨handle, rfl, .refl handle⟩
    · obtain ⟨after, hAfter, hKeeps, -⟩ := admitDecisionNonce_keeps hAdmit
      exact ⟨after, hAfter, hKeeps⟩
  compensate env task action state handle later hApproved hKeeps := by
    change (gate.evaluate order env task action state (some handle)).1 = .approved at hApproved
    show ∃ after, (gate.compensateLostClaim env (gate.evaluate order env task action state
      (some handle)).2.1 (some later)).2 = some after ∧ _
    rcases gate.evaluate_cases task action state (some handle) with
      ⟨decision, _, _, -, -, hAdmit, hEvaluate⟩ | ⟨_, hOther, -, hEvaluate⟩ |
        ⟨_, _, _, -, hEvaluate⟩
    · rw [hEvaluate]
      obtain ⟨-, -, -, hFresh⟩ := admitDecisionNonce_keeps hAdmit
      cases hCached : gate.cached with
      | false => exact ⟨later, by simp [compensateLostClaim, attached, hCached], hKeeps⟩
      | true =>
        obtain ⟨nonce, hLast, hNew⟩ := hFresh rfl hCached
        refine ⟨later.forget nonce env.compensateWrite, ?_, hKeeps.forget _ fun _ =>
          ReplayHandle.lapsed_of_not_mem hNew _⟩
        simp [compensateLostClaim, attached, hCached, hLast]
    · rw [hEvaluate] at hApproved
      exact absurd hApproved hOther
    · rw [hEvaluate] at hApproved
      cases hApproved

def TaskEffect.dispatchedUse : TaskEffect → Option NonceUse
  | .dispatched _ action _ _ => action.authorization.map fun auth => ⟨auth.nonce, auth.expiresAt⟩
  | _ => none

variable {action : TaskAction} {handle : ReplayHandle} {allowance : Allowance}

namespace TaskOrchestrator

variable {Key σ δ γ : Type} {crypto : Crypto Key} {regexNew : RegexNew} {order : EvictionOrder}
  {orchestrator : TaskOrchestrator Key γ} {store : TaskStore σ} {dispatcher : TaskDispatcher δ}
  {env : ProcessEnv} {task : TaskState}

theorem GateReplay.keeps {w : World σ δ γ} {base : Option ReplayHandle}
    (h : GateReplay orchestrator env task action w base)
    (hSound : ∀ gate ∈ orchestrator.approvalGate, gate.Sound)
    (hReplay : w.replay = some handle) : ∃ after, base = some after ∧ handle.Keeps after := by
  rcases h with rfl | ⟨gate, hGate, rfl⟩
  · exact ⟨handle, hReplay, .refl handle⟩
  · rw [hReplay]
    exact (hSound gate hGate).evaluate env task action w.gate handle

theorem PresentedAtMost.keeps {before after : Option ReplayHandle}
    (h : PresentedAtMost order env before after)
    (hBefore : before = some handle) : ∃ last, after = some last ∧ handle.Keeps last := by
  rcases h with rfl | ⟨presented, use, hPresented, rfl⟩
  · exact ⟨handle, hBefore, .refl handle⟩
  · obtain rfl : presented = handle := Option.some.inj (hPresented.symm.trans hBefore)
    exact ⟨_, rfl, presented.keeps_admitAt order use env.admitClock env.admitWrite⟩

theorem Stopped.keeps {before after : World σ δ γ}
    (h : Stopped order orchestrator env task action before after)
    (hSound : ∀ gate ∈ orchestrator.approvalGate, gate.Sound)
    (hReplay : before.replay = some handle) :
    ∃ last, after.replay = some last ∧ handle.Keeps last := by
  obtain ⟨base, hBase, hPresented⟩ := h.replay
  obtain ⟨middle, hMiddle, hKeeps⟩ := hBase.keeps hSound hReplay
  obtain ⟨last, hLast, hKeeps'⟩ := hPresented.keeps hMiddle
  exact ⟨last, hLast, hKeeps.trans hKeeps'⟩

/-- The gate and the admission of a cleared task: the cache keeps what it held and gains the
action's use, which was not live in it. -/
theorem Passed.cleared_replay {w : World σ δ γ}
    (hPassed : Passed crypto regexNew order orchestrator env task action allowance w)
    (hSound : ∀ gate ∈ orchestrator.approvalGate, gate.Sound) (hReplay : w.replay = some handle) :
    ∃ auth after, action.authorization = some auth ∧
      (cleared order orchestrator env task action allowance w).replay = some after ∧
      handle.Keeps after ∧ nonceLifetime.live after.clock ⟨auth.nonce, auth.expiresAt⟩ ∧
      after.cache.nonces.Holds ⟨auth.nonce, auth.expiresAt⟩ ∧
      (after.undisturbed → handle.Lapsed auth.nonce after.clock) := by
  obtain ⟨-, -, hGate⟩ := afterGate_spec action allowance w
  obtain ⟨asked, hAsked, hKeeps⟩ := hGate.keeps hSound hReplay
  obtain ⟨auth, hAuth, hAdmit⟩ := hPassed.admitted asked hAsked
  obtain ⟨hFresh, hLive, hHolds⟩ := ReplayHandle.admitAt_ok hAdmit
  refine ⟨auth, _, hAuth, by simp only [cleared, afterAdmission, hAsked, hAuth],
    hKeeps.trans (asked.keeps_admitAt ..), hLive, hHolds, ?_⟩
  intro hEnd
  obtain ⟨hUndisturbed, hTime, -⟩ := ReplayHandle.undisturbed_admitAt hEnd
  exact hKeeps.lapsed hFresh hUndisturbed hTime

/-- Releasing the nonces of a lost claim undoes what the call put there. -/
theorem Passed.releaseNonces_keeps {w : World σ δ γ}
    (hPassed : Passed crypto regexNew order orchestrator env task action allowance w)
    (hSound : ∀ gate ∈ orchestrator.approvalGate, gate.Sound) (hReplay : w.replay = some handle) :
    ∃ last, (releaseNonces orchestrator env action allowance
        (afterClaim orchestrator store env task
          (cleared order orchestrator env task action allowance w))).replay = some last ∧
      handle.Keeps last := by
  obtain ⟨auth, after, hAuth, hAfter, hKeeps, -, -, hLapsed⟩ :=
    hPassed.cleared_replay hSound hReplay
  have hForgot : handle.Keeps (after.forget auth.nonce env.forgetWrite) :=
    hKeeps.forget env.forgetWrite hLapsed
  unfold releaseNonces
  simp only [afterClaim_replay, hAfter, hAuth]
  split
  · rename_i gate hApproval hGate
    obtain ⟨gate', hGate', hApproved⟩ := hPassed.approved hApproval
    obtain rfl : gate = gate' := Option.some.inj (hGate.symm.trans hGate')
    rw [hReplay] at hApproved
    have hState : (cleared order orchestrator env task action allowance w).gate =
        (gate.evaluate env task action w.gate (some handle)).2.1 := by
      simp only [cleared_gate, afterGate, hApproval, hGate, hReplay]
    rw [afterClaim_gate, hState]
    exact (hSound gate hGate).compensate env task action w.gate handle _ hApproved hForgot
  · exact ⟨_, rfl, hForgot⟩

/-- What a call of `process_one` does to the cache and to the record of
dispatches. -/
structure Spent (before after : ReplayHandle) (effects : List TaskEffect) : Prop where
  keeps : before.Keeps after
  signed : ∀ task action invocationId allowance,
    .dispatched task action invocationId allowance ∈ effects → action.authorization.isSome
  dispatched : effects.filterMap TaskEffect.dispatchedUse = [] ∨ ∃ use,
    effects.filterMap TaskEffect.dispatchedUse = [use] ∧ nonceLifetime.live after.clock use ∧
      after.cache.nonces.Holds use ∧
      (after.undisturbed → before.Lapsed use.nonce after.clock)
  forgotten : ∀ nonce, .nonceForgotten nonce ∈ effects →
    (∃ use : NonceUse, use.nonce = nonce ∧ .nonceAdmitted use ∈ effects) ∧
      ∀ effect ∈ effects, effect.isDispatch = false

theorem dispatchedUse_of_not_isDispatch {effect : TaskEffect} (h : effect.isDispatch = false) :
    effect.dispatchedUse = none := by
  cases effect with
  | dispatched => cases h
  | _ => rfl

theorem spent_of_no_dispatch {before after : ReplayHandle} {effects : List TaskEffect}
    (hKeeps : before.Keeps after) (hNone : ∀ effect ∈ effects, effect.isDispatch = false)
    (hForgotten : ∀ nonce, .nonceForgotten nonce ∈ effects →
      ∃ use : NonceUse, use.nonce = nonce ∧ .nonceAdmitted use ∈ effects) :
    Spent before after effects := by
  refine ⟨hKeeps, ?_, .inl ?_, fun nonce hNonce => ⟨hForgotten nonce hNonce, hNone⟩⟩
  · intro task action invocationId allowance hDispatch
    cases hNone _ hDispatch
  · rw [List.filterMap_eq_nil_iff]
    exact fun effect hEffect => dispatchedUse_of_not_isDispatch (hNone effect hEffect)

theorem Stopped.spent {before after : World σ δ γ}
    (h : Stopped order orchestrator env task action before after)
    (hSound : ∀ gate ∈ orchestrator.approvalGate, gate.Sound)
    (hReplay : before.replay = some handle) :
    ∃ last effects, after.replay = some last ∧ after.log = before.log ++ effects ∧
      Spent handle last effects := by
  obtain ⟨last, hLast, hKeeps⟩ := h.keeps hSound hReplay
  obtain ⟨effects, hLog, hGate⟩ := h.log
  refine ⟨last, effects, hLast, hLog, spent_of_no_dispatch hKeeps ?_ ?_⟩
  · intro effect hEffect
    cases effect with
    | dispatched => exact absurd (hGate _ hEffect) (by simp [IsGateEffect])
    | _ => rfl
  · intro nonce hForgotten
    exact absurd (hGate _ hForgotten) (by simp [IsGateEffect])

theorem Passed.spent {w : World σ δ γ}
    (hPassed : Passed crypto regexNew order orchestrator env task action allowance w)
    (hSound : ∀ gate ∈ orchestrator.approvalGate, gate.Sound) (hReplay : w.replay = some handle) :
    ∃ last effects,
      (claimAndDispatch orchestrator store dispatcher env task action allowance
        (cleared order orchestrator env task action allowance w)).2.replay = some last ∧
      (claimAndDispatch orchestrator store dispatcher env task action allowance
        (cleared order orchestrator env task action allowance w)).2.log = w.log ++ effects ∧
      Spent handle last effects := by
  obtain ⟨auth, after, hAuth, hAfter, hKeeps, hLive, hHolds, hLapsed⟩ :=
    hPassed.cleared_replay hSound hReplay
  obtain ⟨marks, hMarks, hQuiet, -⟩ := hPassed.cleared_log
  rcases hPassed.call_cases rfl hMarks rfl with
    ⟨claimed, terminal, result, answer, hLog, hKept⟩ | ⟨effects, hLog, hNone, hForgotten, hNext⟩
  · refine ⟨after, _, hKept.trans hAfter, hLog, hKeeps, ?_,
      .inr ⟨_, ?_, hLive, hHolds, hLapsed⟩, ?_⟩
    · intro task' action' invocationId allowance' hDispatch
      rcases List.mem_append.mp hDispatch with hMark | hTail
      · cases (hQuiet _ hMark).1
      · obtain ⟨-, rfl, -, -⟩ : task' = claimed ∧ action' = action ∧
            invocationId = env.invocationId ∧ allowance' = allowance := by simpa using hTail
        rw [hAuth]
        rfl
    · have hNothing : marks.filterMap TaskEffect.dispatchedUse = [] :=
        List.filterMap_eq_nil_iff.mpr fun mark hMark =>
          dispatchedUse_of_not_isDispatch (hQuiet mark hMark).1
      rw [List.filterMap_append, hNothing]
      simp [List.filterMap_cons, TaskEffect.dispatchedUse, hAuth]
    · intro nonce hForgotten
      rcases List.mem_append.mp hForgotten with hMark | hTail
      · exact absurd rfl ((hQuiet _ hMark).2 nonce)
      · simp at hTail
  · rcases hNext with hSame | hReleased
    · exact ⟨after, effects, hSame.trans hAfter, hLog,
        spent_of_no_dispatch hKeeps hNone hForgotten⟩
    · obtain ⟨last, hLast, hKeeps'⟩ := hPassed.releaseNonces_keeps hSound hReplay
      exact ⟨last, effects, hReleased ▸ hLast, hLog,
        spent_of_no_dispatch hKeeps' hNone hForgotten⟩

/-- Every call of `process_one` with a cache and a sound gate. -/
theorem processOne_spent (tasks : List TaskState) {w : World σ δ γ}
    (hSound : ∀ gate ∈ orchestrator.approvalGate, gate.Sound) (hReplay : w.replay = some handle) :
    ∃ last effects,
      (processOne crypto regexNew order orchestrator store dispatcher env task tasks w).2.replay =
        some last ∧
      (processOne crypto regexNew order orchestrator store dispatcher env task tasks w).2.log =
        w.log ++ effects ∧
      Spent handle last effects := by
  rcases processOne_cases tasks w with
    hSame | ⟨action, -, hStopped⟩ | ⟨action, allowance, -, -, hPassed, hResult⟩
  · exact ⟨handle, [], by rw [hSame, hReplay], by rw [hSame, List.append_nil],
      spent_of_no_dispatch (.refl handle) (by simp) (by simp)⟩
  · exact hStopped.spent hSound hReplay
  · rw [hResult]
    exact hPassed.spent hSound hReplay

end TaskOrchestrator

end MxAgent.Daemon
