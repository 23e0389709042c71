import MxAgent.Daemon.TaskGates

/-! The dispatch gate. A call of `process_one` reaches the dispatcher at most
once, and only after everything that can stand in the way of a task has let it
through in that same call. -/
namespace MxAgent.System.TaskDispatch

open Protocol Daemon Daemon.TaskOrchestrator

variable {Key σ δ γ : Type} (crypto : Crypto Key) (regexNew : RegexNew) (order : EvictionOrder)
  (orchestrator : TaskOrchestrator Key γ) (store : TaskStore σ) (dispatcher : TaskDispatcher δ)
  (env : ProcessEnv) (task : TaskState) (tasks : List TaskState) (w : World σ δ γ)

/-- What justifies a dispatch among the effects of one call. -/
structure Justified (effects : List TaskEffect) (claimed : TaskState) (action : TaskAction)
    (invocationId : String) (allowance : Allowance) : Prop where
  eligible : Eligible orchestrator task tasks
  parsed : actionFromTask task = .ok action
  addressed : orchestrator.trustStore.isSome ∨ w.replay.isSome →
    ∃ auth, action.authorization = some auth ∧ auth.targetAgent = orchestrator.agentId
  trusted : ∀ trust, orchestrator.trustStore = some trust →
    ∃ auth key, action.authorization = some auth ∧ trust.isKeyTrusted auth.signature.keyId ∧
      orchestrator.verifyingKeys[auth.signature.keyId]? = some key ∧
      verifyTaskActionSignature crypto key task.taskId action auth = .ok ()
  admitted : w.replay.isSome → ∃ auth, action.authorization = some auth ∧
    .nonceAdmitted ⟨auth.nonce, auth.expiresAt⟩ ∈ effects
  granted : ∀ policy, orchestrator.policy = some policy → ∃ roomId,
    orchestrator.roomId = some roomId ∧
      evaluateTaskAction regexNew policy roomId task action = .allow allowance
  approved : allowance.requiresApproval →
    orchestrator.approvalGate.isSome ∧ .gateAnswered task action .approved ∈ effects
  claimOk : .claimed (claimOptions orchestrator env task) (.ok claimed) ∈ effects
  /-- After the dispatch there is one write, conditional on the claimed revision. -/
  written : ∃ before terminal result answer, effects = before ++
    [.dispatched claimed action invocationId allowance,
      .finalized (finalOptions task claimed terminal result) answer]
  /-- The nonce of a dispatched action stays burned. -/
  burned : ∀ nonce, .nonceForgotten nonce ∉ effects

variable {crypto regexNew order orchestrator store dispatcher env task tasks w}

/-- An action without an authorization failure is signed for this agent, by a trusted key if there
is a trust store. -/
theorem authorization_of_no_failure {cached : Bool} {action : TaskAction}
    (h : authorizationFailure crypto orchestrator cached task action = none) :
    (orchestrator.trustStore.isSome ∨ cached →
      ∃ auth, action.authorization = some auth ∧ auth.targetAgent = orchestrator.agentId) ∧
    ∀ trust, orchestrator.trustStore = some trust →
      ∃ auth key, action.authorization = some auth ∧ trust.isKeyTrusted auth.signature.keyId ∧
        orchestrator.verifyingKeys[auth.signature.keyId]? = some key ∧
        verifyTaskActionSignature crypto key task.taskId action auth = .ok () := by
  unfold authorizationFailure at h
  split at h
  · rename_i hOff
    simp only [Bool.and_eq_true, Option.isNone_iff_eq_none, Bool.not_eq_true'] at hOff
    constructor
    · rintro (hTrust | hCached)
      · simp [hOff.1] at hTrust
      · simp [hOff.2] at hCached
    · intro trust hTrust
      simp [hOff.1] at hTrust
  · cases hAuth : action.authorization with
    | none => simp [hAuth] at h
    | some auth =>
      simp only [hAuth] at h
      split at h
      · cases h
      · rename_i hTarget
        refine ⟨fun _ => ⟨auth, rfl, not_not.mp hTarget⟩, ?_⟩
        intro trust hTrust
        simp only [hTrust] at h
        split at h
        · cases h
        · rename_i hTrusted
          split at h
          · cases h
          · rename_i key hKey
            split at h
            · rename_i hVerify
              exact ⟨auth, key, rfl, by simpa using hTrusted, hKey, hVerify⟩
            · cases h

theorem justified_of_no_dispatch {after : World σ δ γ}
    (h : ∃ effects, after.log = w.log ++ effects ∧
      ∀ effect ∈ effects, effect.isDispatch = false) :
    ∃ effects, after.log = w.log ++ effects ∧
      (effects.filter TaskEffect.isDispatch).length ≤ 1 ∧
      ∀ claimed action invocationId allowance,
        .dispatched claimed action invocationId allowance ∈ effects →
        Justified crypto regexNew orchestrator env task tasks w effects claimed action
          invocationId allowance := by
  obtain ⟨effects, hLog, hNone⟩ := h
  refine ⟨effects, hLog, ?_, ?_⟩
  · rw [List.filter_eq_nil_iff.mpr fun effect hEffect => by simp [hNone effect hEffect]]
    exact Nat.zero_le 1
  · intro claimed action invocationId allowance hDispatch
    cases hNone _ hDispatch

/-- At most one dispatch in a call, and each one is justified. -/
theorem dispatch_justified :
    ∃ effects,
      (processOne crypto regexNew order orchestrator store dispatcher env task tasks w).2.log =
        w.log ++ effects ∧
      (effects.filter TaskEffect.isDispatch).length ≤ 1 ∧
      ∀ claimed action invocationId allowance,
        .dispatched claimed action invocationId allowance ∈ effects →
        Justified crypto regexNew orchestrator env task tasks w effects claimed action
          invocationId allowance := by
  rcases processOne_cases tasks w with
    hSame | ⟨action, -, hStopped⟩ | ⟨action, allowance, hEligible, hParsed, hPassed, hResult⟩
  · exact justified_of_no_dispatch ⟨[], by rw [hSame]; simp, by simp⟩
  · exact justified_of_no_dispatch hStopped.no_dispatch
  · obtain ⟨marks, hMarks, hQuiet, hAdmitted, hApproved⟩ := hPassed.cleared_log
    rw [hResult]
    rcases hPassed.call_cases rfl hMarks rfl with
      ⟨claimed, terminal, result, answer, hLog, -⟩ | ⟨effects, hLog, hNone, -⟩
    swap
    · exact justified_of_no_dispatch ⟨effects, hLog, hNone⟩
    refine ⟨_, hLog, ?_, ?_⟩
    · have hNone : marks.filter TaskEffect.isDispatch = [] :=
        List.filter_eq_nil_iff.mpr fun mark hMark => by simp [(hQuiet mark hMark).1]
      rw [List.filter_append, hNone]
      exact le_rfl
    · intro claimed' action' invocationId allowance' hDispatch
      obtain ⟨rfl, rfl, rfl, rfl⟩ : claimed' = claimed ∧ action' = action ∧
          invocationId = env.invocationId ∧ allowance' = allowance := by
        rcases List.mem_append.mp hDispatch with hMark | hTail
        · cases (hQuiet _ hMark).1
        · simpa using hTail
      obtain ⟨hAddressed, hTrusted⟩ := authorization_of_no_failure hPassed.verified
      refine ⟨hEligible, hParsed, hAddressed, hTrusted, ?_, ?_, ?_, ?_, ?_, ?_⟩
      · intro hCached
        obtain ⟨auth, hAuth, hMark⟩ := hAdmitted hCached
        exact ⟨auth, hAuth, List.mem_append_left _ hMark⟩
      · intro policy hPolicy
        have hGranted := hPassed.granted
        rw [Granted, hPolicy] at hGranted
        exact hGranted
      · intro hApproval
        obtain ⟨hGate, hMark⟩ := hApproved hApproval
        exact ⟨hGate, List.mem_append_left _ hMark⟩
      · exact List.mem_append_right _ List.mem_cons_self
      · exact ⟨marks ++ [.claimed (claimOptions orchestrator env task) (.ok claimed')],
          terminal, result, answer, by simp⟩
      · intro nonce hForgotten
        rcases List.mem_append.mp hForgotten with hMark | hTail
        · exact (hQuiet _ hMark).2 nonce rfl
        · simp at hTail

end MxAgent.System.TaskDispatch
