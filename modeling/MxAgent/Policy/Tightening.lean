import MxAgent.Policy.Engine

/-! When one policy file is stricter than another. The order goes entry by entry: a
stricter file has no room, agent or permission the other lacks, and every restriction the
other has. What it allows is then allowed by the other too. -/
namespace MxAgent

/-- A stricter agent entry. The sandbox stays the same: a request can pass under one backend and
fail under another. -/
structure AgentPolicy.Tightens (stricter looser : AgentPolicy) : Prop where
  allowExec : stricter.allowExec → looser.allowExec
  allowCommands : stricter.allowCommands ⊆ looser.allowCommands
  allowCwd : stricter.allowCwd ⊆ looser.allowCwd
  denyArgsRegex : looser.denyArgsRegex ⊆ stricter.denyArgsRegex
  sandbox : stricter.sandbox = looser.sandbox
  requireVerifiedDevice :
    looser.requireVerifiedDevice → stricter.requireVerifiedDevice

structure RoomPolicy.Tightens (stricter looser : RoomPolicy) : Prop where
  trusted : stricter.trusted → looser.trusted
  rawExecDefault : stricter.rawExecDefault = some .allow → looser.rawExecDefault = some .allow
  requireVerifiedDevice :
    looser.requireVerifiedDevice → stricter.requireVerifiedDevice
  agents : ∀ (agentId : String) agent, stricter.agents[agentId]? = some agent →
    ∃ other, looser.agents[agentId]? = some other ∧ agent.Tightens other

structure ExecutionPolicy.Tightens (stricter looser : ExecutionPolicy) : Prop where
  envAllowlist : stricter.envAllowlist ⊆ looser.envAllowlist
  defaultSandbox : stricter.defaultSandbox = looser.defaultSandbox
  requireSandbox : looser.requireSandbox → stricter.requireSandbox

structure Policy.Tightens (stricter looser : Policy) : Prop where
  execution : stricter.execution.Tightens looser.execution
  rooms : ∀ (roomId : String) room, stricter.rooms[roomId]? = some room →
    ∃ other, looser.rooms[roomId]? = some other ∧ room.Tightens other

/-- A stricter allowance, as far as later checks read it. -/
structure Allowance.Tightens (stricter looser : Allowance) : Prop where
  sandbox : stricter.sandbox = looser.sandbox
  envAllowlist : stricter.envAllowlist ⊆ looser.envAllowlist
  requireSandbox : looser.requireSandbox → stricter.requireSandbox
  requireVerifiedDevice :
    looser.requireVerifiedDevice → stricter.requireVerifiedDevice

variable {stricter looser : List String}

theorem commandAllowed_of_subset {program : String} (h : stricter ⊆ looser)
    (hAllowed : commandAllowed program stricter) :
    commandAllowed program looser := by
  rw [commandAllowed, List.any_eq_true] at hAllowed ⊢
  obtain ⟨allowed, hMem, hMatch⟩ := hAllowed
  exact ⟨allowed, h hMem, hMatch⟩

theorem cwdAllowed_of_subset {cwd : String} (h : stricter ⊆ looser)
    (hAllowed : cwdAllowed cwd stricter) :
    cwdAllowed cwd looser := by
  rw [cwdAllowed, Bool.and_eq_true, List.any_eq_true] at hAllowed ⊢
  obtain ⟨hPath, allowed, hMem, hBelow⟩ := hAllowed
  exact ⟨hPath, allowed, h hMem, hBelow⟩

/-- No pattern denies a command when each compiles and matches neither it nor an argument. -/
theorem matchedDenyPattern_eq_none_iff {regexNew : RegexNew} {command patterns : List String} :
    matchedDenyPattern regexNew command patterns = none ↔
      ∀ pattern ∈ patterns, ∃ isMatch, regexNew pattern = some isMatch ∧
        (isMatch (" ".intercalate command) || command.any isMatch) = false := by
  induction patterns with
  | nil => simp [matchedDenyPattern]
  | cons pattern rest ih =>
    rw [matchedDenyPattern, List.forall_mem_cons, ← ih]
    cases hRegex : regexNew pattern with
    | none => simp
    | some isMatch =>
      cases hMatch : isMatch (" ".intercalate command) || command.any isMatch with
      | true =>
        simp only [hMatch, if_true, reduceCtorEq, false_iff, not_and]
        rintro ⟨other, hOther, hFalse⟩
        cases hOther
        rw [hMatch] at hFalse
        cases hFalse
      | false =>
        simp only [hMatch, Bool.false_eq_true, if_false]
        exact ⟨fun h => ⟨⟨isMatch, rfl, hMatch⟩, h⟩, fun h => h.2⟩

theorem matchedDenyPattern_of_subset {regexNew : RegexNew} {command : List String}
    (h : looser ⊆ stricter) (hNone : matchedDenyPattern regexNew command stricter = none) :
    matchedDenyPattern regexNew command looser = none := by
  rw [matchedDenyPattern_eq_none_iff] at hNone ⊢
  exact fun pattern hPattern => hNone pattern (h hPattern)

namespace Policy

variable {regexNew : RegexNew} {policy stricter looser : Policy} {ctx : ExecContext}

/-- Everything an allowed command has passed. -/
structure Permits (regexNew : RegexNew) (ctx : ExecContext) (room : RoomPolicy)
    (agent : AgentPolicy) : Prop where
  exec : agent.allowExec ∨ room.rawExecDefault = some .allow
  trusted : room.trusted
  command : ∃ program ∈ ctx.command.head?, commandAllowed program agent.allowCommands
  cwd : cwdAllowed ctx.cwd agent.allowCwd
  arguments : matchedDenyPattern regexNew ctx.command agent.denyArgsRegex = none

/-- `evaluate_exec` allows a command exactly when its room's and agent's entries permit it, with
their limits. -/
theorem evaluateExec_eq_allow_iff {allowance : Allowance} :
    policy.evaluateExec regexNew ctx = .allow allowance ↔
      ∃ room agent, policy.lookup ctx.roomId ctx.requestingAgent = .ok (room, agent) ∧
        Permits regexNew ctx room agent ∧ allowance = policy.allowanceFor room agent := by
  unfold evaluateExec
  cases hLookup : policy.lookup ctx.roomId ctx.requestingAgent with
  | error reason => simp
  | ok entry =>
    obtain ⟨room, agent⟩ := entry
    constructor
    · intro h
      refine ⟨room, agent, rfl, ?_⟩
      dsimp only at h
      split at h
      · cases h
      rename_i program rest hCommand
      split at h
      · cases h
      rename_i hExec
      split at h
      · cases h
      rename_i hTrusted
      split at h
      · cases h
      rename_i hAllowed
      split at h
      · cases h
      rename_i hCwd
      split at h
      · cases h
      rename_i hArguments
      refine ⟨⟨?_, by simpa using hTrusted, ⟨program, by simp [hCommand], ?_⟩, ?_, ?_⟩, ?_⟩
      · simpa [Bool.or_eq_true, Decidable.or_iff_not_imp_left] using hExec
      · simpa using hAllowed
      · simpa using hCwd
      · exact hArguments
      · exact (Outcome.allow.inj h).symm
    · rintro ⟨room', agent', hEntry, ⟨hExec, hTrusted, ⟨program, hProgram, hAllowed⟩, hCwd,
        hArguments⟩, rfl⟩
      cases hEntry
      obtain ⟨rest, hCommand⟩ := List.head?_eq_some_iff.mp hProgram
      have hExec' : (agent.allowExec || room.rawExecDefault == some .allow) := by
        simpa using hExec
      simp only [hCommand] at hArguments ⊢
      simp [hExec', hTrusted, hAllowed, hCwd, hArguments]

theorem Permits.loosen {room otherRoom : RoomPolicy} {agent otherAgent : AgentPolicy}
    (h : Permits regexNew ctx room agent) (hRoom : room.Tightens otherRoom)
    (hAgent : agent.Tightens otherAgent) : Permits regexNew ctx otherRoom otherAgent where
  exec := h.exec.imp hAgent.allowExec hRoom.rawExecDefault
  trusted := hRoom.trusted h.trusted
  command := by
    obtain ⟨program, hProgram, hAllowed⟩ := h.command
    exact ⟨program, hProgram, commandAllowed_of_subset hAgent.allowCommands hAllowed⟩
  cwd := cwdAllowed_of_subset hAgent.allowCwd h.cwd
  arguments := matchedDenyPattern_of_subset hAgent.denyArgsRegex h.arguments

theorem allowanceFor_tightens (h : stricter.Tightens looser) {room otherRoom : RoomPolicy}
    {agent otherAgent : AgentPolicy} (hRoom : room.Tightens otherRoom)
    (hAgent : agent.Tightens otherAgent) :
    (stricter.allowanceFor room agent).Tightens (looser.allowanceFor otherRoom otherAgent) where
  sandbox := by simp only [allowanceFor, hAgent.sandbox, h.execution.defaultSandbox]
  envAllowlist := h.execution.envAllowlist
  requireSandbox := h.execution.requireSandbox
  requireVerifiedDevice := by
    simp only [allowanceFor, Bool.or_eq_true]
    exact Or.imp hRoom.requireVerifiedDevice hAgent.requireVerifiedDevice

/-- What a stricter policy allows, a looser one does, with an allowance no stricter. -/
theorem evaluateExec_of_tightens (h : stricter.Tightens looser) {allowance : Allowance}
    (hAllow : stricter.evaluateExec regexNew ctx = .allow allowance) :
    ∃ other, looser.evaluateExec regexNew ctx = .allow other ∧ allowance.Tightens other := by
  obtain ⟨room, agent, hLookup, hPermits, rfl⟩ := evaluateExec_eq_allow_iff.mp hAllow
  obtain ⟨hRoom, hAgent⟩ := lookup_eq_ok_iff.mp hLookup
  obtain ⟨otherRoom, hOtherRoom, hTighterRoom⟩ := h.rooms _ _ hRoom
  obtain ⟨otherAgent, hOtherAgent, hTighterAgent⟩ := hTighterRoom.agents _ _ hAgent
  refine ⟨looser.allowanceFor otherRoom otherAgent, evaluateExec_eq_allow_iff.mpr ?_,
    allowanceFor_tightens h hTighterRoom hTighterAgent⟩
  exact ⟨otherRoom, otherAgent, lookup_eq_ok_iff.mpr ⟨hOtherRoom, hOtherAgent⟩,
    hPermits.loosen hTighterRoom hTighterAgent, rfl⟩

end Policy

end MxAgent
