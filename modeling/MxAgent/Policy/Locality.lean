import MxAgent.Policy.Tightening

/-! What a decision reads. A request is judged by the `execution` section, by the
settings of its own room and by its agent's rule there; no other room or agent of the
file takes part. Within the rule, a longer allowlist or a shorter denylist only adds to
what is allowed, and leaves the limits of what was allowed before as they were. -/
namespace MxAgent

open Std

/-- The settings of a room, without the rules of its agents. -/
def RoomPolicy.settings (room : RoomPolicy) : RoomPolicy := { room with agents := ∅ }

variable {room : RoomPolicy}

theorem RoomPolicy.fields_of_settings_eq {other : RoomPolicy} (h : room.settings = other.settings) :
    room.trusted = other.trusted ∧ room.rawExecDefault = other.rawExecDefault ∧
      room.requireVerifiedDevice = other.requireVerifiedDevice := by
  simp only [settings, RoomPolicy.mk.injEq] at h
  exact ⟨h.1, h.2.1, h.2.2.1⟩

/-- The second rule allows at least what the first does: its allowlists gain entries or its denylist
loses some, and nothing else differs. -/
structure AgentPolicy.Widened (rule wider : AgentPolicy) : Prop where
  allowCommands : rule.allowCommands ⊆ wider.allowCommands
  allowCwd : rule.allowCwd ⊆ wider.allowCwd
  allowTools : rule.allowTools ⊆ wider.allowTools
  denyArgsRegex : wider.denyArgsRegex ⊆ rule.denyArgsRegex
  others : wider = { rule with
    allowCommands := wider.allowCommands
    allowCwd := wider.allowCwd
    allowTools := wider.allowTools
    denyArgsRegex := wider.denyArgsRegex }

namespace Policy

variable {regexNew : RegexNew} {policy other : Policy} {roomId agentId : String}

def settings? (policy : Policy) (roomId : String) : Option RoomPolicy :=
  policy.rooms[roomId]?.map RoomPolicy.settings

def rule? (policy : Policy) (roomId agentId : String) : Option AgentPolicy :=
  policy.rooms[roomId]?.bind fun room => room.agents[agentId]?

def setRule (policy : Policy) (roomId agentId : String) (rule : AgentPolicy) : Policy :=
  { policy with
    rooms := policy.rooms.modify roomId fun room =>
      { room with agents := room.agents.modify agentId fun _ => rule } }

/-- Policies with the same settings and rule find the same requester: both refuse it for one reason,
or both have its rule in rooms with the same settings. -/
theorem lookup_agree (hSettings : policy.settings? roomId = other.settings? roomId)
    (hRule : policy.rule? roomId agentId = other.rule? roomId agentId) :
    (∃ reason, policy.lookup roomId agentId = .error reason ∧
      other.lookup roomId agentId = .error reason) ∨
    ∃ room otherRoom agent, policy.lookup roomId agentId = .ok (room, agent) ∧
      other.lookup roomId agentId = .ok (otherRoom, agent) ∧
      room.settings = otherRoom.settings := by
  unfold settings? at hSettings
  unfold rule? at hRule
  unfold lookup
  cases hRoom : policy.rooms[roomId]? with
  | none =>
    rw [hRoom, Option.map_none, eq_comm, Option.map_eq_none_iff] at hSettings
    exact .inl ⟨.unknownRoom, rfl, by rw [hSettings]⟩
  | some room =>
    rw [hRoom, Option.map_some, eq_comm, Option.map_eq_some_iff] at hSettings
    obtain ⟨otherRoom, hOther, hSame⟩ := hSettings
    rw [hRoom, hOther, Option.bind_some, Option.bind_some] at hRule
    simp only [hOther, hRule]
    cases otherRoom.agents[agentId]? with
    | none => exact .inl ⟨.unknownAgent, rfl, rfl⟩
    | some agent => exact .inr ⟨room, otherRoom, agent, rfl, rfl, hSame.symm⟩

/-- The limits come from the `execution` section, the settings and the rule. -/
theorem allowanceFor_agree (hExecution : policy.execution = other.execution)
    {otherRoom : RoomPolicy} (hSettings : room.settings = otherRoom.settings)
    (agent : AgentPolicy) :
    policy.allowanceFor room agent = other.allowanceFor otherRoom agent := by
  obtain ⟨-, -, hVerified⟩ := RoomPolicy.fields_of_settings_eq hSettings
  simp only [allowanceFor, hExecution, hVerified]

theorem evaluate_agree (hExecution : policy.execution = other.execution)
    (hSettings : policy.settings? roomId = other.settings? roomId)
    (hRule : policy.rule? roomId agentId = other.rule? roomId agentId) :
    (∀ command cwd, policy.evaluateExec regexNew ⟨roomId, agentId, command, cwd⟩ =
      other.evaluateExec regexNew ⟨roomId, agentId, command, cwd⟩) ∧
    ∀ tool, policy.evaluateCall ⟨roomId, agentId, tool⟩ =
      other.evaluateCall ⟨roomId, agentId, tool⟩ := by
  unfold evaluateExec evaluateCall
  rcases lookup_agree hSettings hRule with
    ⟨reason, hLeft, hRight⟩ | ⟨room, otherRoom, agent, hLeft, hRight, hSame⟩
  · simp only [hLeft, hRight, implies_true, and_self]
  · obtain ⟨hTrusted, hDefault, -⟩ := RoomPolicy.fields_of_settings_eq hSame
    simp only [hLeft, hRight, hTrusted, hDefault, allowanceFor_agree hExecution hSame agent,
      implies_true, and_self]

/-- `evaluate_call` allows exactly the tools that the rule lists. -/
theorem evaluateCall_eq_allow_iff {ctx : CallContext} {allowance : Allowance} :
    policy.evaluateCall ctx = .allow allowance ↔
      ∃ room agent, policy.lookup ctx.roomId ctx.requestingAgent = .ok (room, agent) ∧
        ctx.tool ∈ agent.allowTools ∧ allowance = policy.allowanceFor room agent := by
  unfold evaluateCall
  cases policy.lookup ctx.roomId ctx.requestingAgent with
  | error reason => simp
  | ok entry =>
    obtain ⟨room, agent⟩ := entry
    by_cases hTool : ctx.tool ∈ agent.allowTools
    · simp [hTool, eq_comm]
    · simp [hTool]

/-- After a rule was replaced a requester is still found, in a room with the same settings. Only the
new rule's agent meets it. -/
theorem lookup_setRule {rule : AgentPolicy} {requestRoom requester : String} {agent : AgentPolicy}
    (hLookup : policy.lookup requestRoom requester = .ok (room, agent)) :
    ∃ newRoom newAgent,
      (policy.setRule roomId agentId rule).lookup requestRoom requester = .ok (newRoom, newAgent) ∧
      room.settings = newRoom.settings ∧
      (newAgent = agent ∨ policy.rule? roomId agentId = some agent ∧ newAgent = rule) := by
  obtain ⟨hRoom, hAgent⟩ := lookup_eq_ok_iff.mp hLookup
  by_cases hSameRoom : roomId = requestRoom
  · subst hSameRoom
    let newRoom : RoomPolicy := { room with agents := room.agents.modify agentId fun _ => rule }
    have hNewRoom : (policy.setRule roomId agentId rule).rooms[roomId]? = some newRoom := by
      simp [setRule, hRoom, newRoom]
    by_cases hSameAgent : agentId = requester
    · subst hSameAgent
      have hNew : newRoom.agents[agentId]? = some rule := by
        simp [newRoom, hAgent]
      have hRule : policy.rule? roomId agentId = some agent := by
        simp [rule?, hRoom, hAgent]
      exact ⟨newRoom, rule, lookup_eq_ok_iff.mpr ⟨hNewRoom, hNew⟩, rfl, .inr ⟨hRule, rfl⟩⟩
    · have hKept : newRoom.agents[requester]? = some agent := by
        simp [newRoom, ExtTreeMap.getElem?_modify, hSameAgent, hAgent]
      exact ⟨newRoom, agent, lookup_eq_ok_iff.mpr ⟨hNewRoom, hKept⟩, rfl, .inl rfl⟩
  · have hKept : (policy.setRule roomId agentId rule).rooms[requestRoom]? = some room := by
      simp [setRule, ExtTreeMap.getElem?_modify, hSameRoom, hRoom]
    exact ⟨room, agent, lookup_eq_ok_iff.mpr ⟨hKept, hAgent⟩, rfl, .inl rfl⟩

end Policy

namespace AgentPolicy.Widened

variable {rule wider : AgentPolicy}

theorem refl (rule : AgentPolicy) : rule.Widened rule where
  allowCommands := List.Subset.refl _
  allowCwd := List.Subset.refl _
  allowTools := List.Subset.refl _
  denyArgsRegex := List.Subset.refl _
  others := rfl

/-- A command passes under the wider rule, in a room with the same settings. -/
theorem permits {regexNew : RegexNew} {ctx : ExecContext} {otherRoom : RoomPolicy}
    (h : rule.Widened wider) (hSettings : room.settings = otherRoom.settings)
    (hPermits : Policy.Permits regexNew ctx room rule) :
    Policy.Permits regexNew ctx otherRoom wider where
  exec := by
    obtain ⟨-, hDefault, -⟩ := RoomPolicy.fields_of_settings_eq hSettings
    rw [h.others, ← hDefault]
    exact hPermits.exec
  trusted := by
    obtain ⟨hTrusted, -⟩ := RoomPolicy.fields_of_settings_eq hSettings
    rw [← hTrusted]
    exact hPermits.trusted
  command := by
    obtain ⟨program, hProgram, hAllowed⟩ := hPermits.command
    exact ⟨program, hProgram, commandAllowed_of_subset h.allowCommands hAllowed⟩
  cwd := cwdAllowed_of_subset h.allowCwd hPermits.cwd
  arguments := matchedDenyPattern_of_subset h.denyArgsRegex hPermits.arguments

/-- No limit of a request comes from the lists of its rule. -/
theorem allowanceFor_eq (h : rule.Widened wider) (policy : Policy) (room : RoomPolicy) :
    policy.allowanceFor room wider = policy.allowanceFor room rule := by
  rw [h.others]
  rfl

end AgentPolicy.Widened

namespace Policy

variable {policy : Policy} {roomId agentId : String} {rule wider : AgentPolicy}

/-- After a rule was widened every requester is found under a rule at least as wide, with the same
limits. -/
theorem lookup_widened (hRule : policy.rule? roomId agentId = some rule)
    (hWider : rule.Widened wider) {requestRoom requester : String} {agent : AgentPolicy}
    (hLookup : policy.lookup requestRoom requester = .ok (room, agent)) :
    ∃ newRoom newAgent,
      (policy.setRule roomId agentId wider).lookup requestRoom requester =
        .ok (newRoom, newAgent) ∧
      room.settings = newRoom.settings ∧ agent.Widened newAgent ∧
      policy.allowanceFor room agent =
        (policy.setRule roomId agentId wider).allowanceFor newRoom newAgent := by
  obtain ⟨newRoom, newAgent, hFound, hSettings, hNew⟩ := lookup_setRule hLookup
  have hWidened : agent.Widened newAgent := by
    rcases hNew with rfl | ⟨hOld, rfl⟩
    · exact .refl _
    · rw [hRule, Option.some.injEq] at hOld
      subst hOld
      exact hWider
  refine ⟨newRoom, newAgent, hFound, hSettings, hWidened, ?_⟩
  rw [hWidened.allowanceFor_eq]
  exact allowanceFor_agree rfl hSettings agent

/-- Evaluation is local and monotone. Two policies that agree on the `execution` section, a room's
settings and an agent's rule there judge every request of that agent in that room alike. And
widening one rule keeps every allowed request allowed, with the same allowance. -/
theorem evaluation_local_and_monotone (regexNew : RegexNew) :
    (∀ (policy other : Policy) (roomId agentId : String),
      policy.execution = other.execution →
      policy.settings? roomId = other.settings? roomId →
      policy.rule? roomId agentId = other.rule? roomId agentId →
      (∀ command cwd,
        policy.evaluateExec regexNew ⟨roomId, agentId, command, cwd⟩ =
          other.evaluateExec regexNew ⟨roomId, agentId, command, cwd⟩) ∧
      ∀ tool, policy.evaluateCall ⟨roomId, agentId, tool⟩ =
        other.evaluateCall ⟨roomId, agentId, tool⟩) ∧
    ∀ (policy : Policy) (roomId agentId : String) (rule wider : AgentPolicy),
      policy.rule? roomId agentId = some rule → rule.Widened wider →
      (∀ ctx allowance, policy.evaluateExec regexNew ctx = .allow allowance →
        (policy.setRule roomId agentId wider).evaluateExec regexNew ctx = .allow allowance) ∧
      ∀ ctx allowance, policy.evaluateCall ctx = .allow allowance →
        (policy.setRule roomId agentId wider).evaluateCall ctx = .allow allowance := by
  refine ⟨?_, ?_⟩
  · intro policy other roomId agentId hExecution hSettings hRule
    exact evaluate_agree hExecution hSettings hRule
  · intro policy roomId agentId rule wider hRule hWider
    constructor
    · intro ctx allowance hAllow
      obtain ⟨room, agent, hLookup, hPermits, rfl⟩ := evaluateExec_eq_allow_iff.mp hAllow
      obtain ⟨newRoom, newAgent, hFound, hSettings, hWidened, hSame⟩ :=
        lookup_widened hRule hWider hLookup
      exact evaluateExec_eq_allow_iff.mpr
        ⟨newRoom, newAgent, hFound, hWidened.permits hSettings hPermits, hSame⟩
    · intro ctx allowance hAllow
      obtain ⟨room, agent, hLookup, hTool, rfl⟩ := evaluateCall_eq_allow_iff.mp hAllow
      obtain ⟨newRoom, newAgent, hFound, hSettings, hWidened, hSame⟩ :=
        lookup_widened hRule hWider hLookup
      exact evaluateCall_eq_allow_iff.mpr
        ⟨newRoom, newAgent, hFound, hWidened.allowTools hTool, hSame⟩

def buildRule : AgentPolicy :=
  { AgentPolicy.empty with
    allowExec := true, allowCommands := ["cargo"], allowCwd := ["/srv/build"],
    denyArgsRegex := ["--offline", "--release"] }

def buildPolicy (neighbours : List (String × AgentPolicy)) (rooms : List (String × RoomPolicy)) :
    Policy where
  execution := ExecutionPolicy.empty
  rooms := .ofList (rooms ++ [("!build", { RoomPolicy.empty with
    trusted := true, agents := .ofList (("@builder", buildRule) :: neighbours) })])

/-- A neighbour with wide rights changes nothing for the builder, who keeps the permission when a
command and a directory are added and a pattern is taken away. -/
theorem builder_keeps_permission :
    let regexNew : RegexNew := fun pattern => some fun text => text == pattern
    let request : ExecContext := ⟨"!build", "@builder", ["cargo", "test"], "/srv/build"⟩
    let wider : AgentPolicy :=
      { buildRule with
        allowCommands := "make" :: buildRule.allowCommands
        allowCwd := "/tmp" :: buildRule.allowCwd
        denyArgsRegex := ["--release"] }
    (buildPolicy [] []).evaluateExec regexNew request =
      (buildPolicy [("@guest", wider)] [("!other", .empty)]).evaluateExec regexNew request ∧
    ∃ allowance, (buildPolicy [] []).evaluateExec regexNew request = .allow allowance ∧
      ((buildPolicy [] []).setRule "!build" "@builder" wider).evaluateExec regexNew request =
        .allow allowance := by
  intro regexNew request wider
  obtain ⟨hLocal, hMonotone⟩ := evaluation_local_and_monotone regexNew
  have hAgree := (hLocal (buildPolicy [] []) (buildPolicy [("@guest", wider)] [("!other", .empty)])
    "!build" "@builder" rfl (by decide +kernel) (by decide +kernel)).1
  have hWider : buildRule.Widened wider :=
    ⟨by decide, by decide, by decide, by decide, rfl⟩
  have hKeeps := (hMonotone (buildPolicy [] []) "!build" "@builder" buildRule wider
    (by decide +kernel) hWider).1
  have hAllow : (buildPolicy [] []).evaluateExec regexNew request =
      .allow ((buildPolicy [] []).allowanceFor RoomPolicy.empty buildRule) := by
    decide +kernel
  exact ⟨hAgree _ _, _, hAllow, hKeeps request _ hAllow⟩

end Policy

end MxAgent
