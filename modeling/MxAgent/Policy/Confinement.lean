import Mathlib.Data.List.Infix
import MxAgent.Policy.Tightening
import MxAgent.Policy.Validation

/-! Confinement of the working directory. The engine compares raw paths component by
component and looks at no file system. For validated policies this decides where the
directory lies once its path is resolved: at or below an allowed directory. -/
namespace MxAgent

/-- A path resolved lexically: if from the root, and its names. -/
structure ResolvedPath where
  absolute : Bool
  names : List String
  deriving DecidableEq, Repr

/-- One segment: an empty one or a `.` stays, a `..` goes back. -/
def enterSegment (names : List String) (segment : String) : List String :=
  if segment = "" ∨ segment = "." then names
  else if segment = ".." then names.dropLast
  else names ++ [segment]

def resolveLexically (path : String) : ResolvedPath :=
  ⟨isAbsolute path, (splitSlash path).foldl enterSegment []⟩

def ResolvedPath.Within (path base : ResolvedPath) : Prop :=
  path.absolute = base.absolute ∧ base.names <+: path.names

instance (path base : ResolvedPath) : Decidable (path.Within base) :=
  inferInstanceAs (Decidable (_ ∧ _))

/-- Without `.` and `..` the resolution only drops the empty segments. -/
theorem foldl_enterSegment {segments : List String}
    (h : ∀ segment ∈ segments, segment ≠ ".." ∧ segment ≠ ".") (names : List String) :
    segments.foldl enterSegment names = names ++ segments.filter (· ≠ "") := by
  induction segments generalizing names with
  | nil => simp
  | cons segment rest ih =>
    obtain ⟨⟨hUp, hHere⟩, hRest⟩ := List.forall_mem_cons.mp h
    rw [List.foldl_cons, ih hRest]
    by_cases hEmpty : segment = ""
    · simp [enterSegment, hEmpty]
    · simp [enterSegment, hEmpty, hUp, hHere]

theorem filterMap_componentOf {segments : List String}
    (h : ∀ segment ∈ segments, segment ≠ ".." ∧ segment ≠ ".") :
    segments.filterMap componentOf = (segments.filter (· ≠ "")).map .normal := by
  induction segments with
  | nil => rfl
  | cons segment rest ih =>
    obtain ⟨⟨hUp, hHere⟩, hRest⟩ := List.forall_mem_cons.mp h
    by_cases hEmpty : segment = ""
    · simp [componentOf, hEmpty, ih hRest]
    · simp [componentOf, hEmpty, hUp, hHere, ih hRest]

namespace Canonical

variable {path base : String}

theorem segments_ne (h : Canonical path) :
    ∀ segment ∈ splitSlash path, segment ≠ ".." ∧ segment ≠ "." := by
  simpa [hasDotSegment] using h.2

theorem resolveLexically_eq (h : Canonical path) :
    resolveLexically path = ⟨true, (splitSlash path).filter (· ≠ "")⟩ := by
  rw [resolveLexically, h.1, foldl_enterSegment h.segments_ne, List.nil_append]

theorem components_eq (h : Canonical path) :
    components path = .rootDir :: (resolveLexically path).names.map .normal := by
  rw [components, if_pos h.1, filterMap_componentOf h.segments_ne, h.resolveLexically_eq]

/-- On canonical paths the comparison by components is that of paths. -/
theorem pathStartsWith_iff (hPath : Canonical path) (hBase : Canonical base) :
    pathStartsWith path base ↔
      (resolveLexically path).Within (resolveLexically base) := by
  have hInjective : Function.Injective PathComponent.normal := fun _ _ h => by cases h; rfl
  have hAbsolute : (resolveLexically path).absolute = (resolveLexically base).absolute := by
    rw [hPath.resolveLexically_eq, hBase.resolveLexically_eq]
  rw [pathStartsWith, List.isPrefixOf_iff_prefix, hPath.components_eq, hBase.components_eq,
    List.cons_prefix_cons, List.prefix_map_iff_of_injective hInjective]
  exact ⟨fun h => ⟨hAbsolute, h.2⟩, fun h => ⟨rfl, h.2⟩⟩

end Canonical

/-- `cwd_allowed` asks for a canonical directory at or below an allowed one. -/
theorem cwdAllowed_iff {cwd : String} {allowCwd : List String}
    (hAllow : ∀ entry ∈ allowCwd, Canonical entry) :
    cwdAllowed cwd allowCwd ↔
      Canonical cwd ∧
        ∃ entry ∈ allowCwd, (resolveLexically cwd).Within (resolveLexically entry) := by
  have hSplit : cwdAllowed cwd allowCwd ↔
      Canonical cwd ∧ ∃ entry ∈ allowCwd, pathStartsWith cwd entry := by
    simp [cwdAllowed, Canonical, hasDotSegment]
  rw [hSplit]
  refine and_congr_right fun hCwd => exists_congr fun entry => and_congr_right fun hEntry => ?_
  exact hCwd.pathStartsWith_iff (hAllow entry hEntry)

namespace Policy

theorem cwdAllowed_of_deny {regexNew : RegexNew} {policy : Policy} {ctx : ExecContext}
    {denied : String} (h : policy.evaluateExec regexNew ctx = .deny (.cwdNotAllowed denied)) :
    ∃ room agent, policy.lookup ctx.roomId ctx.requestingAgent = .ok (room, agent) ∧
      cwdAllowed ctx.cwd agent.allowCwd = false := by
  unfold evaluateExec at h
  cases hLookup : policy.lookup ctx.roomId ctx.requestingAgent with
  | error reason =>
    exfalso
    rw [hLookup] at h
    cases h
    revert hLookup
    unfold lookup
    split
    · simp
    · split <;> simp
  | ok entry =>
    obtain ⟨room, agent⟩ := entry
    refine ⟨room, agent, rfl, ?_⟩
    by_contra hAllowed
    rw [Bool.not_eq_false] at hAllowed
    simp only [hLookup, hAllowed] at h
    repeat' split at h
    all_goals cases h <;> contradiction

variable {regexNew : RegexNew} {regexError : String → String} {policy : Policy}

/-- The allowed directories of a validated policy are canonical. -/
theorem canonical_of_validate (hValid : policy.validate regexNew regexError = .ok ())
    {roomId agentId : String} {room : RoomPolicy} {agent : AgentPolicy}
    (hLookup : policy.lookup roomId agentId = .ok (room, agent)) :
    ∀ entry ∈ agent.allowCwd, Canonical entry := by
  obtain ⟨hRoom, hAgent⟩ := lookup_eq_ok_iff.mp hLookup
  have hWellFormed := (validate_eq_ok.mp hValid).rooms roomId room hRoom
  exact (hWellFormed.2.agents agentId agent hAgent).2.allowCwd

/-- A validated policy confines the working directory. What `evaluate_exec` allows runs, by its
resolved path, at or below a directory the agent's rule lists; and an absolute directory without dot
segments that lies there is not refused for its place. -/
theorem cwd_confined (regexNew : RegexNew) (regexError : String → String) (policy : Policy)
    (hValid : policy.validate regexNew regexError = .ok ()) (ctx : ExecContext) :
    (∀ allowance, policy.evaluateExec regexNew ctx = .allow allowance →
      (resolveLexically ctx.cwd).absolute ∧
      ∃ rule entry, policy.rooms[ctx.roomId]?.bind (·.agents[ctx.requestingAgent]?) = some rule ∧
        entry ∈ rule.allowCwd ∧ (resolveLexically ctx.cwd).Within (resolveLexically entry)) ∧
    ∀ rule entry, policy.rooms[ctx.roomId]?.bind (·.agents[ctx.requestingAgent]?) = some rule →
      entry ∈ rule.allowCwd → isAbsolute ctx.cwd →
      (∀ segment ∈ splitSlash ctx.cwd, segment ≠ ".." ∧ segment ≠ ".") →
      (resolveLexically ctx.cwd).Within (resolveLexically entry) →
      ∀ cwd, policy.evaluateExec regexNew ctx ≠ .deny (.cwdNotAllowed cwd) := by
  constructor
  · intro allowance hAllow
    obtain ⟨room, agent, hLookup, hPermits, -⟩ := evaluateExec_eq_allow_iff.mp hAllow
    obtain ⟨hRoom, hAgent⟩ := lookup_eq_ok_iff.mp hLookup
    obtain ⟨hCwd, entry, hEntry, hWithin⟩ :=
      (cwdAllowed_iff (canonical_of_validate hValid hLookup)).mp hPermits.cwd
    refine ⟨hCwd.1, agent, entry, ?_, hEntry, hWithin⟩
    rw [hRoom, Option.bind_some, hAgent]
  · intro rule entry hRule hEntry hAbsolute hSegments hWithin cwd hDeny
    obtain ⟨room, agent, hLookup, hRefused⟩ := cwdAllowed_of_deny hDeny
    obtain ⟨hRoom, hAgent⟩ := lookup_eq_ok_iff.mp hLookup
    rw [hRoom, Option.bind_some, hAgent, Option.some.injEq] at hRule
    subst hRule
    have hCanonical : Canonical ctx.cwd := by
      refine ⟨hAbsolute, ?_⟩
      simpa [hasDotSegment] using hSegments
    have hAllowed := (cwdAllowed_iff (canonical_of_validate hValid hLookup)).mpr
      ⟨hCanonical, entry, hEntry, hWithin⟩
    rw [hAllowed] at hRefused
    cases hRefused

def workspacePolicy : Policy where
  execution := ExecutionPolicy.empty
  rooms := .ofList [("!build", { RoomPolicy.empty with
    trusted := true
    agents := .ofList [("@builder", { AgentPolicy.empty with
      allowExec := true, allowCommands := ["cargo"], allowCwd := ["/srv//build/"] })] })]

/-- A directory below the allowed one is accepted, through doubled and trailing slashes; one that
leaves it again is not. -/
theorem workspace_confined :
    let regexNew : RegexNew := fun _ => some fun _ => false
    let request : String → ExecContext := fun cwd => ⟨"!build", "@builder", ["cargo"], cwd⟩
    (∃ rule entry,
      workspacePolicy.rooms["!build"]?.bind (·.agents["@builder"]?) = some rule ∧
      entry ∈ rule.allowCwd ∧
      (resolveLexically "/srv/build//crates").Within (resolveLexically entry)) ∧
    (∀ cwd, workspacePolicy.evaluateExec regexNew (request "/srv/build") ≠
      .deny (.cwdNotAllowed cwd)) ∧
    workspacePolicy.evaluateExec regexNew (request "/srv/build/../other") =
      .deny (.cwdNotAllowed "/srv/build/../other") := by
  intro regexNew request
  have hValid : workspacePolicy.validate regexNew id = .ok () := by decide +kernel
  have hAllow : workspacePolicy.evaluateExec regexNew (request "/srv/build//crates") =
      .allow Allowance.empty := by
    decide +kernel
  have hInside := (cwd_confined regexNew id workspacePolicy hValid
    (request "/srv/build//crates")).1 _ hAllow
  have hAt := (cwd_confined regexNew id workspacePolicy hValid (request "/srv/build")).2
    { AgentPolicy.empty with
      allowExec := true, allowCommands := ["cargo"], allowCwd := ["/srv//build/"] }
    "/srv//build/" (by decide +kernel) (by decide) (by decide +kernel) (by decide +kernel)
    (by decide +kernel)
  exact ⟨hInside.2, hAt, by decide +kernel⟩

end Policy

end MxAgent
