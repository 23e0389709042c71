import MxAgent.Daemon.Heartbeat

/-! The scan for heartbeats gives the newest genuine one of every agent. It depends neither on how
the homeserver cuts the timeline into pages nor on what other members put between the events. -/
namespace MxAgent.System.HeartbeatScan

open Protocol Daemon PagedScan
open Std (ExtTreeMap)

/-- The heartbeat that an event is: it names the agent, and its sender is the agent's user. -/
def genuineHeartbeat (agent : AgentState) (event : Value) : Option Heartbeat :=
  match heartbeatOf event with
  | some (heartbeat, sender) =>
    if heartbeat.agentId = agent.agentId ∧ sender = some agent.matrixUserId then some heartbeat
    else none
  | none => none

def newestHeartbeat (agent : AgentState) (timeline : List Value) : Option Heartbeat :=
  timeline.findSome? (genuineHeartbeat agent)

/-- A heartbeat for an agent not queried or from another sender, or no heartbeat at all. -/
def Foreign (agents : List AgentState) (event : Value) : Prop :=
  ∀ agent ∈ agents, ∀ heartbeat sender, heartbeatOf event = some (heartbeat, sender) →
    heartbeat.agentId = agent.agentId → sender ≠ some agent.matrixUserId

/-- The second list is the first with further items of a kind. -/
inductive Inserted {α : Type} (kind : α → Prop) : List α → List α → Prop
  | nil : Inserted kind [] []
  | keep {item : α} {items others : List α} (h : Inserted kind items others) :
      Inserted kind (item :: items) (item :: others)
  | insert {item : α} {items others : List α} (hItem : kind item) (h : Inserted kind items others) :
      Inserted kind items (item :: others)

theorem Inserted.refl {α : Type} {kind : α → Prop} (items : List α) :
    Inserted kind items items := by
  induction items with
  | nil => exact .nil
  | cons item items ih => exact .keep ih

section Recording

variable {expected : ExtTreeMap String String} {latest : ExtTreeMap String Heartbeat}

def acceptedHeartbeat (expected : ExtTreeMap String String) (id : String) (event : Value) :
    Option Heartbeat :=
  match heartbeatOf event with
  | some (heartbeat, sender) =>
    if heartbeat.agentId = id ∧ acceptHeartbeat expected id sender then some heartbeat else none
  | none => none

theorem getElem?_insertIfNew_self (id : String) (heartbeat : Heartbeat) :
    (latest.insertIfNew id heartbeat)[id]? = latest[id]?.or (some heartbeat) := by
  rw [ExtTreeMap.getElem?_insertIfNew]
  by_cases hSeen : id ∈ latest <;> simp [hSeen]

theorem getElem?_insertIfNew_of_ne {id other : String} (heartbeat : Heartbeat) (h : other ≠ id) :
    (latest.insertIfNew other heartbeat)[id]? = latest[id]? := by
  rw [ExtTreeMap.getElem?_insertIfNew, if_neg]
  rintro ⟨hEq, -⟩
  exact h (compare_eq_iff_eq.mp hEq)

/-- One event changes an entry only if there is none yet. -/
theorem getElem?_recordHeartbeat (event : Value) (id : String) :
    (recordHeartbeat expected latest event)[id]? =
      latest[id]?.or (acceptedHeartbeat expected id event) := by
  unfold recordHeartbeat acceptedHeartbeat
  rcases heartbeatOf event with _ | ⟨heartbeat, sender⟩
  · simp
  by_cases hId : heartbeat.agentId = id
  · subst hId
    by_cases hAccept : acceptHeartbeat expected heartbeat.agentId sender
    · simp only [hAccept, if_true, and_self, getElem?_insertIfNew_self]
    · simp [hAccept]
  · simp only [hId, false_and, if_false, Option.or_none]
    split
    · exact getElem?_insertIfNew_of_ne heartbeat hId
    · rfl

/-- A whole timeline: the first accepted heartbeat under an id stays. -/
theorem getElem?_foldl_recordHeartbeat (timeline : List Value) (id : String) :
    (timeline.foldl (recordHeartbeat expected) latest)[id]? =
      latest[id]?.or (timeline.findSome? (acceptedHeartbeat expected id)) := by
  induction timeline generalizing latest with
  | nil => simp
  | cons event timeline ih =>
    rw [List.foldl_cons, ih, getElem?_recordHeartbeat, Option.or_assoc, List.findSome?_cons]
    cases acceptedHeartbeat expected id event <;> simp

/-- Once every queried agent has a heartbeat, no event changes anything. -/
theorem recordHeartbeat_of_allSeen (h : allSeen expected latest) (event : Value) :
    recordHeartbeat expected latest event = latest := by
  apply ExtTreeMap.ext_getElem?
  intro id
  rw [getElem?_recordHeartbeat]
  rcases hFound : latest[id]? with _ | found
  · -- an id without an entry is not queried, so nothing is accepted under it
    have hUnqueried : expected[id]? = none := by
      rw [← Option.not_isSome_iff_eq_none, ExtTreeMap.isSome_getElem?_iff_mem]
      intro hMem
      have hSeen := List.all_eq_true.mp h id (ExtTreeMap.mem_keys.mpr hMem)
      rw [ExtTreeMap.contains_iff_mem, ← ExtTreeMap.isSome_getElem?_iff_mem, hFound] at hSeen
      exact absurd hSeen (by simp)
    unfold acceptedHeartbeat acceptHeartbeat
    rw [hUnqueried]
    rcases heartbeatOf event with _ | ⟨heartbeat, sender⟩ <;> simp
  · rfl

end Recording

variable {agent : AgentState}

section Agents

variable {agents : List AgentState}

theorem acceptHeartbeat_iff (hIds : (agents.map AgentState.agentId).Nodup) (hAgent : agent ∈ agents)
    {sender : Option String} :
    acceptHeartbeat (expectedSenders agents) agent.agentId sender ↔
      sender = some agent.matrixUserId := by
  have hKeys : ((agents.map fun agent => (agent.agentId, agent.matrixUserId)).map
      Prod.fst).Nodup := by
    rw [List.map_map]
    exact hIds
  have hExpected : (expectedSenders agents)[agent.agentId]? = some agent.matrixUserId :=
    (StringMap.getElem?_ofList_iff hKeys).mpr (List.mem_map.mpr ⟨agent, hAgent, rfl⟩)
  unfold acceptHeartbeat
  rw [hExpected]
  cases sender with
  | none => simp
  | some sender =>
    simp only [beq_iff_eq, Option.some.injEq]
    exact eq_comm

theorem acceptedHeartbeat_eq (hIds : (agents.map AgentState.agentId).Nodup)
    (hAgent : agent ∈ agents) :
    acceptedHeartbeat (expectedSenders agents) agent.agentId = genuineHeartbeat agent := by
  funext event
  unfold acceptedHeartbeat genuineHeartbeat
  rcases heartbeatOf event with _ | ⟨heartbeat, sender⟩
  · rfl
  · simp only [acceptHeartbeat_iff hIds hAgent]

theorem acceptedHeartbeat_unknown {id : String} (hId : ∀ agent ∈ agents, agent.agentId ≠ id)
    (event : Value) : acceptedHeartbeat (expectedSenders agents) id event = none := by
  have hExpected : (expectedSenders agents)[id]? = none := by
    refine StringMap.getElem?_eq_none_of_not_mem fun hMem => ?_
    rw [expectedSenders, ExtTreeMap.mem_ofList, List.map_map, List.contains_iff_mem,
      List.mem_map] at hMem
    obtain ⟨agent, hAgent, hSame⟩ := hMem
    exact hId agent hAgent hSame
  unfold acceptedHeartbeat acceptHeartbeat
  rw [hExpected]
  rcases heartbeatOf event with _ | ⟨heartbeat, sender⟩ <;> simp

theorem genuineHeartbeat_of_foreign {event : Value} (hAgent : agent ∈ agents)
    (h : Foreign agents event) : genuineHeartbeat agent event = none := by
  unfold genuineHeartbeat
  rcases hEvent : heartbeatOf event with _ | ⟨heartbeat, sender⟩
  · rfl
  · exact if_neg fun hBoth => h agent hAgent heartbeat sender hEvent hBoth.1 hBoth.2

theorem newestHeartbeat_inserted (hAgent : agent ∈ agents) {timeline other : List Value}
    (h : Inserted (Foreign agents) timeline other) :
    newestHeartbeat agent other = newestHeartbeat agent timeline := by
  unfold newestHeartbeat
  induction h with
  | nil => rfl
  | keep h ih => rw [List.findSome?_cons, List.findSome?_cons, ih]
  | insert hItem h ih => rw [List.findSome?_cons, genuineHeartbeat_of_foreign hAgent hItem, ih]

end Agents

section Scan

variable {ε : Type} {messages : Option String → Except ε (Page Value String)}
  {agents : List AgentState} {pages : List (List Value)} {maxEvents : Nat}

/-- The scan of a timeline within the limit is the fold over all of it. -/
theorem readLatestHeartbeats_eq (hLinked : Linked messages none pages)
    (hLimit : pages.flatten.length ≤ maxEvents) :
    readLatestHeartbeats messages agents maxEvents =
      .ok (pages.flatten.foldl (recordHeartbeat (expectedSenders agents)) ∅) := by
  unfold readLatestHeartbeats
  extract_lets expected
  split
  · rename_i hNone
    -- no agent is queried: the empty map is complete from the start
    have hSeen : allSeen expected ∅ := by
      rw [ExtTreeMap.isEmpty_iff] at hNone
      simp [allSeen, hNone]
    rw [foldl_of_complete (fun latest event h => recordHeartbeat_of_allSeen h event) hSeen]
  · exact scan_eq_foldl (fun latest event h => recordHeartbeat_of_allSeen h event) hLinked
      (by omega) (by omega) ∅

theorem getElem?_scanned (hIds : (agents.map AgentState.agentId).Nodup) (timeline : List Value) :
    (∀ agent ∈ agents,
      (timeline.foldl (recordHeartbeat (expectedSenders agents)) ∅)[agent.agentId]? =
        newestHeartbeat agent timeline) ∧
    ∀ id, (∀ agent ∈ agents, agent.agentId ≠ id) →
      (timeline.foldl (recordHeartbeat (expectedSenders agents)) ∅)[id]? = none := by
  refine ⟨fun agent hAgent => ?_, fun id hId => ?_⟩
  · rw [getElem?_foldl_recordHeartbeat, acceptedHeartbeat_eq hIds hAgent]
    simp [newestHeartbeat]
  · rw [getElem?_foldl_recordHeartbeat,
      List.findSome?_eq_none_iff.mpr fun event _ => acceptedHeartbeat_unknown hId event]
    simp

/-- Timelines that differ in foreign events give the same map. -/
theorem foldl_recordHeartbeat_inserted (hIds : (agents.map AgentState.agentId).Nodup)
    {timeline other : List Value} (h : Inserted (Foreign agents) timeline other) :
    other.foldl (recordHeartbeat (expectedSenders agents)) ∅ =
      timeline.foldl (recordHeartbeat (expectedSenders agents)) ∅ := by
  obtain ⟨hKnown, hUnknown⟩ := getElem?_scanned hIds timeline
  obtain ⟨hOtherKnown, hOtherUnknown⟩ := getElem?_scanned hIds other
  apply ExtTreeMap.ext_getElem?
  intro id
  by_cases hId : ∀ agent ∈ agents, agent.agentId ≠ id
  · rw [hUnknown id hId, hOtherUnknown id hId]
  · push Not at hId
    obtain ⟨agent, hAgent, rfl⟩ := hId
    rw [hKnown agent hAgent, hOtherKnown agent hAgent, newestHeartbeat_inserted hAgent h]

/-- The scan gives every agent its newest genuine heartbeat and nothing else, in whatever pages the
timeline comes and whatever foreign events are inserted. -/
theorem heartbeats_newest (hIds : (agents.map AgentState.agentId).Nodup)
    (hLinked : Linked messages none pages) (hLimit : pages.flatten.length ≤ maxEvents) :
    ∃ latest, readLatestHeartbeats messages agents maxEvents = .ok latest ∧
      (∀ agent ∈ agents, latest[agent.agentId]? = newestHeartbeat agent pages.flatten) ∧
      (∀ id, (∀ agent ∈ agents, agent.agentId ≠ id) → latest[id]? = none) ∧
      ∀ (others : Option String → Except ε (Page Value String)) otherPages,
        Linked others none otherPages → otherPages.flatten.length ≤ maxEvents →
        otherPages.flatten = pages.flatten ∨
          Inserted (Foreign agents) pages.flatten otherPages.flatten →
        readLatestHeartbeats others agents maxEvents = .ok latest := by
  obtain ⟨hKnown, hUnknown⟩ := getElem?_scanned hIds pages.flatten
  refine ⟨_, readLatestHeartbeats_eq hLinked hLimit, hKnown, hUnknown, ?_⟩
  intro others otherPages hOthers hOtherLimit hRelated
  have hInserted : Inserted (Foreign agents) pages.flatten otherPages.flatten :=
    hRelated.elim (fun hSame => hSame ▸ Inserted.refl _) id
  rw [readLatestHeartbeats_eq hOthers hOtherLimit, foldl_recordHeartbeat_inserted hIds hInserted]

end Scan

def heartbeatEvent (sender agentId : String) (ts : Nat) : Value :=
  .object [("content", .object [("agent_id", .string agentId),
      ("load", .object [("max_invocations", .ofNat 2), ("running_invocations", .ofNat 0)]),
      ("status", .string "active"), ("ts", .ofNat ts)]),
    ("sender", .string sender), ("type", .string heartbeatEventType)]

def builder : AgentState := ⟨"builder", "@build:hs", "key", none⟩

def spoofedTimeline : Option String → Except String (Page Value String)
  | none => .ok ⟨[heartbeatEvent "@mallory:hs" "builder" 900], some "t1"⟩
  | some _ => .ok ⟨[heartbeatEvent "@build:hs" "builder" 500], none⟩

def quietTimeline : Option String → Except String (Page Value String)
  | _ => .ok ⟨[heartbeatEvent "@build:hs" "builder" 500], none⟩

theorem builder_heartbeat :
    ∃ latest, readLatestHeartbeats quietTimeline [builder] 10 = .ok latest ∧
      readLatestHeartbeats spoofedTimeline [builder] 10 = .ok latest ∧
      (latest["builder"]?.map Heartbeat.ts) = some 500 := by
  have hQuiet : Linked quietTimeline none [[heartbeatEvent "@build:hs" "builder" 500]] :=
    @Linked.last _ _ _ _ none ⟨[_], none⟩ rfl (List.cons_ne_nil _ _) rfl
  have hSpoofed : Linked spoofedTimeline none [[heartbeatEvent "@mallory:hs" "builder" 900],
      [heartbeatEvent "@build:hs" "builder" 500]] :=
    @Linked.more _ _ _ _ none ⟨[_], some "t1"⟩ "t1" _ rfl (List.cons_ne_nil _ _) rfl
      (@Linked.last _ _ _ _ (some "t1") ⟨[_], none⟩ rfl (List.cons_ne_nil _ _) rfl)
  have hSender : (heartbeatOf (heartbeatEvent "@mallory:hs" "builder" 900)).map Prod.snd =
      some (some "@mallory:hs") := by decide +kernel
  have hForeign : Foreign [builder] (heartbeatEvent "@mallory:hs" "builder" 900) := by
    intro agent hAgent heartbeat sender hEvent _
    rw [hEvent] at hSender
    obtain rfl : sender = some "@mallory:hs" := Option.some.inj hSender
    rw [List.mem_singleton.mp hAgent]
    decide
  obtain ⟨latest, hLatest, hNewest, -, hSame⟩ :=
    @heartbeats_newest _ _ [builder] _ 10 (by decide) hQuiet (by decide)
  refine ⟨latest, hLatest, hSame spoofedTimeline _ hSpoofed (by decide)
    (.inr (.insert hForeign (Inserted.refl _))), ?_⟩
  have hFound : latest["builder"]? = newestHeartbeat builder _ := hNewest builder (by simp)
  rw [hFound]
  decide +kernel

end MxAgent.System.HeartbeatScan
