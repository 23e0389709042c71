import MxAgent.System.ClaimedInvocations

/-! The rooms of the scheduler loop. Every tick is over the tasks of one room, and all
ticks share one set of attempted revisions. A scheduler of its own for each room is the
model to compare with: there, what is handed to `process_one` depends on the room alone. -/
namespace MxAgent.System.SchedulerRooms

open Protocol Daemon TaskOrchestrator LabelledRun ClaimedInvocations

abbrev Revision := String × Nat

def revisionOf (task : TaskState) : Revision := (task.taskId, task.stateRev)

def runnableIds (scheduler : TaskScheduler) (snapshot : List TaskState) : List String :=
  (scheduler.runnable snapshot
    (snapshot.filter fun task => task.state == stateExecuting).length).map TaskState.taskId

def runnableTasks (scheduler : TaskScheduler) (snapshot : List TaskState) : List TaskState :=
  (runnableIds scheduler snapshot).filterMap (taskWith snapshot)

/-- One turn of the loop over a room with its own set. What comes of a task is given from
outside. -/
def isolatedAttempt (outcomes : Nat → OrchestrationOutcome) (turn : Nat) (task : TaskState)
    (own : Finset Revision) : Option OrchestrationOutcome × Finset Revision :=
  if revisionOf task ∈ own then (none, own)
  else (some (outcomes turn),
    if (outcomes turn).isAwaitingApproval then own else insert (revisionOf task) own)

def isolatedStep (outcomes : Nat → Nat → OrchestrationOutcome)
    (s : List (List HandOver) × Finset Revision) (input : TaskScheduler × List TaskState) :
    List (List HandOver) × Finset Revision :=
  let (handed, own) := attemptEach (isolatedAttempt (outcomes s.1.length)) input.2 0
    (runnableIds input.1 input.2) s.2
  (s.1 ++ [handed], own)

def isolatedRun (outcomes : Nat → Nat → OrchestrationOutcome)
    (inputs : List (TaskScheduler × List TaskState)) : List (List HandOver) × Finset Revision :=
  inputs.foldl (isolatedStep outcomes) ([], ∅)

/-- The shared scheduler, and what each of its ticks has handed over. -/
structure State (σ δ γ : Type) where
  ticks : TickState σ δ γ
  handed : List (String × List HandOver)

/-- A pass begins, or goes on with the tick of an agent in a room. -/
inductive Label (Key σ δ γ : Type) where
  | pass
  | tick (roomId : String) (tick : Tick Key σ δ γ)

def maxAttemptedTracked : Nat := 50000

section Step

variable {Key σ δ γ : Type} (crypto : Crypto Key) (regexNew : RegexNew) (order : EvictionOrder)
  (orchestrator : TaskOrchestrator Key γ) (store : TaskStore σ) (dispatcher : TaskDispatcher δ)

def tickHandOvers (t : TickState σ δ γ) (tick : Tick Key σ δ γ) : List HandOver :=
  (attemptLoop crypto regexNew order tick.orchestrator tick.store tick.dispatcher
    tick.input.snapshot tick.input.process 0 (runnableIds tick.scheduler tick.input.snapshot)
    { prepared t tick with world := (recovery t tick).2 }).1

/-- An id is passed over if its task is gone, or was attempted at its revision. -/
def PassedOver (snapshot : List TaskState) (attempted : Finset Revision) (taskId : String) : Prop :=
  ∀ task ∈ taskWith snapshot taskId, revisionOf task ∈ attempted

/-- The loop of `run_scheduler_tick`: what it hands over, and where it ends. A task handed over is
attempted from then on, unless it waits for an approval. -/
inductive Loop (snapshot : List TaskState) (process : Nat → ProcessEnv) :
    Nat → List String → TickState σ δ γ → List HandOver → TickState σ δ γ → Prop
  | nil (turn : Nat) (t : TickState σ δ γ) : Loop snapshot process turn [] t [] t
  | passed {turn taskId rest t handed last} (hPassed : PassedOver snapshot t.attempted taskId)
      (hLoop : Loop snapshot process (turn + 1) rest t handed last) :
      Loop snapshot process turn (taskId :: rest) t handed last
  | handed {turn taskId rest t task outcome after handed last}
      (hTask : taskWith snapshot taskId = some task) (hFresh : revisionOf task ∉ t.attempted)
      (hAttempt : attemptTask crypto regexNew order orchestrator store dispatcher snapshot
        (process turn) task t = (some outcome, after))
      (hAfter : ∀ revision, revision ∈ after.attempted ↔ revision ∈ t.attempted ∨
        outcome.isAwaitingApproval = false ∧ revision = revisionOf task)
      (hLoop : Loop snapshot process (turn + 1) rest after handed last) :
      Loop snapshot process turn (taskId :: rest) t (⟨turn, task, outcome⟩ :: handed) last

def bounded {α : Type} (tracked : Finset α) : Finset α :=
  if tracked.card > maxAttemptedTracked then ∅ else tracked

def step (s : State σ δ γ) : Label Key σ δ γ → State σ δ γ
  | .pass =>
    { s with ticks := { s.ticks with
      attempted := bounded s.ticks.attempted
      claimedInvocations := bounded s.ticks.claimedInvocations } }
  | .tick roomId tick =>
    ⟨ClaimedInvocations.step crypto regexNew order s.ticks tick,
      s.handed ++ [(roomId, tickHandOvers crypto regexNew order s.ticks tick)]⟩

def start (t : TickState σ δ γ) : State σ δ γ := ⟨{ t with attempted := ∅ }, []⟩

def roomHandOvers (roomId : String) (s : State σ δ γ) : List (List HandOver) :=
  (s.handed.filter fun tick => tick.1 == roomId).map Prod.snd

def handedTasks (roomId : String) (s : State σ δ γ) : List (List (Nat × TaskState)) :=
  (roomHandOvers roomId s).map fun handed => handed.map fun handOver =>
    (handOver.turn, handOver.task)

def roomInputs (roomId : String) (labels : List (Label Key σ δ γ)) :
    List (TaskScheduler × List TaskState) :=
  labels.filterMap fun
    | .pass => none
    | .tick room tick => if room = roomId then some (tick.scheduler, tick.input.snapshot) else none

/-- The room's own tasks come out as given, tick by tick and turn by turn. -/
def ComesOut (outcomes : Nat → Nat → OrchestrationOutcome) (handed : List (List HandOver)) : Prop :=
  ∀ index handOvers, handed[index]? = some handOvers →
    ∀ handOver ∈ handOvers, handOver.outcome = outcomes index handOver.turn

def revisions : Label Key σ δ γ → List (String × Revision)
  | .pass => []
  | .tick roomId tick =>
    (runnableTasks tick.scheduler tick.input.snapshot).map fun task => (roomId, revisionOf task)

/-- No other room has a runnable task of the same id at the same revision. -/
def Apart (roomId : String) (labels : List (Label Key σ δ γ)) : Prop :=
  ∀ own ∈ labels.flatMap revisions, ∀ other ∈ labels.flatMap revisions,
    own.1 = roomId → other.1 ≠ roomId → own.2 ≠ other.2

instance (roomId : String) (labels : List (Label Key σ δ γ)) : Decidable (Apart roomId labels) :=
  inferInstanceAs (Decidable (∀ own ∈ _, ∀ other ∈ _, _))

def AnyTime (_ : State σ δ γ) (_ : Label Key σ δ γ) : Prop := True

def WithinBound (s : State σ δ γ) : Label Key σ δ γ → Prop
  | .pass => s.ticks.attempted.card ≤ maxAttemptedTracked
  | .tick .. => True

instance (s : State σ δ γ) (label : Label Key σ δ γ) : Decidable (WithinBound s label) :=
  match label with
  | .pass => inferInstanceAs (Decidable (_ ≤ _))
  | .tick .. => inferInstanceAs (Decidable True)

end Step

variable {Key σ δ γ : Type} {crypto : Crypto Key} {regexNew : RegexNew} {order : EvictionOrder}
  {orchestrator : TaskOrchestrator Key γ} {store : TaskStore σ} {dispatcher : TaskDispatcher δ}
  {snapshot : List TaskState}

variable {task : TaskState} {t : TickState σ δ γ}

theorem attemptTask_skipped (env : ProcessEnv) (h : revisionOf task ∈ t.attempted) :
    attemptTask crypto regexNew order orchestrator store dispatcher snapshot env task t =
      (none, t) := by
  have hAttempted : (task.taskId, task.stateRev) ∈ t.attempted := h
  simp only [attemptTask, hAttempted, if_true]

theorem attemptTask_handed (env : ProcessEnv) (h : revisionOf task ∉ t.attempted) :
    ∃ outcome after,
      attemptTask crypto regexNew order orchestrator store dispatcher snapshot env task t =
        (some outcome, after) ∧
      ∀ revision, revision ∈ after.attempted ↔ revision ∈ t.attempted ∨
        outcome.isAwaitingApproval = false ∧ revision = revisionOf task := by
  have hFresh : (task.taskId, task.stateRev) ∉ t.attempted := h
  simp only [attemptTask, hFresh, if_false, Finset.erase_insert hFresh]
  refine ⟨_, _, rfl, fun revision => ?_⟩
  split <;> simp_all [revisionOf, or_comm]

variable {process : Nat → ProcessEnv}

theorem loop (turn : Nat) (taskIds : List String) (t : TickState σ δ γ) :
    Loop crypto regexNew order orchestrator store dispatcher snapshot process turn taskIds t
      (attemptLoop crypto regexNew order orchestrator store dispatcher snapshot process turn taskIds
        t).1
      (attemptLoop crypto regexNew order orchestrator store dispatcher snapshot process turn taskIds
        t).2 := by
  induction taskIds generalizing turn t with
  | nil => exact .nil turn t
  | cons taskId rest ih =>
    rw [attemptLoop, attemptEach]
    cases hTask : taskWith snapshot taskId with
    | none => exact .passed (fun task h => by cases hTask.symm.trans h) (ih ..)
    | some task =>
      by_cases hAttempted : revisionOf task ∈ t.attempted
      · simp only [attemptTask_skipped (process turn) hAttempted]
        exact .passed (fun _ h => Option.some.inj (hTask.symm.trans h) ▸ hAttempted) (ih ..)
      · obtain ⟨outcome, after, hAttempt, hAfter⟩ : ∃ outcome after, attemptTask crypto regexNew
            order orchestrator store dispatcher snapshot (process turn) task t =
              (some outcome, after) ∧ _ := attemptTask_handed (process turn) hAttempted
        simp only [hAttempt]
        exact .handed hTask hAttempted hAttempt hAfter (ih ..)

def Agree (revisions : Set Revision) (attempted own : Finset Revision) : Prop :=
  ∀ revision ∈ revisions, revision ∈ attempted ↔ revision ∈ own

theorem taskId_of_taskWith {taskId : String} (h : taskWith snapshot taskId = some task) :
    task.taskId = taskId := by
  simpa using List.find?_some h

theorem mem_runnableTasks {scheduler : TaskScheduler} {taskId : String}
    (hId : taskId ∈ runnableIds scheduler snapshot) (hTask : taskWith snapshot taskId = some task) :
    task ∈ runnableTasks scheduler snapshot :=
  List.mem_filterMap.mpr ⟨taskId, hId, hTask⟩

section Loop

variable {turn : Nat} {taskIds : List String} {handed : List HandOver} {last : TickState σ δ γ}
  (h : Loop crypto regexNew order orchestrator store dispatcher snapshot process turn taskIds t
    handed last) {revisions : Set Revision} {own : Finset Revision}

include h

/-- On the room's revisions the loop does what its own would. -/
theorem Loop.isolated {outcomes : Nat → OrchestrationOutcome}
    (hOwn : ∀ taskId ∈ taskIds, ∀ task, taskWith snapshot taskId = some task →
      revisionOf task ∈ revisions)
    (hOutcomes : ∀ handOver ∈ handed, handOver.outcome = outcomes handOver.turn)
    (hAgree : Agree revisions t.attempted own) :
    handed = (attemptEach (isolatedAttempt outcomes) snapshot turn taskIds own).1 ∧
    Agree revisions last.attempted
      (attemptEach (isolatedAttempt outcomes) snapshot turn taskIds own).2 := by
  induction h generalizing own with
  | nil => exact ⟨rfl, hAgree⟩
  | @passed _ taskId _ _ _ _ hPassed _ ih =>
    obtain ⟨hFirst, hRest⟩ := List.forall_mem_cons.mp hOwn
    rw [attemptEach]
    cases hTask : taskWith snapshot taskId with
    | none => exact ih hRest hOutcomes hAgree
    | some task =>
      have hOld : revisionOf task ∈ own := (hAgree _ (hFirst task hTask)).mp (hPassed task hTask)
      simp only [isolatedAttempt, hOld, if_true]
      exact ih hRest hOutcomes hAgree
  | @handed _ _ _ _ task outcome _ _ _ hTask hFresh _ hAfter _ ih =>
    obtain ⟨hFirst, hRest⟩ := List.forall_mem_cons.mp hOwn
    obtain ⟨hOutcome, hLater⟩ := List.forall_mem_cons.mp hOutcomes
    dsimp only at hOutcome
    subst hOutcome
    have hNew : revisionOf task ∉ own := (hAgree _ (hFirst task hTask)).not.mp hFresh
    simp only [attemptEach, isolatedAttempt, hTask, hNew, if_false]
    refine (ih hRest hLater fun revision hRevision => ?_).imp (congrArg (_ :: ·)) id
    rw [hAfter, hAgree revision hRevision]
    split <;> simp_all [or_comm]

theorem Loop.other (hOther : ∀ taskId ∈ taskIds, ∀ task, taskWith snapshot taskId = some task →
    revisionOf task ∉ revisions) (hAgree : Agree revisions t.attempted own) :
    Agree revisions last.attempted own := by
  induction h with
  | nil => exact hAgree
  | passed _ _ ih => exact ih (List.forall_mem_cons.mp hOther).2 hAgree
  | handed hTask _ _ hAfter _ ih =>
    obtain ⟨hFirst, hRest⟩ := List.forall_mem_cons.mp hOther
    refine ih hRest fun revision hRevision => ?_
    rw [hAfter, or_iff_left, hAgree revision hRevision]
    rintro ⟨-, rfl⟩
    exact hFirst _ hTask hRevision

end Loop

variable {tick : Tick Key σ δ γ}

theorem tick_loop (t : TickState σ δ γ) (tick : Tick Key σ δ γ) :
    Loop crypto regexNew order tick.orchestrator tick.store tick.dispatcher tick.input.snapshot
      tick.input.process 0 (runnableIds tick.scheduler tick.input.snapshot)
      { prepared t tick with world := (recovery t tick).2 }
      (tickHandOvers crypto regexNew order t tick)
      (ClaimedInvocations.step crypto regexNew order t tick) :=
  loop ..

/-- A label keeps to a division of the revisions by room. -/
def Divided (roomId : String) (own : Set Revision) (label : Label Key σ δ γ) : Prop :=
  ∀ entry ∈ revisions label, entry.1 = roomId ↔ entry.2 ∈ own

variable {roomId : String}

theorem divided_of_apart {labels : List (Label Key σ δ γ)} (h : Apart roomId labels) :
    ∀ label ∈ labels, Divided roomId
      {revision | (roomId, revision) ∈ labels.flatMap SchedulerRooms.revisions} label := by
  intro label hLabel entry hEntry
  have hListed : entry ∈ labels.flatMap SchedulerRooms.revisions :=
    List.mem_flatMap.mpr ⟨label, hLabel, hEntry⟩
  constructor
  · rintro rfl
    exact hListed
  · intro hOwn
    by_contra hOther
    exact h _ hOwn entry hListed rfl hOther rfl

theorem Divided.own {own : Set Revision} (h : Divided roomId own (.tick roomId tick)) :
    ∀ taskId ∈ runnableIds tick.scheduler tick.input.snapshot, ∀ task,
      taskWith tick.input.snapshot taskId = some task → revisionOf task ∈ own := by
  intro taskId hId task hTask
  exact (h (roomId, revisionOf task)
    (List.mem_map_of_mem (mem_runnableTasks hId hTask))).mp rfl

theorem Divided.other {room : String} {own : Set Revision}
    (h : Divided roomId own (.tick room tick)) (hRoom : room ≠ roomId) :
    ∀ taskId ∈ runnableIds tick.scheduler tick.input.snapshot, ∀ task,
      taskWith tick.input.snapshot taskId = some task → revisionOf task ∉ own := by
  intro taskId hId task hTask hOwn
  exact hRoom ((h (room, revisionOf task)
    (List.mem_map_of_mem (mem_runnableTasks hId hTask))).mpr hOwn)

theorem bounded_of_le {tracked : Finset Revision} (h : tracked.card ≤ maxAttemptedTracked) :
    bounded tracked = tracked := by
  rw [bounded, if_neg (not_lt.mpr h)]

variable {outcomes : Nat → Nat → OrchestrationOutcome}

theorem ComesOut.of_append {handed later : List (List HandOver)}
    (h : ComesOut outcomes (handed ++ later)) :
    ComesOut outcomes handed := by
  intro index handOvers hIndex
  refine h index handOvers ?_
  obtain ⟨hLt, -⟩ := List.getElem?_eq_some_iff.mp hIndex
  rw [List.getElem?_append_left hLt, hIndex]

/-- The room's ticks in the shared scheduler hand over what its own scheduler does. The sets agree
on the room's revisions. -/
theorem room_isolated {own : Set Revision} {labels : List (Label Key σ δ γ)} {s : State σ δ γ}
    (run : Run (fun s label => WithinBound s label ∧ Divided roomId own label)
      (step crypto regexNew order) (start t) labels s)
    (hOutcomes : ComesOut outcomes (roomHandOvers roomId s)) :
    roomHandOvers roomId s = (isolatedRun outcomes (roomInputs roomId labels)).1 ∧
      Agree own s.ticks.attempted (isolatedRun outcomes (roomInputs roomId labels)).2 := by
  induction run with
  | nil => exact ⟨rfl, fun _ _ => Iff.rfl⟩
  | @snoc middle labels label prior allowed ih =>
    obtain ⟨hBound, hDivided⟩ := allowed
    cases label with
    | pass =>
      obtain ⟨hHanded, hAgree⟩ := ih hOutcomes
      have hSame : roomInputs roomId (labels ++ [.pass]) = roomInputs roomId labels := by
        simp [roomInputs]
      rw [hSame]
      refine ⟨hHanded, ?_⟩
      simp only [step, bounded_of_le hBound]
      exact hAgree
    | tick room tick =>
      by_cases hRoom : room = roomId
      · subst hRoom
        have hInputs : roomInputs room (labels ++ [.tick room tick]) =
            roomInputs room labels ++ [(tick.scheduler, tick.input.snapshot)] := by
          simp [roomInputs]
        have hRoomHanded : roomHandOvers room (step crypto regexNew order middle
            (.tick room tick)) = roomHandOvers room middle ++
              [tickHandOvers crypto regexNew order middle.ticks tick] := by
          simp [roomHandOvers, step]
        rw [hRoomHanded] at hOutcomes
        obtain ⟨hHanded, hAgree⟩ := ih hOutcomes.of_append
        have hCount : (isolatedRun outcomes (roomInputs room labels)).1.length =
            (roomHandOvers room middle).length := by
          rw [← hHanded]
        have hComesOut := hOutcomes (roomHandOvers room middle).length
          (tickHandOvers crypto regexNew order middle.ticks tick) (by simp)
        obtain ⟨hLoop, hLast⟩ := (tick_loop middle.ticks tick).isolated hDivided.own
          hComesOut hAgree
        rw [hInputs, isolatedRun, List.foldl_concat, ← isolatedRun, isolatedStep, hCount]
        refine ⟨?_, hLast⟩
        rw [hRoomHanded]
        exact congrArg₂ (· ++ [·]) hHanded hLoop
      · have hInputs : roomInputs roomId (labels ++ [.tick room tick]) =
            roomInputs roomId labels := by
          simp [roomInputs, hRoom]
        have hRoomHanded : roomHandOvers roomId (step crypto regexNew order middle
            (.tick room tick)) = roomHandOvers roomId middle := by
          simp [roomHandOvers, step, hRoom]
        rw [hRoomHanded] at hOutcomes
        obtain ⟨hHanded, hAgree⟩ := ih hOutcomes
        rw [hInputs, hRoomHanded]
        exact ⟨hHanded, (tick_loop middle.ticks tick).other (hDivided.other hRoom) hAgree⟩

/-- Two runs of the scheduler loop in which a room has the same schedulers and snapshots, and its
own tasks come out the same, hand over the same tasks of that room, if no other room has a runnable
task of the same id and revision and the attempted set stays within its bound. -/
theorem rooms_independent {roomId : String} {first second : TickState σ δ γ}
    {labels others : List (Label Key σ δ γ)} {s u : State σ δ γ}
    {outcomes : Nat → Nat → OrchestrationOutcome}
    (run : Run WithinBound (step crypto regexNew order) (start first) labels s)
    (other : Run WithinBound (step crypto regexNew order) (start second) others u)
    (hApart : Apart roomId labels) (hOtherApart : Apart roomId others)
    (hInputs : roomInputs roomId labels = roomInputs roomId others)
    (hOutcomes : ComesOut outcomes (roomHandOvers roomId s))
    (hOtherOutcomes : ComesOut outcomes (roomHandOvers roomId u)) :
    handedTasks roomId s = handedTasks roomId u := by
  obtain ⟨hFirst, -⟩ := room_isolated (run.restrict (divided_of_apart hApart)) hOutcomes
  obtain ⟨hSecond, -⟩ := room_isolated (other.restrict (divided_of_apart hOtherApart))
    hOtherOutcomes
  rw [handedTasks, handedTasks, hFirst, hSecond, hInputs]

section SharedId

open ApprovalRooms TaskAuthorizations

def roomTick (roomId : String) (stateRev : Nat) : Label String Unit Unit GateState :=
  .tick roomId (tickOver acceptingStore [taskOf buildAction stateRev])

def afterLabels (labels : List (Label String Unit Unit GateState)) : State Unit Unit GateState :=
  labels.foldl (SchedulerRooms.step namedKeys (fun _ => none) .byNonce)
    (SchedulerRooms.start firstTick)

def completes : Nat → Nat → OrchestrationOutcome :=
  fun _ _ => .completed "task-1" "inv-1" stateSucceeded

theorem comesOut_singleton {handed : List HandOver}
    (h : ∀ handOver ∈ handed, handOver.outcome = outcomes 0 handOver.turn) :
    ComesOut outcomes [handed] := by
  intro index handOvers hIndex
  cases index with
  | zero =>
    cases hIndex
    exact h
  | succ index => cases hIndex

def labHanded : List HandOver := [⟨0, taskOf buildAction 1, completes 0 0⟩]

/-- In another room the same task has come to another revision. -/
theorem rooms_independent_apart :
    handedTasks labRoom (afterLabels [.pass, roomTick opsRoom 2, roomTick labRoom 1]) =
      handedTasks labRoom (afterLabels [roomTick labRoom 1]) := by
  have hBoth : roomHandOvers labRoom
      (afterLabels [.pass, roomTick opsRoom 2, roomTick labRoom 1]) = [labHanded] := by
    decide +kernel
  have hAlone : roomHandOvers labRoom (afterLabels [roomTick labRoom 1]) = [labHanded] := by
    decide +kernel
  have hOutcomes : ComesOut completes [labHanded] := comesOut_singleton (by decide)
  exact rooms_independent (Allowed.run (by decide +kernel)) (Allowed.run (by decide +kernel))
    (by decide +kernel) (by decide +kernel) rfl (hBoth ▸ hOutcomes) (hAlone ▸ hOutcomes)

/-- Another room has a task of the same id and revision: the lab's task is not handed over. -/
theorem room_starved :
    ¬ ∀ (crypto : Crypto String) (regexNew : RegexNew) (order : EvictionOrder) (roomId : String)
        (first second : TickState Unit Unit GateState)
        (labels others : List (Label String Unit Unit GateState)) (s u : State Unit Unit GateState)
        (outcomes : Nat → Nat → OrchestrationOutcome),
        Run SchedulerRooms.AnyTime (SchedulerRooms.step crypto regexNew order)
          (SchedulerRooms.start first) labels s →
        Run SchedulerRooms.AnyTime (SchedulerRooms.step crypto regexNew order)
          (SchedulerRooms.start second) others u →
        roomInputs roomId labels = roomInputs roomId others →
        ComesOut outcomes (roomHandOvers roomId s) → ComesOut outcomes (roomHandOvers roomId u) →
        handedTasks roomId s = handedTasks roomId u := by
  intro hClaim
  have hBoth : roomHandOvers labRoom (afterLabels [roomTick opsRoom 1, roomTick labRoom 1]) =
      [[]] := by
    decide +kernel
  have hAlone : roomHandOvers labRoom (afterLabels [roomTick labRoom 1]) = [labHanded] := by
    decide +kernel
  have hSame := hClaim namedKeys (fun _ => none) .byNonce labRoom firstTick firstTick
    [roomTick opsRoom 1, roomTick labRoom 1] [roomTick labRoom 1]
    (afterLabels [roomTick opsRoom 1, roomTick labRoom 1]) (afterLabels [roomTick labRoom 1])
    completes (Allowed.run ⟨trivial, trivial, trivial⟩) (Allowed.run ⟨trivial, trivial⟩) rfl
    (hBoth ▸ comesOut_singleton (by simp)) (hAlone ▸ comesOut_singleton (by decide))
  rw [handedTasks, handedTasks, hBoth, hAlone] at hSame
  cases hSame

end SharedId

end MxAgent.System.SchedulerRooms
