import MxAgent.Daemon.ApprovalGate

/-! What the approval gate of the task scheduler leaves alone. The queue is one
list for all rooms, for task holds and for live holds, keyed by request id; the
gate works under the id of its task and does not look at whose entry it finds
there. -/
namespace MxAgent.System.GateFrame

open Protocol Daemon KeyedQueue QueueApprovalGate

/-- An entry the gate may work on: of its own room, holding no live request. -/
def own (gate : QueueApprovalGate) (pending : PendingApproval) : Bool :=
  pending.roomId == gate.roomId && pending.heldRequest.isNone

def foreign (gate : QueueApprovalGate) (pending : PendingApproval) : Bool := !own gate pending

theorem own_taskHold (gate : QueueApprovalGate) (request : ApprovalRequest) :
    own gate (gate.taskHold request) := by
  simp [own, taskHold]

variable {order : EvictionOrder} {gate : QueueApprovalGate} {env : ProcessEnv}

theorem admitDecisionNonce_withQueue (decision : ApprovalDecision) (s : GateState)
    (queue : ApprovalQueue) (replay : Option ReplayHandle) :
    gate.admitDecisionNonce order env decision { s with queue } replay =
      ((gate.admitDecisionNonce order env decision s replay).1,
        { (gate.admitDecisionNonce order env decision s replay).2.1 with queue },
        (gate.admitDecisionNonce order env decision s replay).2.2) := by
  unfold admitDecisionNonce
  split
  · rfl
  · split
    · split <;> rfl
    · rfl

inductive Edit (gate : QueueApprovalGate) (task : TaskState) :
    (ApprovalQueue → ApprovalQueue) → Prop
  | remove : Edit gate task fun queue => queue.remove (taskApprovalId task)
  | put (request : ApprovalRequest) (h : request.requestId = taskApprovalId task) :
      Edit gate task fun queue => queue.put (gate.taskHold request)

/-- The answer depends on the queue only through the task's deadline. -/
theorem evaluate_withQueue (order : EvictionOrder) (gate : QueueApprovalGate) (env : ProcessEnv)
    (task : TaskState) (action : TaskAction) (s : GateState) (queue : ApprovalQueue)
    (replay : Option ReplayHandle)
    (h : queue.get (taskApprovalId task) = s.queue.get (taskApprovalId task)) :
    ∃ edit, Edit gate task edit ∧
      (gate.evaluate order env task action s replay).2.1.queue = edit s.queue ∧
      gate.evaluate order env task action { s with queue } replay =
        ((gate.evaluate order env task action s replay).1,
          { (gate.evaluate order env task action s replay).2.1 with queue := edit queue },
          (gate.evaluate order env task action s replay).2.2) := by
  cases hDecision : gate.resolveDecision (taskApprovalId task) with
  | none =>
    have hDeadline : deadline queue
        (taskApprovalRequest task action gate.targetAgent gate.expiresAt) =
      deadline s.queue (taskApprovalRequest task action gate.targetAgent gate.expiresAt) := by
      rw [deadline, deadline, taskApprovalRequest_requestId, h]
    simp only [evaluate, taskApprovalRequest_requestId, hDecision, hDeadline]
    split
    · exact ⟨_, .remove, rfl, rfl⟩
    · exact ⟨_, .put _ rfl, rfl, rfl⟩
  | some decision =>
    cases hPermits : decisionPermitsSpawn decision with
    | false =>
      simp only [evaluate, taskApprovalRequest_requestId, hDecision, hPermits,
        Bool.false_eq_true, if_false]
      exact ⟨_, .remove, rfl, rfl⟩
    | true =>
      have hWith : gate.admitDecisionNonce order env decision { s with queue } replay = _ :=
        admitDecisionNonce_withQueue decision s queue replay
      rcases hAdmit : gate.admitDecisionNonce order env decision s replay with ⟨_ | _, last, cache⟩
      all_goals
        rw [hAdmit] at hWith
        rw [evaluate_permitted hDecision hPermits hAdmit,
          evaluate_permitted hDecision hPermits hWith]
      · exact ⟨_, .put _ rfl, rfl, rfl⟩
      · exact ⟨_, .remove, rfl, rfl⟩

section Items

variable {task : TaskState} {queue : ApprovalQueue} {edit : ApprovalQueue → ApprovalQueue}

theorem own_of_mem (h : ∀ pending, queue.get (taskApprovalId task) = some pending →
    own gate pending) :
    ∀ old ∈ queue.items, old.requestId = taskApprovalId task → own gate old :=
  fun old hOld hKey => h old (Queue.get_eq_some_iff.mpr ⟨hOld, hKey⟩)

/-- An edit over an own entry, or none, leaves the foreign ones. -/
theorem Edit.foreign_items (hEdit : Edit gate task edit)
    (h : ∀ pending, queue.get (taskApprovalId task) = some pending → own gate pending) :
    (edit queue).items.filter (foreign gate) = queue.items.filter (foreign gate) := by
  have hOld : ∀ old ∈ queue.items, old.requestId = taskApprovalId task →
      foreign gate old = false := fun old hMem hKey => by
    rw [foreign, own_of_mem h old hMem hKey, Bool.not_true]
  cases hEdit with
  | remove => exact filter_removeKey_of_not queue.distinct hOld
  | put request hId =>
    apply filter_putItem_of_not
    · rw [foreign, own_taskHold, Bool.not_true]
    · intro old hMem hKey
      exact hOld old hMem (hKey.trans hId)

/-- The same edit on the own entries alone. -/
theorem Edit.own_items (hEdit : Edit gate task edit)
    (h : ∀ pending, queue.get (taskApprovalId task) = some pending → own gate pending) :
    (edit queue).items.filter (own gate) = (edit (queue.filter (own gate))).items := by
  cases hEdit with
  | remove => exact filter_removeKey queue.distinct
  | put request hId =>
    apply filter_putItem (own_taskHold gate request)
    intro old hMem hKey
    exact own_of_mem h old hMem (hKey.trans hId)

/-- After an edit there is no foreign entry under the id of the task. -/
theorem Edit.own_after (hEdit : Edit gate task edit) {pending : PendingApproval}
    (h : (edit queue).get (taskApprovalId task) = some pending) : own gate pending := by
  cases hEdit with
  | remove =>
    rw [Queue.get_remove, if_pos rfl] at h
    cases h
  | put request hId =>
    have hKey : (gate.taskHold request).requestId = taskApprovalId task := hId
    rw [Queue.get_put, if_pos hKey, Option.some.injEq] at h
    rw [← h, own_taskHold]

end Items

/-- The gate touched only its own entries, and answered as if there were no others. -/
structure Framed (order : EvictionOrder) (gate : QueueApprovalGate) (env : ProcessEnv)
    (task : TaskState) (action : TaskAction) (s : GateState) (replay : Option ReplayHandle) :
    Prop where
  untouched : (gate.evaluate order env task action s replay).2.1.queue.items.filter
      (foreign gate) = s.queue.items.filter (foreign gate)
  answer : gate.evaluate order env task action { s with queue := s.queue.filter (own gate) }
      replay =
    ((gate.evaluate order env task action s replay).1,
      { (gate.evaluate order env task action s replay).2.1 with
        queue := (gate.evaluate order env task action s replay).2.1.queue.filter (own gate) },
      (gate.evaluate order env task action s replay).2.2)

/-- The gate keeps to its own entries exactly when no foreign one is queued under its task's id. -/
theorem framed_iff_no_collision (order : EvictionOrder) (gate : QueueApprovalGate)
    (env : ProcessEnv) (task : TaskState) (action : TaskAction) (s : GateState)
    (replay : Option ReplayHandle) :
    Framed order gate env task action s replay ↔
      ∀ pending ∈ s.queue.items, foreign gate pending →
        pending.requestId ≠ taskApprovalId task := by
  have hOwn : (∀ pending ∈ s.queue.items, foreign gate pending →
      pending.requestId ≠ taskApprovalId task) ↔
      ∀ pending, s.queue.get (taskApprovalId task) = some pending → own gate pending := by
    constructor
    · intro h pending hGet
      obtain ⟨hMem, hKey⟩ := Queue.get_eq_some_iff.mp hGet
      by_contra hForeign
      exact h pending hMem (by simpa [foreign] using hForeign) hKey
    · intro h pending hMem hForeign hKey
      have hPending := own_of_mem h pending hMem hKey
      rw [foreign, hPending] at hForeign
      cases hForeign
  rw [hOwn]
  constructor
  · intro hFramed pending hGet
    obtain ⟨edit, hEdit, hQueue, -⟩ :=
      evaluate_withQueue order gate env task action s s.queue replay rfl
    obtain ⟨hMem, hKey⟩ := Queue.get_eq_some_iff.mp hGet
    have hUntouched := hFramed.untouched
    rw [hQueue] at hUntouched
    by_contra hOther
    have hForeign : foreign gate pending := by simpa [foreign] using hOther
    have hStays : pending ∈ (edit s.queue).items.filter (foreign gate) := by
      rw [hUntouched]
      exact List.mem_filter.mpr ⟨hMem, hForeign⟩
    exact hOther (hEdit.own_after
      (Queue.get_eq_some_iff.mpr ⟨(List.mem_filter.mp hStays).1, hKey⟩))
  · intro h
    obtain ⟨edit, hEdit, hQueue, hAlone⟩ := evaluate_withQueue order gate env task action s
      (s.queue.filter (own gate)) replay (Queue.get_filter _ _ h)
    refine ⟨?_, ?_⟩
    · rw [hQueue]
      exact hEdit.foreign_items h
    · have hItems : (edit s.queue).filter (own gate) = edit (s.queue.filter (own gate)) := by
        have hList := hEdit.own_items h
        rw [Queue.filter]
        congr 1
      rw [hAlone, hQueue, hItems]

/-- A call by another room's member, under an id of their choice, held until a second after the
epoch. -/
def heldCall : PendingApproval where
  roomId := "!other:host"
  request :=
    { requestId := "approval:task_1", invocationId := "inv_1", requester := "@caller",
      target := "@builder", summary := "Call tool deploy", risk := "high",
      expiresAt := "1970-01-01T00:00:01Z", extra := ∅ }
  heldRequest := some (.call
    { invocationId := "inv_1", requestId := "approval:task_1", tool := "deploy", args := .null,
      createdAt := "1970-01-01T00:00:00Z", expiresAt := "1970-01-01T00:00:01Z", nonce := "n",
      signature := ⟨algEd25519, "key", "c2ln"⟩, requestingAgent := some "@caller",
      targetAgent := some "@builder", extra := ∅,
      extra_fresh := fun _ _ => Std.ExtTreeMap.not_mem_empty })
  requesterUser := some "@caller:host"

def buildTask : TaskState where
  taskId := "task_1"
  title := "build"
  description := ""
  state := "pending"
  assignedTo := "@builder"
  createdBy := "@planner"
  dependsOn := []
  blocks := []
  invocationId := none
  createdAt := "1970-01-01T00:00:00Z"
  updatedAt := "1970-01-01T00:00:00Z"
  stateRev := 1
  previousEventId := none
  result := none
  action := none
  extra := ∅

/-- A gate of the room ten seconds after the epoch, with no decision. -/
def roomGate : QueueApprovalGate where
  roomId := "!build:host"
  targetAgent := "@builder"
  expiresAt := "1970-01-01T01:00:10Z"
  nowUnix := 10
  cached := false
  resolveDecision _ := none

def quietEnv : ProcessEnv := ⟨"", "", 0, .ok (), 0, .ok (), .ok (), .ok ()⟩

/-- The gate drops a held call of another room and answers by its deadline; else the task would
wait. -/
theorem held_call_dropped :
    foreign roomGate heldCall ∧
    (roomGate.evaluate .byNonce quietEnv buildTask (.tool "run_tests" .null none)
        ⟨Queue.empty.put heldCall, none⟩ none).1 = .expired "approval:task_1" ∧
    (roomGate.evaluate .byNonce quietEnv buildTask (.tool "run_tests" .null none)
        ⟨Queue.empty.put heldCall, none⟩ none).2.1.queue.items = [] ∧
    (roomGate.evaluate .byNonce quietEnv buildTask (.tool "run_tests" .null none)
        ⟨Queue.empty, none⟩ none).1 = .pending "approval:task_1" := by
  decide +kernel

end MxAgent.System.GateFrame
