import MxAgent.Foundations.EditHistory
import MxAgent.System.ExpiredHolds
import MxAgent.System.TaskApprovals

/-! Updates of the approval queue file. A live handler changes one entry of the file;
a pass that has changed its copy writes the whole copy over it. What a handler has changed
since the pass loaded the file is then undone. -/
namespace MxAgent.System.QueueUpdates

open Protocol Daemon LabelledRun QueuePasses EditHistory
open TaskOrchestrator (GateAnswer answers)

abbrev QueueEdit := Edit PendingApproval String

abbrev QueueKept (history : List QueueEdit) (queue : ApprovalQueue) : Prop :=
  Kept PendingApproval.requestId history queue.get

def answerEdit (answer : GateAnswer) : QueueEdit :=
  match answer.disposition with
  | .pending _ => .putCopy (taskApprovalId answer.task)
  | _ => .takeCopy (taskApprovalId answer.task)

/-- The daemon, its edits, newest first, and whether the stored queue was edited since the last pass
began. -/
structure Observed (σ δ : Type) where
  daemon : State σ δ
  history : List QueueEdit
  raced : Bool

section Step

variable {Key σ δ : Type} (crypto : Crypto Key) (regexNew : RegexNew) (order : EvictionOrder)

/-- A held request is put in the stored queue; an honoured decision takes its hold out. -/
def liveEdits (s : LiveState) (event : LiveEvent) : List QueueEdit :=
  let (after, effects) := event.handle crypto regexNew order s
  match event with
  | .approvalDecision _ _ decision => if effects.isEmpty then [] else [.take decision.requestId]
  | .execRequest .. | .callRequest .. =>
    ((effects.filterMap AnnouncedHolds.announcedId).filterMap after.file.queue.get).map .put

/-- An operator's decision on a task's request takes it out of the stored queue. -/
def decideEdits (s : State σ δ) (env : DecideEnv) (requestId : String) : List QueueEdit :=
  match s.stored.get requestId, (decideApprovalForSession env s.live.file requestId).1 with
  | some pending, some _ => if pending.heldRequest.isSome then [] else [.take requestId]
  | _, _ => []

def edits (s : State σ δ) (label : Label Key σ δ) : List QueueEdit :=
  match label, s.pass with
  | .live event, _ => liveEdits crypto regexNew order s.live event
  | .decide env requestId, _ => decideEdits s env requestId
  | .tick agent, some pass =>
    (answers (schedulerPassForAgent crypto regexNew order pass agent
      s.scheduler).2.world.log).map answerEdit
  | .sweep _ roomId, some pass =>
    ((expiredLiveHoldsInRoom s.copy roomId pass.nowUnix).filter
      fun pending => pending.heldRequest.isSome).map fun pending => .takeCopy pending.requestId
  | _, _ => []

def observe (s : Observed σ δ) (label : Label Key σ δ) : Observed σ δ where
  daemon := step crypto regexNew order s.daemon label
  history := (edits crypto regexNew order s.daemon label).reverse ++ s.history
  raced :=
    match label with
    | .begin .. => s.daemon.pass.isSome && s.raced
    | .live _ | .decide .. => s.raced || !(edits crypto regexNew order s.daemon label).isEmpty
    | .tick _ | .sweep .. | .finish _ => s.raced

def start (daemon : State σ δ) : Observed σ δ := ⟨daemon, [], false⟩

def Succeeds : Label Key σ δ → Prop
  | .live event => event.env.queueRead = .ok () ∧ event.env.queueReload = .ok () ∧
      event.env.queueWrite = .ok ()
  | .decide env _ => env.queueRead = .ok () ∧ env.queueWrite = .ok ()
  | .begin read _ _ => read = .ok ()
  | .finish write => write = .ok ()
  | .tick _ | .sweep .. => True

instance (label : Label Key σ δ) : Decidable (Succeeds label) :=
  match label with
  | .live _ | .decide .. => inferInstanceAs (Decidable (_ ∧ _))
  | .begin read _ _ => inferInstanceAs (Decidable (read = .ok ()))
  | .finish write => inferInstanceAs (Decidable (write = .ok ()))
  | .tick _ | .sweep .. => inferInstanceAs (Decidable True)

/-- A pass that has changed its copy finishes only if the stored queue was not edited since it
began. -/
def Unraced (s : Observed σ δ) : Label Key σ δ → Prop
  | .finish _ => ∀ pass ∈ s.daemon.pass, s.daemon.copy = pass.before ∨ s.raced = false
  | _ => True

instance (s : Observed σ δ) (label : Label Key σ δ) : Decidable (Unraced s label) :=
  match label with
  | .finish _ => inferInstanceAs (Decidable (∀ pass ∈ s.daemon.pass, _))
  | .live _ | .decide .. | .begin .. | .tick _ | .sweep .. => inferInstanceAs (Decidable True)

end Step

/-- The stored queue has kept every edit, and so has the pass's copy unless the stored queue was
edited since. -/
structure Consistent {σ δ : Type} (s : Observed σ δ) : Prop where
  stored : QueueKept s.history s.daemon.stored
  copy : s.daemon.pass.isSome → s.raced = false → QueueKept s.history s.daemon.copy

variable {Key σ δ : Type} {crypto : Crypto Key} {regexNew : RegexNew} {order : EvictionOrder}

variable {history : List QueueEdit} {queue : ApprovalQueue} {event : LiveEvent}

theorem QueueKept.put (h : QueueKept history queue) (hold : PendingApproval) :
    QueueKept (.put hold :: history) (queue.put hold) :=
  h.cons (by simp [Reflected, KeyedQueue.Queue.get_put]) fun other hOther =>
    (queue.get_put hold other).trans (if_neg hOther)

theorem QueueKept.take (h : QueueKept history queue) (requestId : String) :
    QueueKept (.take requestId :: history) (queue.remove requestId) :=
  h.cons (by simp [Reflected, KeyedQueue.Queue.get_remove]) fun other hOther =>
    (queue.get_remove requestId other).trans (if_neg (Ne.symm hOther))

theorem QueueKept.putCopy (h : QueueKept history queue) (hold : PendingApproval) :
    QueueKept (.putCopy hold.requestId :: history) (queue.put hold) :=
  h.cons (by simp [Reflected, KeyedQueue.Queue.get_put]) fun other hOther =>
    (queue.get_put hold other).trans (if_neg hOther)

theorem QueueKept.takeCopy (h : QueueKept history queue) (requestId : String) :
    QueueKept (.takeCopy requestId :: history) (queue.remove requestId) :=
  h.cons (by simp [Reflected, KeyedQueue.Queue.get_remove]) fun other hOther =>
    (queue.get_remove requestId other).trans (if_neg (Ne.symm hOther))

theorem QueueKept.removed (h : QueueKept history queue) (removed : List PendingApproval) :
    QueueKept ((removed.map fun pending => .takeCopy pending.requestId).reverse ++ history)
      (removed.foldl (fun queue pending => queue.remove pending.requestId) queue) := by
  induction removed generalizing history queue with
  | nil => exact h
  | cons pending rest ih => simpa using ih (h.takeCopy pending.requestId)

/-- After some answers of its gate, the copy has kept the edits they stand for. -/
def Answered (history : List QueueEdit) (state : GateState) (given : List GateAnswer) : Prop :=
  QueueKept ((given.map answerEdit).reverse ++ history) state.queue

theorem answered_evaluate {gate : QueueApprovalGate} {state : GateState} {given : List GateAnswer}
    (h : Answered history state given) (env : ProcessEnv) (task : TaskState) (action : TaskAction)
    (replay : Option ReplayHandle) :
    Answered history (gate.evaluate order env task action state replay).2.1
      (given ++ [⟨task, action, (gate.evaluate order env task action state replay).1⟩]) := by
  simp only [Answered, List.map_append, List.map_cons, List.map_nil, List.reverse_append,
    List.reverse_cons, List.reverse_nil, List.nil_append, List.cons_append]
  rcases gate.evaluate_queue task action state replay with
    ⟨requestId, hold, hPending, hId, hQueue⟩ | ⟨hSettled, hQueue⟩
  · rw [hQueue]
    simp only [answerEdit, hPending, ← hId]
    exact h.putCopy hold
  · rw [hQueue]
    have hEdit : ∀ disposition, (∀ requestId, disposition ≠ .pending requestId) →
        answerEdit ⟨task, action, disposition⟩ = .takeCopy (taskApprovalId task) := by
      rintro (_ | _ | requestId | _) hOther
      · rfl
      · rfl
      · exact absurd rfl (hOther requestId)
      · rfl
    rw [hEdit _ hSettled]
    exact h.takeCopy (taskApprovalId task)

/-- An agent's part of a pass edits the copy as its gate answers. -/
theorem QueueKept.ticked {t : TickState σ δ GateState} (h : QueueKept history t.world.gate.queue)
    (pass : Pass) (agent : PassAgent Key σ δ) :
    QueueKept
      (((answers (schedulerPassForAgent crypto regexNew order pass agent t).2.world.log).map
        answerEdit).reverse ++ history)
      (schedulerPassForAgent crypto regexNew order pass agent t).2.world.gate.queue := by
  have hTicked : Answered history
      (schedulerPassForAgent crypto regexNew order pass agent t).2.world.gate
      (answers (schedulerPassForAgent crypto regexNew order pass agent t).2.world.log) := by
    refine schedulerPassForAgent_gate pass agent ?_ (fun _ _ hGiven => hGiven) h
    intro env task _ action state replay given _ hGiven
    exact answered_evaluate hGiven env task action replay
  exact hTicked

theorem ofCopy_answerEdit (answer : GateAnswer) : (answerEdit answer).ofCopy := by
  unfold answerEdit
  split <;> rfl

theorem liveEdits_of_notHeld {s : LiveState} (hRequest : event.request.isSome)
    (h : LiveEvent.NotHeld s (event.handle crypto regexNew order s)) :
    liveEdits crypto regexNew order s event = [] := by
  have hSilent := AnnouncedHolds.announcedId_of_silent h.silent
  cases event with
  | approvalDecision => cases hRequest
  | execRequest | callRequest => simp [liveEdits, hSilent]

theorem liveEdits_of_held {s : LiveState} {hold : PendingApproval} {held : HeldRequest}
    (h : LiveEvent.Held event hold held s (event.handle crypto regexNew order s))
    (hRead : event.env.queueRead = .ok ()) (hWrite : event.env.queueWrite = .ok ()) :
    liveEdits crypto regexNew order s event = [.put hold] ∧
      (event.handle crypto regexNew order s).1.file.queue = s.file.queue.put hold := by
  have hQueue : (event.handle crypto regexNew order s).1.file.queue = s.file.queue.put hold := by
    simp [h.state, enqueueHold, hRead, hWrite]
  refine ⟨?_, hQueue⟩
  have hGet : (s.file.queue.put hold).get hold.request.requestId = some hold :=
    (s.file.queue.get_put hold hold.requestId).trans (if_pos rfl)
  have hRequest := h.request
  cases event with
  | approvalDecision => cases hRequest
  | execRequest | callRequest =>
    simp only [liveEdits, h.effects, List.filterMap_cons, AnnouncedHolds.announcedId,
      List.filterMap_nil, hQueue, hGet, List.map_cons, List.map_nil]

/-- The stored queue is left alone, or edited at one entry. -/
def EditsOnce (made : List QueueEdit) (before after : ApprovalQueue) : Prop :=
  (made = [] ∧ after = before) ∨ (∃ hold, made = [.put hold] ∧ after = before.put hold) ∨
    ∃ requestId, made = [.take requestId] ∧ after = before.remove requestId

theorem editsOnce_live (s : LiveState)
    (hIo : event.env.queueRead = .ok () ∧ event.env.queueReload = .ok () ∧
      event.env.queueWrite = .ok ()) :
    EditsOnce (liveEdits crypto regexNew order s event) s.file.queue
      (event.handle crypto regexNew order s).1.file.queue := by
  obtain ⟨hRead, hReload, hWrite⟩ := hIo
  rcases event.handle_cases crypto regexNew order s with ⟨env, eventMeta, decision, rfl⟩ |
    ⟨hRequest, hNot⟩ | ⟨-, hold, held, hHeld⟩
  · simp only [liveEdits, LiveEvent.handle]
    rcases handleLiveApprovalDecision_cases crypto regexNew order env s eventMeta decision with
      ⟨hFile, hEffects⟩ | ⟨pending, held, room, -, -, hFile, hEffects⟩
    · exact .inl ⟨by simp [hEffects], by rw [hFile]⟩
    · obtain ⟨effect, hEffect, -⟩ := exists_settleHold_held env room eventMeta.roomId decision
        held pending.requesterUser
      have hSome : (handleLiveApprovalDecision crypto regexNew order env s eventMeta
          decision).2.isEmpty = false := by
        rw [hEffects]
        exact List.isEmpty_eq_false_iff.mpr (List.ne_nil_of_mem hEffect)
      refine .inr (.inr ⟨decision.requestId, by simp [hSome], ?_⟩)
      have hReload : env.queueReload = .ok () := hReload
      have hWrite : env.queueWrite = .ok () := hWrite
      simp [hFile, removeHold, hReload, hWrite]
  · exact .inl ⟨liveEdits_of_notHeld hRequest hNot, by rw [hNot.state]⟩
  · exact .inr (.inl ⟨hold, liveEdits_of_held hHeld hRead hWrite⟩)

theorem editsOnce_decide (s : State σ δ) {env : DecideEnv} (requestId : String)
    (hIo : env.queueRead = .ok () ∧ env.queueWrite = .ok ()) :
    EditsOnce (decideEdits s env requestId) s.stored
      (decideApprovalForSession env s.live.file requestId).2.queue := by
  obtain ⟨hRead, hWrite⟩ := hIo
  unfold decideEdits
  rcases decideApprovalForSession_cases env s.live.file requestId with
    ⟨hFile, hNone | ⟨pending, hGet, hHeld⟩⟩ | ⟨queue, pending, hLoad, hGet, hHeld, hDecided⟩
  · refine .inl ⟨?_, by rw [hFile]; rfl⟩
    rw [hNone]
    cases s.stored.get requestId <;> rfl
  · refine .inl ⟨?_, by rw [hFile]; rfl⟩
    have hGet : s.stored.get requestId = some pending := hGet
    rw [hGet]
    cases (decideApprovalForSession env s.live.file requestId).1 <;> simp [hHeld]
  · refine .inr (.inr ⟨requestId, ?_⟩)
    have hGet : s.stored.get requestId = some pending := hGet
    rw [hRead] at hLoad
    rw [hDecided, hGet, ApprovalQueue.queue_of_load hLoad, hWrite]
    simp [hHeld, State.stored]

/-- An edit of the stored queue is a race, with nothing asked of the copy. -/
theorem Consistent.edited {s after : Observed σ δ} {made : List QueueEdit} (h : Consistent s)
    (hMade : EditsOnce made s.daemon.stored after.daemon.stored)
    (hHistory : after.history = made.reverse ++ s.history)
    (hPass : after.daemon.pass = s.daemon.pass) (hCopy : after.daemon.copy = s.daemon.copy)
    (hRaced : after.raced = (s.raced || !made.isEmpty)) : Consistent after := by
  constructor
  · rw [hHistory]
    rcases hMade with ⟨rfl, hStored⟩ | ⟨hold, rfl, hStored⟩ | ⟨requestId, rfl, hStored⟩ <;>
      rw [hStored]
    · exact h.stored
    · exact h.stored.put hold
    · exact h.stored.take requestId
  · intro hRunning hCalm
    rw [hRaced, Bool.or_eq_false_iff] at hCalm
    have hNone : made = [] := by simpa using hCalm.2
    rw [hHistory, hNone, hCopy]
    exact h.copy (hPass ▸ hRunning) hCalm.1

/-- What a pass does to its copy is no edit of the stored queue. -/
theorem Consistent.copied {s after : Observed σ δ} {made : List QueueEdit} (h : Consistent s)
    (hMade : ∀ edit ∈ made, edit.ofCopy)
    (hCopy : QueueKept s.history s.daemon.copy →
      QueueKept (made.reverse ++ s.history) after.daemon.copy)
    (hHistory : after.history = made.reverse ++ s.history)
    (hPass : after.daemon.pass = s.daemon.pass) (hStored : after.daemon.stored = s.daemon.stored)
    (hRaced : after.raced = s.raced) : Consistent after := by
  constructor
  · rw [hHistory, hStored]
    exact h.stored.unseen hMade
  · intro hRunning hCalm
    rw [hHistory]
    exact hCopy (h.copy (hPass ▸ hRunning) (hRaced ▸ hCalm))

theorem consistent_begin (s : Observed σ δ) (stampedAt : Nat) (nowUnix : Int)
    (h : Consistent s) :
    Consistent (observe crypto regexNew order s (.begin (.ok ()) stampedAt nowUnix)) := by
  cases hPass : s.daemon.pass with
  | some pass => simpa [observe, edits, step, hPass] using h
  | none =>
    refine ⟨?_, fun _ _ => ?_⟩ <;> simp only [observe, edits, step, hPass]
    · exact h.stored
    · have hLoaded : (Pass.load s.daemon.live.file (.ok ()) stampedAt nowUnix).before =
          s.daemon.stored := by
        simp [Pass.load, State.stored]
      rw [hLoaded]
      exact h.stored

theorem consistent_tick (s : Observed σ δ) (agent : PassAgent Key σ δ) (h : Consistent s) :
    Consistent (observe crypto regexNew order s (.tick agent)) := by
  cases hPass : s.daemon.pass with
  | none => simpa [observe, edits, step, hPass] using h
  | some pass =>
    have hStep : step crypto regexNew order s.daemon (.tick agent) = { s.daemon with
        scheduler := (schedulerPassForAgent crypto regexNew order pass agent
          s.daemon.scheduler).2 } := by
      simp only [step, hPass]
    have hEdits : edits crypto regexNew order s.daemon (.tick agent) =
        (answers (schedulerPassForAgent crypto regexNew order pass agent
          s.daemon.scheduler).2.world.log).map answerEdit := by
      simp only [edits, hPass]
    refine h.copied ?_ (fun hCopy => ?_) rfl ?_ ?_ rfl
    · rw [hEdits]
      simp [ofCopy_answerEdit]
    · simp only [observe, hStep, hEdits]
      exact hCopy.ticked pass agent
    · simp only [observe, hStep]
    · simp only [observe, hStep]
      rfl

theorem consistent_sweep (s : Observed σ δ) (env : LiveEnv) (roomId : String)
    (h : Consistent s) : Consistent (observe crypto regexNew order s (.sweep env roomId)) := by
  cases hPass : s.daemon.pass with
  | none => simpa [observe, edits, step, hPass] using h
  | some pass =>
    have hStep : step crypto regexNew order s.daemon (.sweep env roomId) = s.daemon.withCopy
        (sweepExpiredLiveHolds env roomId pass.nowUnix s.daemon.copy).1 := by
      simp only [step, hPass]
    refine h.copied ?_ (fun hCopy => ?_) rfl ?_ ?_ rfl
    · intro edit hEdit
      simp only [edits, hPass, List.mem_map] at hEdit
      obtain ⟨pending, -, rfl⟩ := hEdit
      rfl
    · simp only [observe, hStep, edits, hPass]
      have hSwept := hCopy.removed ((expiredLiveHoldsInRoom s.daemon.copy roomId
        pass.nowUnix).filter fun pending => pending.heldRequest.isSome)
      rw [← sweepLoop_queue env roomId] at hSwept
      exact hSwept
    · simp only [observe, hStep]
      rfl
    · simp only [observe, hStep]
      rfl

/-- The copy may replace the stored queue if it kept the same edits. -/
theorem consistent_finish (s : Observed σ δ) (h : Consistent s)
    (hUnraced : ∀ pass ∈ s.daemon.pass, s.daemon.copy = pass.before ∨ s.raced = false) :
    Consistent (observe crypto regexNew order s (.finish (.ok ()))) := by
  cases hPass : s.daemon.pass with
  | none => simpa [observe, edits, step, hPass] using h
  | some pass =>
    refine ⟨?_, ?_⟩ <;> simp only [observe, edits, step, hPass, Pass.save]
    · split
      · exact h.stored
      · rename_i hChanged
        have hCalm := (hUnraced pass hPass).resolve_left hChanged
        exact h.copy (by rw [hPass]; rfl) hCalm
    · intro hRunning
      cases hRunning

theorem consistent_step (s : Observed σ δ) (label : Label Key σ δ)
    (hGuard : Succeeds label ∧ Unraced s label) (h : Consistent s) :
    Consistent (observe crypto regexNew order s label) := by
  obtain ⟨hIo, hUnraced⟩ := hGuard
  cases label with
  | live event => exact h.edited (editsOnce_live s.daemon.live hIo) rfl rfl rfl rfl
  | decide env requestId =>
    exact h.edited (editsOnce_decide s.daemon requestId hIo) rfl rfl rfl rfl
  | begin read stampedAt nowUnix =>
    obtain rfl : read = .ok () := hIo
    exact consistent_begin s stampedAt nowUnix h
  | tick agent => exact consistent_tick s agent h
  | sweep env roomId => exact consistent_sweep s env roomId h
  | finish write =>
    obtain rfl : write = .ok () := hIo
    exact consistent_finish s h hUnraced

/-- If the queue file can be read and written, and no pass that has changed its copy finishes after
the stored queue was edited under it, the stored queue has kept every edit: a hold that was put
there and not taken out is there, and one that was taken out and not put back is not. -/
theorem no_lost_update {daemon : State σ δ} {labels : List (Label Key σ δ)} {s : Observed σ δ}
    (run : Run (fun s label => Succeeds label ∧ Unraced s label)
      (observe crypto regexNew order) (start daemon) labels s) :
    QueueKept s.history s.daemon.stored := by
  have hStart : Consistent (start daemon) := ⟨kept_nil _, fun _ _ => kept_nil _⟩
  have hConsistent : Consistent s := run.invariant hStart consistent_step
  exact hConsistent.stored

section LostHold

open ApprovalRooms AnnouncedHolds TaskAuthorizations
open TaskApprovals (labAgent)
open ExpiredHolds (docsHold)

def taskTick : Label String Unit Unit := .tick (labAgent "docs" 1)

def passBegins : Label String Unit Unit := .begin (.ok ()) 1780401660 1780401660

def afterLabels (labels : List (Label String Unit Unit)) : Observed Unit Unit :=
  labels.foldl (observe namedKeys (fun _ => none) .byNonce) (start ⟨idle, none, firstTick⟩)

def docsHeld : Label String Unit Unit := .live (requestEvent docsRequest)

/-- The pass begins when the request is already held. -/
theorem no_lost_update_in_turn :
    .put docsHold ∈ (afterLabels [docsHeld, passBegins, taskTick, .finish (.ok ())]).history ∧
      QueueKept (afterLabels [docsHeld, passBegins, taskTick, .finish (.ok ())]).history
        (afterLabels [docsHeld, passBegins, taskTick, .finish (.ok ())]).daemon.stored :=
  ⟨by decide +kernel, no_lost_update (Allowed.run (by decide +kernel))⟩

/-- A request is held during a pass that raises a task's request: the pass writes its copy back and
the hold is gone. -/
theorem live_hold_lost :
    ¬ ∀ (crypto : Crypto String) (regexNew : RegexNew) (order : EvictionOrder)
        (daemon : State Unit Unit) (labels : List (Label String Unit Unit))
        (s : Observed Unit Unit),
        Run (fun _ label => Succeeds label) (observe crypto regexNew order) (start daemon) labels
          s →
        s.daemon.pass = none → QueueKept s.history s.daemon.stored := by
  intro hClaim
  have hKept := hClaim namedKeys (fun _ => none) .byNonce ⟨idle, none, firstTick⟩
    [passBegins, docsHeld, taskTick, .finish (.ok ())]
    (afterLabels [passBegins, docsHeld, taskTick, .finish (.ok ())])
    (Allowed.run (by decide +kernel)) (by decide +kernel)
  have hPresent := hKept.present [.putCopy "approval:task-1"] [] docsHold (by decide +kernel)
    (by decide)
  revert hPresent
  decide +kernel

end LostHold

end MxAgent.System.QueueUpdates
