import MxAgent.System.AnnouncedHolds

/-! What a failed read costs the approval queue. Every live handler that changes the queue
loads the file, changes one entry and writes the whole queue back, and takes a file it cannot
read for an empty one. So a failed read followed by a write drops all other entries. -/
namespace MxAgent.System.FailedReads

open Protocol Daemon LiveEvent

def requestId : LiveEvent → String
  | .execRequest _ _ request => request.requestId
  | .callRequest _ _ request => request.requestId
  | .approvalDecision _ _ decision => decision.requestId

/-- How the load before the write goes. A decision loads the queue twice. -/
def lastRead : LiveEvent → IoResult
  | .execRequest env _ _ | .callRequest env _ _ => env.queueRead
  | .approvalDecision env _ _ => env.queueReload

section Writes

variable {Key : Type} (crypto : Crypto Key) (regexNew : RegexNew) (order : EvictionOrder)

/-- The handler gets as far as writing the queue: it holds the request, or removes the hold. -/
def writesQueue (s : LiveState) : LiveEvent → Bool
  | .execRequest env eventMeta request =>
    (env.room eventMeta.roomId).any (isLocalTarget env · request.targetAgent) &&
      env.signingKey && request.idempotencyKey == "exec:" ++ request.invocationId &&
      !env.liveExecControl request.invocationId &&
      needsApproval crypto regexNew (.execRequest env eventMeta request)
  | .callRequest env eventMeta request =>
    request.requestingAgent.isSome &&
      (request.targetAgent.any fun targetAgent =>
        (env.room eventMeta.roomId).any (isLocalTarget env · targetAgent)) &&
      env.signingKey && needsApproval crypto regexNew (.callRequest env eventMeta request)
  | .approvalDecision env eventMeta decision =>
    (liveHold env s.file decision).isSome &&
      (decisionRoom crypto env eventMeta decision).isSome &&
      (burnDecisionNonce order s.router decision env.now env.replayWrite s.replayDisk).1

def Concerns (requestId : String) (change : ApprovalQueue → ApprovalQueue) : Prop :=
  ∀ queue other, other ≠ requestId → (change queue).get other = queue.get other

/-- What an event makes of the queue file: nothing, or the queue as last loaded with one entry
changed. -/
structure Rewrites (s : LiveState) (event : LiveEvent) (after : QueueFile) : Prop where
  idle : writesQueue crypto regexNew order s event = false → after = s.file
  written : writesQueue crypto regexNew order s event → ∃ change,
    Concerns (requestId event) change ∧
      after = ApprovalQueue.save (change (ApprovalQueue.loadOrDefault s.file (lastRead event)))
        event.env.queueWrite s.file

variable {crypto regexNew order}

theorem Rewrites.of_idle {s : LiveState} {event : LiveEvent}
    (h : writesQueue crypto regexNew order s event = false) :
    Rewrites crypto regexNew order s event s.file :=
  ⟨fun _ => rfl, fun hWrites => by simp [h] at hWrites⟩

theorem Rewrites.of_written {s : LiveState} {event : LiveEvent}
    {change : ApprovalQueue → ApprovalQueue}
    (h : writesQueue crypto regexNew order s event)
    (hChange : Concerns (requestId event) change) :
    Rewrites crypto regexNew order s event
      (ApprovalQueue.save (change (ApprovalQueue.loadOrDefault s.file (lastRead event)))
        event.env.queueWrite s.file) :=
  ⟨fun hIdle => by simp [h] at hIdle, fun _ => ⟨change, hChange, rfl⟩⟩

theorem concerns_put {pending : PendingApproval} {requestId : String}
    (h : pending.requestId = requestId) : Concerns requestId fun queue => queue.put pending := by
  intro queue other hOther
  rw [KeyedQueue.Queue.get_put, if_neg]
  exact fun hSame => hOther (hSame.symm.trans h)

theorem concerns_remove (requestId : String) :
    Concerns requestId fun queue => queue.remove requestId := by
  intro queue other hOther
  rw [KeyedQueue.Queue.get_remove, if_neg hOther]

theorem requestId_of_request {event : LiveEvent} {held : HeldRequest}
    (h : event.request = some held) :
    held.requestId = requestId event ∧ event.env.queueRead = lastRead event := by
  cases event <;> cases h <;> exact ⟨rfl, rfl⟩

theorem rewrites_request {s : LiveState} {event : LiveEvent}
    (h : HeldIf crypto regexNew order event s (writesQueue crypto regexNew order s event)) :
    Rewrites crypto regexNew order s event (event.handle crypto regexNew order s).1.file := by
  rcases h with ⟨hIdle, hSame⟩ | ⟨hWrites, pending, held, hHeld⟩
  · rw [hSame.state]
    exact .of_idle hIdle
  · obtain ⟨hId, hRead⟩ := requestId_of_request hHeld.request
    rw [hHeld.state]
    dsimp only
    rw [enqueueHold, hRead]
    exact .of_written hWrites (concerns_put (hHeld.hold.requestId.trans hId))

theorem rewrites_decision (s : LiveState) (env : LiveEnv) (eventMeta : EventMeta)
    (decision : ApprovalDecision) :
    Rewrites crypto regexNew order s (.approvalDecision env eventMeta decision)
      (handleLiveApprovalDecision crypto regexNew order env s eventMeta decision).1.file := by
  unfold handleLiveApprovalDecision
  cases hHold : liveHold env s.file decision with
  | none => exact .of_idle (by simp [writesQueue, hHold])
  | some hold =>
    cases hRoom : decisionRoom crypto env eventMeta decision with
    | none => exact .of_idle (by simp [writesQueue, hRoom])
    | some room =>
      dsimp only
      split
      · rename_i hBurned
        exact .of_idle (by simpa [writesQueue, hHold, hRoom] using hBurned)
      · rename_i hBurned
        have hWrites : writesQueue crypto regexNew order s
            (.approvalDecision env eventMeta decision) := by
          simpa [writesQueue, hHold, hRoom] using hBurned
        exact .of_written hWrites (concerns_remove decision.requestId)

theorem rewrites_handle (s : LiveState) (event : LiveEvent) :
    Rewrites crypto regexNew order s event (event.handle crypto regexNew order s).1.file := by
  cases event with
  | execRequest env eventMeta request =>
    exact rewrites_request (handle_execRequest env eventMeta request s)
  | callRequest env eventMeta request =>
    exact rewrites_request (handle_callRequest env eventMeta request s)
  | approvalDecision env eventMeta decision => exact rewrites_decision s env eventMeta decision

/-- Whether other requests' entries survive a change of the queue depends on the read before it. -/
theorem save_spares_iff {requestId : String} {change : ApprovalQueue → ApprovalQueue}
    (h : Concerns requestId change) (file : QueueFile) (read write : IoResult) :
    (∀ other ≠ requestId, (ApprovalQueue.save (change (ApprovalQueue.loadOrDefault file read)) write
        file).queue.get other = file.queue.get other) ↔
      (write = .ok () → read ≠ .ok () → ∀ other ≠ requestId, file.queue.get other = none) := by
  cases write with
  | error kind => simp
  | ok written =>
    cases written
    cases read with
    | error kind =>
      have hEmpty : ApprovalQueue.loadOrDefault file (.error kind) = ApprovalQueue.default := by
        cases kind <;> rfl
      have hGone (other : String) : ApprovalQueue.default.get other = none := rfl
      simp only [ApprovalQueue.queue_save_ok, hEmpty, ne_eq, reduceCtorEq, not_false_eq_true,
        forall_const]
      refine forall₂_congr fun other hOther => ?_
      rw [h _ other hOther, hGone, eq_comm]
    | ok done =>
      cases done
      simpa using fun other hOther => h file.queue other hOther

end Writes

/-- An event leaves the stored entries of all other requests alone exactly when it does not write
the queue, or cannot, or could read it before, or there are none. -/
theorem queue_survives_iff {Key : Type} (crypto : Crypto Key) (regexNew : RegexNew)
    (order : EvictionOrder) (s : LiveState) (event : LiveEvent) :
    (∀ other ≠ requestId event, (event.handle crypto regexNew order s).1.file.queue.get other =
        s.file.queue.get other) ↔
      (writesQueue crypto regexNew order s event → event.env.queueWrite = .ok () →
        lastRead event ≠ .ok () → ∀ other ≠ requestId event, s.file.queue.get other = none) := by
  obtain ⟨hIdle, hWritten⟩ : Rewrites crypto regexNew order s event _ := rewrites_handle s event
  cases hWrites : writesQueue crypto regexNew order s event with
  | false => simp [hIdle hWrites]
  | true =>
    obtain ⟨change, hChange, hAfter⟩ := hWritten hWrites
    rw [hAfter, save_spares_iff hChange]
    simp

section Lost

open ApprovalRooms AnnouncedHolds

def holdOf (requestId : String) : PendingApproval :=
  let request := { buildRequest ["make", "docs"] with requestId }
  ⟨labRoom, approvalRequestFor request Allowance.empty, some (.exec request),
    some "@runner:example.org"⟩

def holdingTwo : LiveState :=
  { holding (holdOf "req-1") with
    file := .stored ((ApprovalQueue.default.put (holdOf "req-1")).put (holdOf "req-2")) }

def heldUnread : LiveEvent :=
  .execRequest { labEnv noon with queueRead := .error .other }
    ⟨"com.mxagent.exec.request.v1", labRoom, "@runner:example.org", none, none⟩
    { deployRequest with requestId := "req-3" }

def decidedUnread : LiveEvent :=
  .approvalDecision { labEnv noon with queueReload := .error .other }
    (decisionMeta labRoom "@lead:example.org") leadApproves

def keptIds (event : LiveEvent) (ids : List String) : List String :=
  ids.filter fun requestId => ((event.handle namedKeys (fun _ => none) .byNonce
    holdingTwo).1.file.queue.get requestId).isSome

/-- The hold and the decision drop what they could not read. -/
theorem unread_queue_lost :
    (["req-1", "req-2"].all fun requestId =>
      (holdingTwo.file.queue.get requestId).isSome) ∧
    keptIds heldUnread ["req-1", "req-2", "req-3"] = ["req-3"] ∧
    keptIds decidedUnread ["req-1", "req-2", "req-3"] = [] := by
  decide +kernel

end Lost

end MxAgent.System.FailedReads
