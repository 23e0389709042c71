import MxAgent.System.AnnouncedHolds

/-! The children of live exec requests. Each is spawned with control channels of its own,
which the registry keeps under the invocation id; when a child completes, the registry
entry of its invocation is removed. -/
namespace MxAgent.System.LiveChildren

open Protocol Daemon LabelledRun Std

/-- A running child. The token tells its control channels from those of any other. -/
structure Child where
  token : Nat
  invocationId : String
  deriving DecidableEq, Repr

structure Children where
  running : List Child
  controls : ExtTreeMap String Nat
  spawned : Nat

variable {children : Children}

namespace Children

def none : Children := ⟨[], ∅, 0⟩

def liveExecControl (children : Children) (invocationId : String) : Bool :=
  children.controls.contains invocationId

/-- `insert_live_exec_control` and the spawn of the run task. -/
def spawn (children : Children) (request : ExecRequest) : Children where
  running := ⟨children.spawned, request.invocationId⟩ :: children.running
  controls := children.controls.insert request.invocationId children.spawned
  spawned := children.spawned + 1

/-- The end of a run task: `remove_live_exec_control` goes by the invocation id. -/
def complete (children : Children) (child : Child) : Children :=
  if child ∈ children.running then
    { children with
      running := children.running.erase child
      controls := children.controls.erase child.invocationId }
  else children

/-- No two children run under one invocation id, and the registry has each one's own control. -/
structure Exclusive (children : Children) : Prop where
  single : (children.running.map Child.invocationId).Nodup
  own : ∀ child ∈ children.running, children.controls[child.invocationId]? = some child.token

theorem exclusive_none : Exclusive none := ⟨List.nodup_nil, by simp [none]⟩

theorem Exclusive.not_running (h : children.Exclusive) {invocationId : String}
    (hFree : children.liveExecControl invocationId = false) :
    invocationId ∉ children.running.map Child.invocationId := by
  intro hMem
  obtain ⟨child, hChild, rfl⟩ := List.mem_map.mp hMem
  have hControl : children.liveExecControl child.invocationId := by
    rw [liveExecControl, ExtTreeMap.contains_eq_isSome_getElem?, h.own child hChild]
    rfl
  rw [hFree] at hControl
  cases hControl

theorem Exclusive.spawn (h : children.Exclusive) {request : ExecRequest}
    (hFree : children.liveExecControl request.invocationId = false) :
    (children.spawn request).Exclusive := by
  have hNew := h.not_running hFree
  refine ⟨List.nodup_cons.mpr ⟨hNew, h.single⟩, fun child hChild => ?_⟩
  rcases List.mem_cons.mp hChild with rfl | hOld
  · exact ExtTreeMap.getElem?_insert_self
  · have hOther : request.invocationId ≠ child.invocationId := by
      rintro hSame
      exact hNew (hSame ▸ List.mem_map_of_mem hOld)
    simpa [Children.spawn, ExtTreeMap.getElem?_insert, hOther] using h.own child hOld

/-- The entry that a completion removes is that of the child that completed. -/
theorem Exclusive.complete (h : children.Exclusive) (child : Child) :
    (children.complete child).Exclusive := by
  unfold Children.complete
  split
  swap
  · exact h
  rename_i hRunning
  have hPerm := List.perm_cons_erase hRunning
  have hSingle : (child.invocationId ::
      (children.running.erase child).map Child.invocationId).Nodup := by
    have hNodup := (hPerm.map Child.invocationId).nodup_iff.mp h.single
    simpa using hNodup
  obtain ⟨hGone, hRest⟩ := List.nodup_cons.mp hSingle
  refine ⟨hRest, fun other hOther => ?_⟩
  have hDistinct : child.invocationId ≠ other.invocationId := by
    intro hSame
    exact hGone (hSame ▸ List.mem_map_of_mem hOther)
  simpa [ExtTreeMap.getElem?_erase, hDistinct] using h.own other (List.mem_of_mem_erase hOther)

end Children

def spawnedBy : LiveEffect → Option ExecRequest
  | .execSpawned _ request _ => some request
  | _ => none

/-- An event as its handler sees it, with the registry as it is. -/
def withControls (liveExecControl : String → Bool) : LiveEvent → LiveEvent
  | .execRequest env eventMeta request =>
    .execRequest { env with liveExecControl } eventMeta request
  | .callRequest env eventMeta request =>
    .callRequest { env with liveExecControl } eventMeta request
  | .approvalDecision env eventMeta decision =>
    .approvalDecision { env with liveExecControl } eventMeta decision

structure State where
  live : LiveState
  children : Children

inductive Label where
  | event (event : LiveEvent)
  | completed (child : Child)

def heldInvocation (pending : PendingApproval) : Option String :=
  match pending.heldRequest with
  | some (.exec request) => some request.invocationId
  | _ => none

section Step

variable {Key : Type} (crypto : Crypto Key) (regexNew : RegexNew) (order : EvictionOrder)

def step (s : State) : Label → State
  | .event event =>
    let (live, effects) :=
      (withControls s.children.liveExecControl event).handle crypto regexNew order s.live
    ⟨live, (effects.filterMap spawnedBy).foldl Children.spawn s.children⟩
  | .completed child => { s with children := s.children.complete child }

def start (live : LiveState) : State := ⟨live, .none⟩

def AnyTime (_ : State) (_ : Label) : Prop := True

/-- A verified approval of a held exec finds no control registered for its invocation. -/
def ReleasedAlone (s : State) : Label → Prop
  | .event (.approvalDecision env eventMeta decision) =>
    decisionPermitsSpawn decision →
    (decisionRoom crypto env eventMeta decision).isSome →
    ∀ hold ∈ s.live.file.queue.get decision.requestId,
      ∀ invocationId ∈ heldInvocation hold, s.children.liveExecControl invocationId = false
  | _ => True

instance (s : State) (label : Label) : Decidable (ReleasedAlone crypto s label) :=
  match label with
  | .event (.approvalDecision ..) => inferInstanceAs (Decidable (_ → _))
  | .event (.execRequest ..) | .event (.callRequest ..) | .completed _ =>
    inferInstanceAs (Decidable True)

end Step

variable {Key : Type} {crypto : Crypto Key} {regexNew : RegexNew} {order : EvictionOrder}

/-- A handler spawns nothing, or one child for an invocation that is free. -/
def SpawnsFree (liveExecControl : String → Bool) (effects : List LiveEffect) : Prop :=
  effects.filterMap spawnedBy = [] ∨
    ∃ request, liveExecControl request.invocationId = false ∧
      effects.filterMap spawnedBy = [request]

/-- A request is checked against the registry before it is spawned. -/
theorem spawnsFree_execRequest (env : LiveEnv) (file : QueueFile) (eventMeta : EventMeta)
    (request : ExecRequest) :
    SpawnsFree env.liveExecControl
      (handleLiveExecRequest crypto regexNew env file eventMeta request).2 := by
  unfold handleLiveExecRequest
  split
  · exact .inl rfl
  split
  · exact .inl rfl
  split
  · exact .inl rfl
  split
  · exact .inl rfl
  split
  · exact .inl rfl
  rename_i authorized _ _ hFree
  rw [Bool.not_eq_true] at hFree
  split
  · exact .inl rfl
  · exact .inr ⟨authorized, hFree, rfl⟩

theorem spawnsFree_callRequest (liveExecControl : String → Bool) (env : LiveEnv) (file : QueueFile)
    (eventMeta : EventMeta) (request : CallRequest) :
    SpawnsFree liveExecControl (handleLiveCallRequest crypto env file eventMeta request).2 := by
  unfold handleLiveCallRequest
  left
  split
  swap
  · rfl
  split
  · rfl
  split
  · rfl
  split <;> rfl

/-- A held exec is released without a look at the registry. -/
theorem spawnsFree_releaseHeldExec {liveExecControl : String → Bool} {env : LiveEnv}
    {room : RoomView} {roomId : String} {request : ExecRequest} {requesterUser : Option String}
    (hFree : liveExecControl request.invocationId = false) :
    SpawnsFree liveExecControl
      (releaseHeldExec crypto regexNew env room roomId request requesterUser) := by
  unfold releaseHeldExec
  split
  · exact .inl rfl
  cases hAuthorized : authorizeLiveExec crypto regexNew env room request.toValue request roomId
      requesterUser with
  | error rejection => exact .inl rfl
  | ok result =>
    obtain ⟨authorized, allowance⟩ := result
    obtain rfl : authorized = request := (authorizeLiveExec_ok hAuthorized).1
    exact .inr ⟨authorized, hFree, rfl⟩

theorem spawnsFree_settleHold {liveExecControl : String → Bool} {env : LiveEnv} {room : RoomView}
    {roomId : String} {decision : ApprovalDecision} {held : HeldRequest}
    {requesterUser : Option String}
    (hFree : decisionPermitsSpawn decision → ∀ request, held = .exec request →
      liveExecControl request.invocationId = false) :
    SpawnsFree liveExecControl
      (settleHold crypto regexNew env room roomId decision held requesterUser) := by
  unfold settleHold
  cases hPermits : decisionPermitsSpawn decision with
  | false =>
    left
    cases held with
    | exec request =>
      cases hKey : env.signingKey <;> simp [denyHeldExec, rejectHeldExec, hKey, spawnedBy]
    | call request =>
      cases hKey : env.signingKey <;> simp [denyHeldCall, rejectHeldCall, hKey, spawnedBy]
  | true =>
    cases held with
    | exec request => exact spawnsFree_releaseHeldExec (hFree hPermits request rfl)
    | call request =>
      left
      simp only [Bool.not_true, Bool.false_eq_true, if_false, releaseHeldCall]
      split
      · rfl
      split <;> rfl

/-- A handler spawns at most one child, for a free invocation. -/
theorem spawnsFree_handle {s : State} {event : LiveEvent}
    (hAlone : ReleasedAlone crypto s (.event event)) :
    SpawnsFree s.children.liveExecControl
      ((withControls s.children.liveExecControl event).handle crypto regexNew order s.live).2 := by
  cases event with
  | execRequest env eventMeta request => exact spawnsFree_execRequest _ _ _ _
  | callRequest env eventMeta request => exact spawnsFree_callRequest _ _ _ _ _
  | approvalDecision env eventMeta decision =>
    simp only [withControls, LiveEvent.handle]
    rcases handleLiveApprovalDecision_cases crypto regexNew order
        { env with liveExecControl := s.children.liveExecControl } s.live eventMeta decision with
      ⟨-, hNone⟩ | ⟨pending, held, room, hHold, hHonoured, -, hEffects⟩
    · rw [hNone]
      exact .inl rfl
    · rw [hEffects]
      obtain ⟨hStored, hHeld⟩ := get_of_liveHold hHold
      refine spawnsFree_settleHold fun hPermits request hExec => ?_
      have hRoom : decisionRoom crypto env eventMeta decision = some room := hHonoured.1
      refine hAlone hPermits (by rw [hRoom]; rfl) pending hStored _ ?_
      simp [heldInvocation, hHeld, hExec]

theorem exclusive_step (s : State) (label : Label) (hAlone : ReleasedAlone crypto s label)
    (h : s.children.Exclusive) : (step crypto regexNew order s label).children.Exclusive := by
  cases label with
  | completed child => exact h.complete child
  | event event =>
    have hEffects : SpawnsFree s.children.liveExecControl
        ((withControls s.children.liveExecControl event).handle crypto regexNew order s.live).2 :=
      spawnsFree_handle hAlone
    simp only [step]
    rcases hEffects with hNone | ⟨request, hFree, hOne⟩
    · rw [hNone]
      exact h
    · rw [hOne]
      exact h.spawn hFree

/-- If every verified approval of a held exec comes when no control is registered for its
invocation, then at every moment no two children run under one invocation id and every child's
control is registered. Nothing else is assumed. -/
theorem one_child_per_invocation {live : LiveState} {labels : List Label} {s : State}
    (run : Run (ReleasedAlone crypto) (step crypto regexNew order) (start live) labels s) :
    s.children.Exclusive := by
  have hFinish : (fun s : State => s.children.Exclusive) s :=
    run.invariant Children.exclusive_none exclusive_step
  exact hFinish

section TwoHolds

open ApprovalRooms AnnouncedHolds

/-- The build under another request id, for the same invocation. -/
def resentRequest : ExecRequest :=
  { docsRequest with
    requestId := "req-2"
    nonce := "resent-nonce" }

def leadApprovesResent : ApprovalDecision :=
  { leadApproves with
    requestId := "req-2"
    nonce := some "second-nonce" }

def bothHeld : List Label :=
  [.event (requestEvent docsRequest), .event (requestEvent resentRequest)]

def decided (decision : ApprovalDecision) : Label :=
  .event (.approvalDecision (labEnv noon) (decisionMeta labRoom "@lead:example.org") decision)

def afterLabels (labels : List Label) : State :=
  labels.foldl (step namedKeys (fun _ => none) .byNonce) (start idle)

/-- The second hold is released after the first child has completed. -/
theorem one_child_per_invocation_in_turn :
    (afterLabels (bothHeld ++ [decided leadApproves, .completed ⟨0, "inv-1"⟩,
      decided leadApprovesResent])).children.running = [⟨1, "inv-1"⟩] ∧
    (afterLabels (bothHeld ++ [decided leadApproves, .completed ⟨0, "inv-1"⟩,
      decided leadApprovesResent])).children.Exclusive := by
  refine ⟨by decide +kernel, ?_⟩
  exact one_child_per_invocation (Allowed.run (by decide +kernel))

/-- The lead approves both holds: two children run under one id, and the first's control is gone. -/
theorem both_holds_run :
    ¬ ∀ (crypto : Crypto String) (regexNew : RegexNew) (order : EvictionOrder)
        (live : LiveState) (labels : List Label) (s : State),
        Run AnyTime (step crypto regexNew order) (start live) labels s →
        s.children.Exclusive := by
  intro hClaim
  have hSingle := (hClaim namedKeys (fun _ => none) .byNonce idle
    (bothHeld ++ [decided leadApproves, decided leadApprovesResent]) _
    (Allowed.run ⟨trivial, trivial, trivial, trivial, trivial⟩)).single
  revert hSingle
  decide +kernel

end TwoHolds

end MxAgent.System.LiveChildren
