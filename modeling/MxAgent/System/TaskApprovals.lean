import MxAgent.System.AnnouncedHolds
import MxAgent.System.QueuePasses
import MxAgent.System.TaskAuthorizations

/-! What a task approval was given for. The approval request of a task is named
after the task, and a decision names the request. So a decision made while the task
carried one action answers for whatever action the task carries when the next pass asks
its gate. -/
namespace MxAgent.System.TaskApprovals

open Protocol Daemon TaskOrchestrator LabelledRun

/-- The action that a task's request was raised for, by its id. -/
abbrev Origins := String → Option TaskAction

/-- A decision event of a room, and the action its request was raised for, as stored when the
decision was made. -/
structure Publication where
  roomId : String
  sender : String
  decision : ApprovalDecision
  raisedFor : Option TaskAction

def Publication.event (publication : Publication) : DecisionEvent :=
  (publication.sender, publication.decision)

/-- An action that a gate approved, with what was decided on. -/
structure Approval where
  task : TaskState
  action : TaskAction
  raisedFor : Option TaskAction
  deriving DecidableEq

/-- The daemon and all decision events, newest first. The rest is what an observer knows. -/
structure State (σ δ : Type) where
  daemon : QueuePasses.State σ δ
  publications : List Publication
  /-- Origins of the requests in the stored queue. -/
  filed : Origins
  /-- Origins of the requests in the copy of the pass. -/
  copied : Origins
  /-- What the request under an id was last raised for. -/
  raised : Origins
  approvals : List Approval

structure Scan where
  localUser : String
  unseen : Nat
  limit : Nat

inductive Label (Key σ δ : Type) where
  | live (event : LiveEvent)
  | begin (read : IoResult) (stampedAt : Nat) (nowUnix : Int)
  | tick (agent : PassAgent Key σ δ) (scan : Scan)
  | sweep (env : LiveEnv) (roomId : String)
  | finish (write : IoResult)
  /-- Somebody sends a decision event to a room. -/
  | publish (roomId sender : String) (decision : ApprovalDecision)
  /-- An operator of this daemon decides a request. -/
  | decide (env : DecideEnv) (localUser requestId decision approvedBy : String)

def surviving (before after : ApprovalQueue) (origins : Origins) : Origins := fun requestId =>
  if after.get requestId = before.get requestId then origins requestId else none

/-- A pending answer raises the request again; others take it out. -/
def noteCopied (copied : Origins) (answer : GateAnswer) : Origins := fun requestId =>
  if taskApprovalId answer.task = requestId then
    match answer.disposition with
    | .pending _ => some answer.action
    | _ => none
  else copied requestId

def noteRaised (raised : Origins) (answer : GateAnswer) : Origins := fun requestId =>
  if taskApprovalId answer.task = requestId then
    match answer.disposition with
    | .pending _ => some answer.action
    | _ => raised requestId
  else raised requestId

section Step

variable {Key σ δ : Type} (crypto : Crypto Key) (regexNew : RegexNew) (order : EvictionOrder)

def State.visible (s : State σ δ) (roomId : String) (scan : Scan) : List Publication :=
  ((s.publications.filter fun publication => publication.roomId == roomId).drop scan.unseen).take
    scan.limit

def State.verification (s : State σ δ) (agent : PassAgent Key σ δ) (scan : Scan) :
    DecisionVerification Key where
  localUser := scan.localUser
  approvers := (agent.policy.rooms[agent.roomId]?).elim [] RoomPolicy.approvers
  verifyingKeys := agent.verifyingKeys
  trust := agent.trust
  nowUnix := s.daemon.pass.elim 0 Pass.nowUnix

def State.deciding (s : State σ δ) (agent : PassAgent Key σ δ) (scan : Scan)
    (requestId : String) : Option Publication :=
  (s.visible agent.roomId scan).find? fun publication =>
    decides crypto (s.verification agent scan) requestId publication.event

def State.informed (s : State σ δ) (agent : PassAgent Key σ δ) (scan : Scan) : PassAgent Key σ δ :=
  { agent with
    decisions := readVerifiedApprovalDecisions crypto (s.verification agent scan)
      ((s.visible agent.roomId scan).map Publication.event) }

/-- The step of the daemon behind a label. A decision event by itself is none. -/
def State.queueLabel (s : State σ δ) : Label Key σ δ → Option (QueuePasses.Label Key σ δ)
  | .live event => some (.live event)
  | .begin read stampedAt nowUnix => some (.begin read stampedAt nowUnix)
  | .tick agent scan => some (.tick (s.informed crypto agent scan))
  | .sweep env roomId => some (.sweep env roomId)
  | .finish write => some (.finish write)
  | .publish .. => none
  | .decide env _ requestId _ _ => some (.decide env requestId)

def State.next (s : State σ δ) (label : Label Key σ δ) : QueuePasses.State σ δ :=
  match s.queueLabel crypto label with
  | none => s.daemon
  | some label => QueuePasses.step crypto regexNew order s.daemon label

def State.given (s : State σ δ) (label : Label Key σ δ) : List GateAnswer :=
  match label, s.daemon.pass with
  | .tick .., some _ => answers (s.next crypto regexNew order label).scheduler.world.log
  | _, _ => []

def State.approvalOf (s : State σ δ) (label : Label Key σ δ) (answer : GateAnswer) :
    Option Approval :=
  match label, answer.disposition with
  | .tick agent scan, .approved => some ⟨answer.task, answer.action,
      (s.deciding crypto agent scan (taskApprovalId answer.task)).bind Publication.raisedFor⟩
  | _, _ => none

def State.sent (s : State σ δ) : Label Key σ δ → Option Publication
  | .publish roomId sender decision =>
    some ⟨roomId, sender, decision, s.filed decision.requestId⟩
  | .decide env localUser requestId decision approvedBy =>
    (decideApprovalForSession env s.daemon.live.file requestId).1.map fun roomId =>
      ⟨roomId, localUser, sessionDecision env requestId decision approvedBy, s.filed requestId⟩
  | _ => none

/-- A pass that changed its copy, and can, writes it to the file. -/
def State.saves (s : State σ δ) : Label Key σ δ → Bool
  | .finish write =>
    match s.daemon.pass with
    | some pass => decide (s.daemon.copy ≠ pass.before ∧ write = .ok ())
    | none => false
  | _ => false

def step (s : State σ δ) (label : Label Key σ δ) : State σ δ where
  daemon := s.next crypto regexNew order label
  publications := (s.sent label).toList ++ s.publications
  filed :=
    if s.saves label then s.copied
    else surviving s.daemon.stored (s.next crypto regexNew order label).stored s.filed
  copied :=
    match label with
    | .begin .. =>
      if s.daemon.pass.isSome then s.copied
      else surviving s.daemon.stored (s.next crypto regexNew order label).copy s.filed
    | .tick .. => (s.given crypto regexNew order label).foldl noteCopied s.copied
    | _ => surviving s.daemon.copy (s.next crypto regexNew order label).copy s.copied
  raised := (s.given crypto regexNew order label).foldl noteRaised s.raised
  approvals := s.approvals ++
    (s.given crypto regexNew order label).filterMap (s.approvalOf crypto label)

def start (daemon : QueuePasses.State σ δ) : State σ δ :=
  ⟨daemon, [], fun _ => none, fun _ => none, fun _ => none, []⟩

/-- Whether a request id has the form of a task's approval request. -/
def namesTask (requestId : String) : Bool := "approval:".toList.isPrefixOf requestId.toList

/-- A task whose request was raised carries the action it was raised for. -/
def unreplaced (raised : Origins) (task : TaskState) : Bool :=
  match actionFromTask task with
  | .ok action => (raised (taskApprovalId task)).all (· == action)
  | .error _ => true

/-- Once a task's approval request was raised, the snapshots show it with the same action. -/
def ActionsKept (s : State σ δ) : Label Key σ δ → Prop
  | .tick agent _ => ∀ task ∈ agent.input.snapshot, unreplaced s.raised task
  | _ => True

instance (s : State σ δ) (label : Label Key σ δ) : Decidable (ActionsKept s label) :=
  match label with
  | .tick agent _ => inferInstanceAs (Decidable (∀ task ∈ agent.input.snapshot, _))
  | .live _ | .begin .. | .sweep .. | .finish _ | .publish .. | .decide .. =>
    inferInstanceAs (Decidable True)

/-- A task's request is approved only while in the stored queue. -/
def DecidedWhilePending (s : State σ δ) (label : Label Key σ δ) : Prop :=
  ∀ publication ∈ s.sent label, decisionPermitsSpawn publication.decision →
    namesTask publication.decision.requestId → publication.raisedFor.isSome

instance (s : State σ δ) (label : Label Key σ δ) : Decidable (DecidedWhilePending s label) :=
  inferInstanceAs (Decidable (∀ publication ∈ s.sent label, _))

end Step

/-- Whatever is in a queue was raised for the action its id was last raised for; so was what an
approval was decided on, and that is the action it approved. -/
structure Traced {σ δ : Type} (s : State σ δ) : Prop where
  filed : ∀ requestId action, s.filed requestId = some action → s.raised requestId = some action
  copied : ∀ requestId action, s.copied requestId = some action →
    s.raised requestId = some action
  published : ∀ publication ∈ s.publications, decisionPermitsSpawn publication.decision →
    namesTask publication.decision.requestId →
    ∃ action, publication.raisedFor = some action ∧
      s.raised publication.decision.requestId = some action
  approved : ∀ approval ∈ s.approvals, approval.raisedFor = some approval.action

variable {Key σ δ : Type} {crypto : Crypto Key} {regexNew : RegexNew} {order : EvictionOrder}

theorem namesTask_taskApprovalId (task : TaskState) : namesTask (taskApprovalId task) := by
  simp [namesTask, taskApprovalId]

variable {requestId : String} {action : TaskAction} {raised : Origins} {s : State σ δ}
  {label : Label Key σ δ}

theorem of_surviving {before after : ApprovalQueue} {origins : Origins}
    (h : surviving before after origins requestId = some action) :
    origins requestId = some action := by
  unfold surviving at h
  split at h
  · exact h
  · cases h

/-- Copy and memory are written together; only the copy forgets. -/
theorem foldl_noteCopied {given : List GateAnswer} {copied : Origins}
    (h : ∀ requestId action, copied requestId = some action → raised requestId = some action) :
    ∀ requestId action, given.foldl noteCopied copied requestId = some action →
      given.foldl noteRaised raised requestId = some action := by
  induction given generalizing copied raised with
  | nil => exact h
  | cons answer rest ih =>
    refine ih fun requestId action hCopied => ?_
    unfold noteCopied at hCopied
    unfold noteRaised
    split at hCopied
    · rename_i hId
      rw [if_pos hId]
      cases hDisposition : answer.disposition <;> simp_all
    · rename_i hId
      rw [if_neg hId]
      exact h requestId action hCopied

/-- Raising a request again for the same action changes nothing. -/
theorem foldl_noteRaised {given : List GateAnswer} (h : raised requestId = some action)
    (hSame : ∀ answer ∈ given, taskApprovalId answer.task = requestId → answer.action = action) :
    given.foldl noteRaised raised requestId = some action := by
  induction given generalizing raised with
  | nil => exact h
  | cons answer rest ih =>
    refine ih ?_ fun other hOther => hSame other (List.mem_cons_of_mem _ hOther)
    unfold noteRaised
    split
    · rename_i hId
      rw [← hSame answer List.mem_cons_self hId] at h ⊢
      cases answer.disposition <;> simp [h]
    · exact h

/-- The gate finds the decision of the event the pass goes by. -/
theorem resolveDecision_informed (s : State σ δ) (agent : PassAgent Key σ δ) (scan : Scan)
    (pass : Pass) (requestId : String) :
    ((s.informed crypto agent scan).gate pass).resolveDecision requestId =
      (s.deciding crypto agent scan requestId).map Publication.decision := by
  have hScan : ((s.informed crypto agent scan).decisions)[requestId]? = _ :=
    getElem?_readVerifiedApprovalDecisions (s.verification agent scan)
      ((s.visible agent.roomId scan).map Publication.event) requestId
  rw [List.find?_map, Option.map_map] at hScan
  exact hScan

/-- The answers of a pass's gate are about the snapshot's tasks, and an approval goes by a decision
it has read. -/
def Sound (crypto : Crypto Key) (s : State σ δ) (agent : PassAgent Key σ δ) (scan : Scan)
    (_ : GateState) (given : List GateAnswer) : Prop :=
  ∀ answer ∈ given, answer.task ∈ agent.input.snapshot ∧ actionFromTask answer.task =
    .ok answer.action ∧
    (answer.disposition = .approved → ∃ publication,
      s.deciding crypto agent scan (taskApprovalId answer.task) = some publication ∧
        decisionPermitsSpawn publication.decision)

theorem sound_given (s : State σ δ) (agent : PassAgent Key σ δ) (scan : Scan) :
    Sound crypto s agent scan (s.next crypto regexNew order (.tick agent scan)).scheduler.world.gate
      (s.given crypto regexNew order (.tick agent scan)) := by
  cases hPass : s.daemon.pass with
  | none => simp [Sound, State.given, hPass]
  | some pass =>
    simp only [State.given, State.next, State.queueLabel, QueuePasses.step, hPass]
    refine schedulerPassForAgent_gate pass (s.informed crypto agent scan)
      (fun env task hTask action state replay given hAction hGiven => ?_)
      (fun _ _ hGiven => hGiven) (by simp [Sound])
    intro answer hAnswer
    rcases List.mem_append.mp hAnswer with hOld | hNew
    · exact hGiven answer hOld
    · rw [List.mem_singleton.mp hNew]
      refine ⟨hTask, hAction, fun hApproved => ?_⟩
      obtain ⟨decision, hDecision, hPermits⟩ :=
        QueueApprovalGate.decision_of_approved hApproved
      rw [resolveDecision_informed, Option.map_eq_some_iff] at hDecision
      obtain ⟨publication, hDeciding, rfl⟩ := hDecision
      exact ⟨publication, hDeciding, hPermits⟩

theorem eq_of_unreplaced {task : TaskState} {earlier : TaskAction}
    (h : unreplaced raised task) (hAction : actionFromTask task = .ok action)
    (hRaised : raised (taskApprovalId task) = some earlier) : earlier = action := by
  simpa [unreplaced, hAction, hRaised] using h

theorem raised_step (hKept : ActionsKept s label) (h : s.raised requestId = some action) :
    (step crypto regexNew order s label).raised requestId = some action := by
  cases label with
  | tick agent scan =>
    refine foldl_noteRaised h fun answer hAnswer hId => ?_
    obtain ⟨hTask, hAction, -⟩ := sound_given s agent scan answer hAnswer
    rw [← hId] at h
    exact (eq_of_unreplaced (hKept answer.task hTask) hAction h).symm
  | _ => exact h

theorem raisedFor_of_sent {publication : Publication} (h : publication ∈ s.sent label) :
    publication.raisedFor = s.filed publication.decision.requestId := by
  cases label with
  | publish roomId sender decision =>
    cases h
    rfl
  | decide env localUser requestId decision approvedBy =>
    obtain ⟨roomId, -, rfl⟩ := Option.map_eq_some_iff.mp h
    rfl
  | _ => cases h

theorem filed_step (h : Traced s) (hKept : ActionsKept s label)
    (hFiled : (step crypto regexNew order s label).filed requestId = some action) :
    (step crypto regexNew order s label).raised requestId = some action := by
  refine raised_step hKept ?_
  simp only [step] at hFiled
  split at hFiled
  · exact h.copied requestId action hFiled
  · exact h.filed requestId action (of_surviving hFiled)

theorem copied_step (h : Traced s) (hKept : ActionsKept s label)
    (hCopied : (step crypto regexNew order s label).copied requestId = some action) :
    (step crypto regexNew order s label).raised requestId = some action := by
  cases label with
  | tick agent scan => exact foldl_noteCopied h.copied requestId action hCopied
  | begin read stampedAt nowUnix =>
    refine raised_step hKept ?_
    simp only [step] at hCopied
    split at hCopied
    · exact h.copied requestId action hCopied
    · exact h.filed requestId action (of_surviving hCopied)
  | _ => exact raised_step hKept (h.copied requestId action (of_surviving hCopied))

/-- An approval goes by a decision on a request raised for the same action. -/
theorem raisedFor_of_approvalOf (h : Traced s) (hKept : ActionsKept s label) {answer : GateAnswer}
    (hAnswer : answer ∈ s.given crypto regexNew order label) {approval : Approval}
    (hApproval : s.approvalOf crypto label answer = some approval) :
    approval.raisedFor = some approval.action := by
  cases label with
  | tick agent scan =>
    obtain ⟨hTask, hAction, hApproved⟩ := sound_given s agent scan answer hAnswer
    unfold State.approvalOf at hApproval
    split at hApproval
    swap
    · cases hApproval
    rename_i agent' scan' hLabel hDisposition
    cases hLabel
    cases hApproval
    obtain ⟨publication, hDeciding, hPermits⟩ := hApproved hDisposition
    have hDecides := List.find?_some hDeciding
    have hId : publication.decision.requestId = taskApprovalId answer.task := by
      simp only [decides, Bool.and_eq_true, beq_iff_eq] at hDecides
      exact hDecides.1
    have hPublished : publication ∈ s.publications :=
      List.mem_of_mem_filter (List.mem_of_mem_drop (List.mem_of_mem_take
        (List.mem_of_find?_eq_some hDeciding)))
    obtain ⟨action, hRaisedFor, hRaised⟩ := h.published publication hPublished hPermits
      (hId ▸ namesTask_taskApprovalId answer.task)
    rw [hId] at hRaised
    rw [hDeciding, Option.bind_some, hRaisedFor,
      eq_of_unreplaced (hKept answer.task hTask) hAction hRaised]
  | _ => cases hAnswer

theorem traced_step (s : State σ δ) (label : Label Key σ δ)
    (hGuard : ActionsKept s label ∧ DecidedWhilePending s label) (h : Traced s) :
    Traced (step crypto regexNew order s label) where
  filed _ _ hFiled := filed_step h hGuard.1 hFiled
  copied _ _ hCopied := copied_step h hGuard.1 hCopied
  published publication hPublication hPermits hNames := by
    rcases List.mem_append.mp hPublication with hSent | hOld
    · rw [Option.mem_toList] at hSent
      obtain ⟨action, hRaisedFor⟩ :=
        Option.isSome_iff_exists.mp (hGuard.2 publication hSent hPermits hNames)
      refine ⟨action, hRaisedFor, raised_step hGuard.1 (h.filed _ action ?_)⟩
      rw [← raisedFor_of_sent hSent, hRaisedFor]
    · obtain ⟨action, hRaisedFor, hRaised⟩ := h.published publication hOld hPermits hNames
      exact ⟨action, hRaisedFor, raised_step hGuard.1 hRaised⟩
  approved approval hApproval := by
    rcases List.mem_append.mp hApproval with hOld | hNew
    · exact h.approved approval hOld
    · obtain ⟨answer, hAnswer, hOf⟩ := List.mem_filterMap.mp hNew
      exact raisedFor_of_approvalOf h hGuard.1 hAnswer hOf

/-- In a run in which a task keeps its action once its request was raised, and is approved only
while that is in the stored queue, whatever a gate approves is what the decided request was raised
for, however passes, live handlers and operators interleave and the queue file fails. -/
theorem approved_as_raised {daemon : QueuePasses.State σ δ} {labels : List (Label Key σ δ)}
    {s : State σ δ}
    (run : Run (fun s label => ActionsKept s label ∧ DecidedWhilePending s label)
      (step crypto regexNew order) (start daemon) labels s) :
    ∀ approval ∈ s.approvals, approval.raisedFor = some approval.action := by
  have hStart : Traced (start daemon) :=
    ⟨by simp [start], by simp [start], by simp [start], by simp [start]⟩
  have hTraced : Traced s := run.invariant hStart traced_step
  exact hTraced.approved

section ReplacedAction

open ApprovalRooms AnnouncedHolds TaskAuthorizations

/-- Every action in a tick's snapshot is signed by a trusted key for the tick's agent. -/
def Signed (crypto : Crypto Key) (order : EvictionOrder) (s : State σ δ) :
    Label Key σ δ → Prop
  | .tick agent _ => ∀ pass ∈ s.daemon.pass, ∀ task ∈ agent.input.snapshot,
      ((actionFromTask task).toOption.all fun action =>
        (authorizationFailure crypto (agent.orchestrator order pass) true task
          action).isNone)
  | _ => True

instance (crypto : Crypto Key) (order : EvictionOrder) (s : State σ δ) (label : Label Key σ δ) :
    Decidable (Signed crypto order s label) :=
  match label with
  | .tick _ _ => inferInstanceAs (Decidable (∀ pass ∈ s.daemon.pass, _))
  | .live _ | .begin .. | .sweep .. | .finish _ | .publish .. | .decide .. =>
    inferInstanceAs (Decidable True)

/-- The lead signs a `make` target, with a nonce of its own for each. -/
def makeTarget (target : String) : TaskAction :=
  .exec ["make", target] "/srv/app" ∅ none false
    (some { leadAuthorization with nonce := "task-nonce-" ++ target })

/-- The daemon's agent, in a pass that finds the task at some revision. -/
def labAgent (target : String) (stateRev : Nat) : PassAgent String Unit Unit where
  roomId := labRoom
  agentId := "agent-daemon"
  maxInvocations := 4
  policy := approvalPolicy
  trust := (labEnv noon).trust
  verifyingKeys := publishedKeys namedKeys [runnerAgent, daemonAgent, leadAgent]
  replay := emptyCache
  decisions := ∅
  store := forgetfulStore
  dispatcher := succeedingDispatcher
  input := ⟨[taskOf (makeTarget target) stateRev], ∅, fun _ => "2026-06-02T12:01:00Z",
    fun _ => processEnv⟩

def passWith (target : String) (stateRev : Nat) : List (Label String Unit Unit) :=
  [.begin (.ok ()) 1780401660 1780401660,
    .tick (labAgent target stateRev) ⟨"@daemon:example.org", 0, 100⟩,
    .finish (.ok ())]

/-- The lead approves while the documentation is to be built; the next pass finds some target. -/
def decidedThen (target : String) : List (Label String Unit Unit) :=
  passWith "docs" 1 ++
    [.publish labRoom "@lead:example.org" { leadApproves with requestId := "approval:task-1" }] ++
    passWith target 2

def idleDaemon : QueuePasses.State Unit Unit := ⟨idle, none, firstTick⟩

def afterLabels (labels : List (Label String Unit Unit)) : State Unit Unit :=
  labels.foldl (step namedKeys (fun _ => none) .byNonce) (start idleDaemon)

/-- The task still builds the documentation. -/
theorem approved_as_raised_docs :
    ⟨taskOf (makeTarget "docs") 2, makeTarget "docs", some (makeTarget "docs")⟩ ∈
        (afterLabels (decidedThen "docs")).approvals ∧
      ∀ approval ∈ (afterLabels (decidedThen "docs")).approvals,
        approval.raisedFor = some approval.action :=
  ⟨by decide +kernel, approved_as_raised (Allowed.run (by decide +kernel))⟩

/-- Between decision and pass the task's action becomes a deployment, signed by the lead too. The
approval of the documentation lets it run. -/
theorem approved_for_replaced_action :
    ¬ ∀ (crypto : Crypto String) (regexNew : RegexNew) (order : EvictionOrder)
        (daemon : QueuePasses.State Unit Unit) (labels : List (Label String Unit Unit))
        (s : State Unit Unit),
        Run (fun s label => Signed crypto order s label ∧ DecidedWhilePending s label)
          (step crypto regexNew order) (start daemon) labels s →
        ∀ approval ∈ s.approvals, approval.raisedFor = some approval.action := by
  intro hClaim
  have hRaised := hClaim namedKeys (fun _ => none) .byNonce idleDaemon (decidedThen "deploy")
    (afterLabels (decidedThen "deploy")) (Allowed.run (by decide +kernel))
    ⟨taskOf (makeTarget "deploy") 2, makeTarget "deploy", some (makeTarget "docs")⟩
    (by decide +kernel)
  revert hRaised
  decide +kernel

example : (afterLabels (decidedThen "deploy")).daemon.scheduler.world.log.any
    TaskEffect.isDispatch := by
  decide +kernel

end ReplacedAction

end MxAgent.System.TaskApprovals
