import MxAgent.System.AnnouncedHolds
import MxAgent.System.QueuePasses
import MxAgent.System.TaskAuthorizations

/-! Holds past their deadline. A scheduler pass sweeps expired live holds out of the
queue; the handler of a decision does not look at the deadline. So a hold that has
expired stays releasable until a sweep has removed it. -/
namespace MxAgent.System.ExpiredHolds

open Protocol Daemon LabelledRun QueuePasses

def runs : LiveEffect → Bool
  | .execSpawned .. | .callExecuted .. => true
  | _ => false

structure Release where
  hold : PendingApproval
  now : Int
  deriving DecidableEq

/-- The release comes before the deadline of the hold's request, where that can be read. -/
def Release.InTime (release : Release) : Prop :=
  ∀ expiry, parseRfc3339ToUnix release.hold.request.expiresAt = some expiry →
    release.now < expiry

structure Observed (σ δ : Type) where
  daemon : State σ δ
  releases : List Release

section Step

variable {Key σ δ : Type} (crypto : Crypto Key) (regexNew : RegexNew) (order : EvictionOrder)

def released (s : State σ δ) : Label Key σ δ → Option Release
  | .live (.approvalDecision env eventMeta decision) =>
    if (handleLiveApprovalDecision crypto regexNew order env s.live eventMeta decision).2.any runs
    then (s.stored.get decision.requestId).map fun hold => ⟨hold, env.now⟩
    else none
  | _ => none

def observe (s : Observed σ δ) (label : Label Key σ δ) : Observed σ δ where
  daemon := step crypto regexNew order s.daemon label
  releases := s.releases ++ (released crypto regexNew order s.daemon label).toList

def start (daemon : State σ δ) : Observed σ δ := ⟨daemon, []⟩

def AnyTime (_ : Observed σ δ) (_ : Label Key σ δ) : Prop := True

/-- A verified approval of a live hold still in the stored queue is handled before its deadline. -/
def DecidedInTime (s : Observed σ δ) : Label Key σ δ → Prop
  | .live (.approvalDecision env eventMeta decision) =>
    decisionPermitsSpawn decision →
    (decisionRoom crypto env eventMeta decision).isSome →
    ∀ hold ∈ s.daemon.stored.get decision.requestId, hold.heldRequest.isSome →
      approvalRequestExpired hold.request.expiresAt env.now = false
  | _ => True

instance (s : Observed σ δ) (label : Label Key σ δ) : Decidable (DecidedInTime crypto s label) :=
  match label with
  | .live (.approvalDecision ..) => inferInstanceAs (Decidable (_ → _))
  | .live (.execRequest ..) | .live (.callRequest ..) | .decide .. | .begin .. | .tick _
  | .sweep .. | .finish _ => inferInstanceAs (Decidable True)

end Step

variable {Key σ δ : Type} {crypto : Crypto Key} {regexNew : RegexNew} {order : EvictionOrder}

theorem inTime_of_not_expired {hold : PendingApproval} {now : Int}
    (h : approvalRequestExpired hold.request.expiresAt now = false) :
    Release.InTime ⟨hold, now⟩ := by
  intro expiry hExpiry
  simpa [approvalRequestExpired, hExpiry] using h

theorem permits_of_runs {env : LiveEnv} {room : RoomView} {roomId : String}
    {decision : ApprovalDecision} {held : HeldRequest} {requesterUser : Option String}
    {effect : LiveEffect}
    (h : effect ∈ settleHold crypto regexNew env room roomId decision held requesterUser)
    (hRuns : runs effect) : decisionPermitsSpawn decision := by
  by_contra hDenied
  rw [Bool.not_eq_true] at hDenied
  simp only [settleHold, hDenied, Bool.not_false, if_true] at h
  cases held with
  | exec request =>
    simp only [denyHeldExec, rejectHeldExec, List.mem_cons] at h
    split at h <;> rcases h with rfl | h <;> simp_all [runs]
  | call request =>
    simp only [denyHeldCall, rejectHeldCall, List.mem_cons] at h
    split at h <;> rcases h with rfl | h <;> simp_all [runs]

/-- A release is of a live hold that the stored queue had, by a verified approval. -/
theorem released_cases {s : State σ δ} {label : Label Key σ δ} {release : Release}
    (h : released crypto regexNew order s label = some release) :
    ∃ env eventMeta decision, label = .live (.approvalDecision env eventMeta decision) ∧
      decisionPermitsSpawn decision ∧
      (decisionRoom crypto env eventMeta decision).isSome ∧
      s.stored.get decision.requestId = some release.hold ∧
      release.hold.heldRequest.isSome ∧ release.now = env.now := by
  unfold released at h
  split at h
  swap
  · cases h
  rename_i env eventMeta decision
  split at h
  swap
  · cases h
  rename_i hRuns
  obtain ⟨effect, hEffect, hRuns⟩ := List.any_eq_true.mp hRuns
  obtain ⟨hold, hGet, rfl⟩ := Option.map_eq_some_iff.mp h
  rcases handleLiveApprovalDecision_cases crypto regexNew order env s.live eventMeta decision with
    ⟨-, hNone⟩ | ⟨pending, held, room, hHold, hHonoured, -, hEffects⟩
  · rw [hNone] at hEffect
    cases hEffect
  · rw [hEffects] at hEffect
    obtain ⟨hStored, hHeld⟩ := get_of_liveHold hHold
    obtain rfl : hold = pending := Option.some.inj (hGet.symm.trans hStored)
    exact ⟨env, eventMeta, decision, rfl, permits_of_runs hEffect hRuns,
      hHonoured.1 ▸ rfl, hGet, hHeld ▸ rfl, rfl⟩

theorem inTime_step (s : Observed σ δ) (label : Label Key σ δ)
    (hDecided : DecidedInTime crypto s label) (h : ∀ release ∈ s.releases, release.InTime) :
    ∀ release ∈ (observe crypto regexNew order s label).releases, release.InTime := by
  intro release hRelease
  rcases List.mem_append.mp hRelease with hOld | hNew
  · exact h release hOld
  · obtain ⟨env, eventMeta, decision, rfl, hPermits, hRoom, hStored, hHeld, hNow⟩ :=
      released_cases (Option.mem_toList.mp hNew)
    obtain ⟨hold, now⟩ := release
    obtain rfl : now = env.now := hNow
    exact inTime_of_not_expired (hDecided hPermits hRoom hold hStored hHeld)

/-- If every verified approval is handled before the deadline of the hold it names, or after a sweep
has removed it, no hold is released at or after its deadline, whatever the order of events, passes
and decisions. -/
theorem released_in_time {daemon : State σ δ} {labels : List (Label Key σ δ)} {s : Observed σ δ}
    (run : Run (DecidedInTime crypto) (observe crypto regexNew order) (start daemon) labels s) :
    ∀ release ∈ s.releases, release.InTime := by
  have hStart : ∀ release ∈ (start daemon).releases, release.InTime := by simp [start]
  have hFinish : (fun s : Observed σ δ => ∀ release ∈ s.releases, release.InTime) s :=
    run.invariant hStart inTime_step
  exact hFinish

section SweepPass

variable {s : State σ δ} {requestId : String} {hold : PendingApproval}

/-- A pass that sweeps some rooms and that nothing interrupts. -/
def sweepPass (stampedAt : Nat) (nowUnix : Int) (sweeps : List (LiveEnv × String)) :
    List (Label Key σ δ) :=
  .begin (.ok ()) stampedAt nowUnix ::
    (sweeps.map (fun sweep => .sweep sweep.1 sweep.2) ++ [.finish (.ok ())])

def sweepRooms (nowUnix : Int) (sweeps : List (LiveEnv × String)) (queue : ApprovalQueue) :
    ApprovalQueue :=
  sweeps.foldl (fun queue sweep => (sweepExpiredLiveHolds sweep.1 sweep.2 nowUnix queue).1) queue

theorem stored_finish {pass : Pass} (hPass : s.pass = some pass)
    (hBefore : pass.before = s.stored) :
    (step crypto regexNew order s (.finish (.ok ()))).stored = s.copy := by
  simp only [step, hPass, Pass.save, hBefore, State.withFile, State.stored]
  split
  · rename_i hSame
    exact hSame.symm
  · rfl

theorem foldl_sweeps {pass : Pass} (hPass : s.pass = some pass)
    (sweeps : List (LiveEnv × String)) :
    (sweeps.map fun sweep => Label.sweep sweep.1 sweep.2).foldl (step crypto regexNew order) s =
      s.withCopy (sweepRooms pass.nowUnix sweeps s.copy) := by
  induction sweeps generalizing s with
  | nil => rfl
  | cons sweep sweeps ih =>
    have hStep : step crypto regexNew order s (.sweep sweep.1 sweep.2) =
        s.withCopy (sweepExpiredLiveHolds sweep.1 sweep.2 pass.nowUnix s.copy).1 := by
      simp only [step, hPass]
    have hLater : (s.withCopy (sweepExpiredLiveHolds sweep.1 sweep.2 pass.nowUnix
        s.copy).1).pass = some pass := hPass
    rw [List.map_cons, List.foldl_cons, hStep, ih hLater]
    rfl

theorem get_sweepRooms_iff (nowUnix : Int) (sweeps : List (LiveEnv × String))
    (queue : ApprovalQueue) :
    (sweepRooms nowUnix sweeps queue).get requestId = some hold ↔
      queue.get requestId = some hold ∧ (hold.roomId ∈ sweeps.map Prod.snd →
        hold.heldRequest.isSome →
          approvalRequestExpired hold.request.expiresAt nowUnix = false) := by
  induction sweeps generalizing queue with
  | nil => simp [sweepRooms]
  | cons sweep sweeps ih =>
    rw [sweepRooms, List.foldl_cons, ← sweepRooms, ih, get_sweepExpiredLiveHolds_iff, and_assoc,
      List.map_cons, List.mem_cons]
    refine and_congr_right fun _ => ?_
    tauto

end SweepPass

section LateApproval

open ApprovalRooms AnnouncedHolds TaskAuthorizations

def decidedAt (now : Int) : Label String Unit Unit :=
  .live (.approvalDecision (labEnv now) (decisionMeta labRoom "@lead:example.org") leadApproves)

def heldThen (now : Int) : List (Label String Unit Unit) :=
  [.live (requestEvent docsRequest), decidedAt now]

def afterLabels (labels : List (Label String Unit Unit)) : Observed Unit Unit :=
  labels.foldl (observe namedKeys (fun _ => none) .byNonce) (start ⟨idle, none, firstTick⟩)

def docsHold : PendingApproval :=
  ⟨labRoom, approvalRequestFor docsRequest { Allowance.empty with requiresApproval := true },
    some (.exec docsRequest), some "@runner:example.org"⟩

def sweptAt (now : Int) : ApprovalQueue :=
  ((sweepPass 0 now [(labEnv now, labRoom)]).foldl
    (QueuePasses.step namedKeys (fun _ => none) .byNonce)
    (afterLabels [.live (requestEvent docsRequest)]).daemon).stored

/-- The approval comes a minute after the request. -/
theorem released_in_time_minute :
    ⟨docsHold, noon + 60⟩ ∈ (afterLabels (heldThen (noon + 60))).releases ∧
      Release.InTime ⟨docsHold, noon + 60⟩ := by
  have hReleased : ⟨docsHold, noon + 60⟩ ∈ (afterLabels (heldThen (noon + 60))).releases := by
    decide +kernel
  exact ⟨hReleased, released_in_time (Allowed.run (by decide +kernel)) _ hReleased⟩

/-- The approval comes at 12:10 with no pass since the deadline: the build runs five minutes
late. -/
theorem expired_hold_runs :
    ¬ ∀ (crypto : Crypto String) (regexNew : RegexNew) (order : EvictionOrder)
        (daemon : State Unit Unit) (labels : List (Label String Unit Unit))
        (s : Observed Unit Unit),
        Run AnyTime (observe crypto regexNew order) (start daemon) labels s →
        ∀ release ∈ s.releases, release.InTime := by
  intro hClaim
  have hInTime := hClaim namedKeys (fun _ => none) .byNonce ⟨idle, none, firstTick⟩
    (heldThen (noon + 540)) (afterLabels (heldThen (noon + 540)))
    (Allowed.run ⟨trivial, trivial, trivial⟩) ⟨docsHold, noon + 540⟩ (by decide +kernel)
    1780401900 (by decide)
  revert hInTime
  decide

end LateApproval

end MxAgent.System.ExpiredHolds
