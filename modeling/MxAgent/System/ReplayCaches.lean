import MxAgent.Foundations.Run
import MxAgent.Daemon.EventRouter

/-! The two replay caches of one daemon. The sync router loads its cache once
and keeps it; every scheduler pass loads a fresh one. Both write their whole map
over the same file, and neither reads what the other wrote in the meantime. -/
namespace MxAgent.System.ReplayCaches

open Protocol Daemon LabelledRun

structure State where
  disk : ReplayDisk
  router : EventRouter
  /-- The cache of the scheduler pass in progress. -/
  pass : Option ReplayCache
  now : Int
  /-- Every use admitted so far, by either cache. -/
  admitted : List NonceUse
  deriving DecidableEq

/-- What happens next, and when. File writes succeed. -/
inductive Label where
  | route (event : IncomingEvent) (now : Int)
  | decision (use : NonceUse) (now : Int)
  | passLoad (now : Int)
  | passAdmit (use : NonceUse) (now : Int)

def Label.now : Label → Int
  | .route _ now | .decision _ now | .passLoad now | .passAdmit _ now => now

variable (order : EvictionOrder) (wellFormed : EventCategory → Value → Bool)

def admission (s : State) : Label → Option (ReplayCache × NonceUse)
  | .route event _ => (EventRouter.presentedUse wellFormed event).map fun use =>
    (s.router.replay, use)
  | .decision use _ => some (s.router.replay, use)
  | .passLoad _ => none
  | .passAdmit use _ => s.pass.map fun cache => (cache, use)

/-- The router routes an event or burns a decision nonce, or the scheduler starts a pass
(`load_pass_replay_cache`) or admits through its cache. -/
def step (s : State) : Label → State
  | .route event now =>
    let (outcome, _, router, disk) :=
      s.router.route order wellFormed event now (.ok ()) s.disk
    { s with
      router, disk, now
      admitted := s.admitted ++
        if outcome.wasDispatched then (EventRouter.presentedUse wellFormed event).toList
        else [] }
  | .decision use now =>
    let (burned, router, disk) :=
      s.router.admitDecisionNonce order use.nonce use.expiresAt now (.ok ()) s.disk
    { s with router, disk, now, admitted := s.admitted ++ if burned then [use] else [] }
  | .passLoad now =>
    let (result, disk) := ReplayCache.load now (.ok ()) (.ok ()) s.disk
    { s with disk, now, pass := result.toOption }
  | .passAdmit use now =>
    match s.pass with
    | none => { s with now }
    | some cache =>
      let (result, cache, disk) :=
        cache.admitAt order use.nonce use.expiresAt now (.ok ()) s.disk
      { s with
        disk, now
        pass := some cache
        admitted := s.admitted ++ if result.isOk then [use] else [] }

/-- The daemon has just started: the router's cache is what the file holds. -/
def Start (s : State) : Prop :=
  (ReplayCache.load s.now (.ok ()) (.ok ()) s.disk).1 = .ok s.router.replay ∧ s.pass = none ∧
    s.admitted = []

/-- The clock does not go back and the admitting cache is never full. -/
def Regular (s : State) (label : Label) : Prop :=
  s.now ≤ label.now ∧ ∀ entry ∈ admission wellFormed s label, entry.1.HasRoom label.now

instance (s : State) (label : Label) : Decidable (Regular wellFormed s label) :=
  inferInstanceAs (Decidable (_ ∧ _))

def storedNonces (disk : ReplayDisk) : Nonces :=
  match disk.file with
  | some (some stored) => stored.nonces
  | _ => ∅

/-- A cache has every unexpired nonce of the file: no other has written since it last read or
wrote. -/
def UpToDate (cache : ReplayCache) (disk : ReplayDisk) (now : Int) : Prop :=
  ∀ entry ∈ (storedNonces disk).toList, now < entry.2 → cache.nonces[entry.1]? = some entry.2

instance (cache : ReplayCache) (disk : ReplayDisk) (now : Int) :
    Decidable (UpToDate cache disk now) :=
  inferInstanceAs (Decidable (∀ entry ∈ _, _ → _))

/-- Every admission goes through a cache that is up to date with the file. -/
def Synchronized (s : State) (label : Label) : Prop :=
  Regular wellFormed s label ∧
    ∀ entry ∈ admission wellFormed s label, UpToDate entry.1 s.disk label.now

instance (s : State) (label : Label) : Decidable (Synchronized wellFormed s label) :=
  inferInstanceAs (Decidable (_ ∧ _))

theorem storedNonces_load (now : Int) (disk : ReplayDisk) :
    storedNonces (ReplayCache.load now (.ok ()) (.ok ()) disk).2 = storedNonces disk := by
  obtain ⟨file, quarantined⟩ := disk
  cases quarantined with
  | true => rfl
  | false =>
    match file with
    | none => rfl
    | some none => rfl
    | some (some stored) => rfl

/-- A step leaves the log and the stored nonces alone, or is one admission by a cache whose map then
is the file. -/
theorem step_cases (s : State) (label : Label) :
    ((step order wellFormed s label).admitted = s.admitted ∧
      storedNonces (step order wellFormed s label).disk = storedNonces s.disk) ∨
    ∃ cache use expiry, admission wellFormed s label = some (cache, use) ∧
      parseRfc3339ToUnix use.expiresAt = some expiry ∧ label.now < expiry ∧
      use.nonce ∉ cache.nonces ∧
      storedNonces (step order wellFormed s label).disk =
        (cache.record order use.nonce expiry label.now).nonces ∧
      (step order wellFormed s label).admitted = s.admitted ++ [use] := by
  cases label with
  | passLoad now => exact .inl ⟨rfl, storedNonces_load now s.disk⟩
  | route event now =>
    cases hUse : EventRouter.presentedUse wellFormed event with
    | none =>
      have hState := EventRouter.route_of_presentedUse_none order wellFormed s.router now (.ok ())
        s.disk hUse
      left
      simp [step, hUse, hState]
    | some use =>
      obtain ⟨hOutcome, hState⟩ := EventRouter.route_of_presentedUse order wellFormed s.router now
        (.ok ()) s.disk hUse
      rcases ReplayCache.admitAt_written order s.router.replay use.nonce use.expiresAt now s.disk
        with ⟨error, hDenied⟩ | ⟨expiry, hParse, hLater, hFresh, hAdmit⟩
      · left
        simp [step, hState, hOutcome, hDenied, Except.isOk, Except.toBool]
      · right
        refine ⟨_, use, expiry, by simp [admission, hUse], hParse, hLater, hFresh, ?_, ?_⟩
        · simp [step, hState, hAdmit, storedNonces, Label.now]
        · simp [step, hUse, hOutcome, hAdmit, Except.isOk, Except.toBool]
  | decision use now =>
    rcases ReplayCache.admitAt_written order s.router.replay use.nonce use.expiresAt now s.disk with
      ⟨error, hDenied⟩ | ⟨expiry, hParse, hLater, hFresh, hAdmit⟩
    · left
      simp [step, EventRouter.admitDecisionNonce, hDenied, Except.isOk, Except.toBool]
    · right
      refine ⟨_, use, expiry, rfl, hParse, hLater, hFresh, ?_, ?_⟩
      · simp [step, EventRouter.admitDecisionNonce, hAdmit, storedNonces, Label.now]
      · simp [step, EventRouter.admitDecisionNonce, hAdmit, Except.isOk, Except.toBool]
  | passAdmit use now =>
    cases hPass : s.pass with
    | none =>
      left
      simp [step, hPass]
    | some cache =>
      rcases ReplayCache.admitAt_written order cache use.nonce use.expiresAt now s.disk with
        ⟨error, hDenied⟩ | ⟨expiry, hParse, hLater, hFresh, hAdmit⟩
      · left
        simp [step, hPass, hDenied, Except.isOk, Except.toBool]
      · right
        refine ⟨cache, use, expiry, by simp [admission, hPass], hParse, hLater, hFresh, ?_, ?_⟩
        · simp [step, hPass, hAdmit, storedNonces, Label.now]
        · simp [step, hPass, hAdmit, Except.isOk, Except.toBool]

/-- The file accounts for the log: it holds every admitted use that is still live. -/
def Accounts (s : State) : Prop :=
  SingleUse.Accounted nonceLifetime (storedNonces s.disk).Holds s.admitted s.now ∧ s.admitted.Nodup

theorem UpToDate.holds {cache : ReplayCache} {disk : ReplayDisk} {now : Int}
    (h : UpToDate cache disk now) {use : NonceUse} (hLive : nonceLifetime.live now use)
    (hUse : (storedNonces disk).Holds use) : cache.nonces.Holds use := by
  obtain ⟨expiry, hParse, hStored⟩ := hUse
  obtain ⟨expiry', hParse', hLater⟩ := hLive
  obtain rfl : expiry = expiry' := Option.some.inj (hParse.symm.trans hParse')
  exact ⟨expiry, hParse,
    h _ (Std.ExtTreeMap.mem_toList_iff_getElem?_eq_some.mpr hStored) hLater⟩

theorem step_now (s : State) (label : Label) : (step order wellFormed s label).now = label.now := by
  cases label with
  | passAdmit use now => cases hPass : s.pass <;> simp [step, hPass, Label.now]
  | _ => rfl

theorem step_accounts {s : State} {label : Label} (hGuard : Synchronized wellFormed s label)
    (h : Accounts s) : Accounts (step order wellFormed s label) := by
  obtain ⟨⟨hTime, hRoom⟩, hSync⟩ := hGuard
  obtain ⟨hAccount, hNodup⟩ := h
  rw [Accounts, step_now]
  rcases step_cases order wellFormed s label with
    ⟨hLog, hFile⟩ | ⟨cache, use, expiry, hAdmission, hParse, hLater, hFresh, hFile, hLog⟩
  · rw [hLog, hFile]
    exact ⟨hAccount.advance hTime fun _ _ hHeld => hHeld, hNodup⟩
  · rw [hLog, hFile]
    have hCacheRoom := hRoom _ hAdmission
    have hCache : SingleUse.Accounted nonceLifetime cache.nonces.Holds s.admitted label.now :=
      hAccount.advance hTime fun _ hLive hHeld => (hSync _ hAdmission).holds hLive hHeld
    refine hCache.accept hNodup le_rfl ⟨expiry, hParse, hLater⟩ ?_ ?_ ?_
    · exact fun hHeld => hFresh hHeld.mem
    · exact fun other hLive hHeld => ReplayCache.record_holds hCacheRoom hFresh hHeld hLive
    · exact ReplayCache.record_holds_self hParse

/-- No use is admitted twice if every admission goes through a cache with the other's nonces. -/
theorem admitted_nodup_of_synchronized {start finish : State} {labels : List Label}
    (hStart : Start start)
    (run : Run (Synchronized wellFormed) (step order wellFormed) start labels finish) :
    finish.admitted.Nodup := by
  -- The account is kept by the file alone: what a cache has in memory only matters
  -- at the moment it admits, and there the guard ties it to the file.
  have hInitial : Accounts start := by
    rw [Accounts, hStart.2.2]
    exact ⟨SingleUse.accounted_nil, List.nodup_nil⟩
  exact (run.invariant hInitial fun _ _ hGuard h => step_accounts order wellFormed hGuard h).2

section Overwritten

def firstStart : State where
  disk := ⟨none, false⟩
  router := ⟨⟨ReplayCache.defaultCapacity, ∅, by decide⟩⟩
  pass := none
  now := 1780000000
  admitted := []

def decisionUse : NonceUse := ⟨"decision-nonce", "2026-06-02T12:05:00Z"⟩

def taskUse : NonceUse := ⟨"task-nonce", "2026-06-02T12:05:00Z"⟩

theorem firstStart_start : Start firstStart := by
  refine ⟨?_, rfl, rfl⟩
  decide

/-- The router burns a decision, then a pass admits a task. -/
theorem admitted_nodup_router_then_pass :
    ([Label.decision decisionUse 1780000001, .passLoad 1780000002,
      .passAdmit taskUse 1780000003].foldl (step .byNonce fun _ _ => true)
        firstStart).admitted.Nodup :=
  admitted_nodup_of_synchronized _ _ firstStart_start (Allowed.run (by decide +kernel))

/-- A pass admits a task's nonce, the router overwrites the file with its map, and the next pass
admits it again. -/
theorem task_nonce_admitted_twice :
    ¬ ∀ (order : EvictionOrder) (wellFormed : EventCategory → Value → Bool)
        (start finish : State) (labels : List Label), Start start →
        Run (Regular wellFormed) (step order wellFormed) start labels finish →
        finish.admitted.Nodup := by
  intro hClaim
  have hTwice := hClaim .byNonce (fun _ _ => true) firstStart _
    [.passLoad 1780000001, .passAdmit taskUse 1780000002, .decision decisionUse 1780000003,
      .passLoad 1780000004, .passAdmit taskUse 1780000005] firstStart_start
    (Allowed.run (by decide +kernel))
  revert hTwice
  decide +kernel

end Overwritten

end MxAgent.System.ReplayCaches
