import MxAgent.System.ReplayCaches

/-! The whole life of one replay cache: calls of `admit_at`, and loads of the file it has
written. The cache holds what was admitted and has not expired, except for what it had to evict;
and it evicts only when it is full of nonces that last at least as long. -/
namespace MxAgent.System.CacheHistory

open Daemon LabelledRun Std
open ReplayCaches (storedNonces)

structure State where
  cache : ReplayCache
  disk : ReplayDisk
  now : Int
  /-- The nonces admitted so far, each with its expiry. -/
  admitted : List (String × Int)
  deriving DecidableEq

/-- A call of `admit_at`, or a load by another instance. File system calls succeed. -/
inductive Label where
  | admitAt (nonce expiresAt : String) (now : Int)
  | reload (capacity : Nat) (now : Int)

def Label.now : Label → Int
  | .admitAt _ _ now | .reload _ now => now

section

variable (order : EvictionOrder)

def admission (s : State) : Label → Option (String × Int)
  | .admitAt nonce expiresAt now =>
    if (s.cache.admitAt order nonce expiresAt now (.ok ()) s.disk).1.isOk then
      (parseRfc3339ToUnix expiresAt).map (nonce, ·)
    else none
  | .reload .. => none

def step (s : State) : Label → State
  | .admitAt nonce expiresAt now =>
    let (_, cache, disk) := s.cache.admitAt order nonce expiresAt now (.ok ()) s.disk
    ⟨cache, disk, now, s.admitted ++ (admission order s (.admitAt nonce expiresAt now)).toList⟩
  | .reload capacity now =>
    match ReplayCache.loadWithCapacity capacity now (.ok ()) (.ok ()) s.disk with
    | (.ok cache, disk) => ⟨cache, disk, now, s.admitted⟩
    | (.error _, disk) => ⟨s.cache, disk, now, s.admitted⟩

structure Start (n : Nat) (s : State) : Prop where
  capacity : s.cache.capacity = max n 1
  empty : s.cache.nonces = ∅
  usable : s.disk.quarantined = false
  file : s.disk.file = none ∨
    ∃ stored, s.disk.file = some (some stored) ∧ max stored.capacity 1 = max n 1 ∧
      stored.nonces = ∅
  admitted : s.admitted = []

/-- The clock goes on, and loads ask for the same capacity. -/
def Regular (n : Nat) (s : State) : Label → Prop
  | .admitAt _ _ now => s.now ≤ now
  | .reload capacity now => s.now ≤ now ∧ (s.disk.file = none → max capacity 1 = max n 1)

instance (n : Nat) (s : State) (label : Label) : Decidable (Regular n s label) :=
  match label with
  | .admitAt _ _ now => inferInstanceAs (Decidable (s.now ≤ now))
  | .reload capacity now =>
    inferInstanceAs (Decidable (s.now ≤ now ∧ (s.disk.file = none → max capacity 1 = max n 1)))

/-- An admission takes a nonce out of a cache full of unexpired ones, none of which expires
sooner. -/
structure Evicts (n : Nat) (s : State) (label : Label) (nonce : String) (expiry : Int) :
    Prop where
  admits : (admission order s label).isSome
  held : s.cache.nonces[nonce]? = some expiry
  gone : nonce ∉ (step order s label).cache.nonces
  full : (s.cache.nonces.pruneExpired label.now).size = max n 1
  soonest : ∀ (other : String) (later : Int),
    (s.cache.nonces.pruneExpired label.now)[other]? = some later →
      label.now < later ∧ expiry ≤ later

def unexpired (s : State) : Finset String :=
  ((s.admitted.filter fun use => decide (s.now < use.2)).map Prod.fst).toFinset

structure History (n : Nat) (start : State) (labels : List Label) : Prop where
  bounded : (labels.foldl (step order) start).cache.nonces.size ≤ max n 1
  logged : ∀ (nonce : String) (expiry : Int),
    (labels.foldl (step order) start).cache.nonces[nonce]? = some expiry →
      (nonce, expiry) ∈ (labels.foldl (step order) start).admitted
  denied : ∀ (nonce expiresAt : String) (now : Int) (write : IoResult) (error : ReplayError),
    error = .malformedTimestamp ∨ error = .expired ∨ error = .replayed →
    ((labels.foldl (step order) start).cache.admitAt order nonce expiresAt now write
      (labels.foldl (step order) start).disk).1 = .error error →
    ((labels.foldl (step order) start).cache.admitAt order nonce expiresAt now write
      (labels.foldl (step order) start).disk).2 =
        ((labels.foldl (step order) start).cache, (labels.foldl (step order) start).disk)
  /-- A nonce that is missing before it expires was evicted since it was admitted. -/
  evicted : ∀ (before after : List Label) (label : Label) (nonce : String) (expiry : Int),
    labels = before ++ label :: after →
    admission order (before.foldl (step order) start) label = some (nonce, expiry) →
    (labels.foldl (step order) start).now < expiry →
    nonce ∉ (labels.foldl (step order) start).cache.nonces →
    ∃ between evictor later, after = between ++ evictor :: later ∧
      Evicts order n ((before ++ label :: between).foldl (step order) start) evictor nonce expiry
  /-- If the admitted nonces that are unexpired at a time always fit, none is admitted again
  before it has expired. -/
  single : (∀ before, before <+: labels →
      (unexpired (before.foldl (step order) start)).card ≤ max n 1) →
    ∀ (before after : List Label) (label : Label), labels = before ++ label :: after →
    ∀ (nonce : String) (expiry : Int),
      (nonce, expiry) ∈ (before.foldl (step order) start).admitted → label.now < expiry →
      ∀ again, admission order (before.foldl (step order) start) label ≠ some (nonce, again)

end

variable {nonce : String} {expiry : Int} {label : Label} {labels : List Label}

section Step

variable {order : EvictionOrder} {n : Nat} {s : State}

/-- The cache has what the file has and is unexpired, and the file only what was admitted. -/
structure Coherent (n : Nat) (s : State) : Prop where
  capacity : s.cache.capacity = max n 1
  bounded : s.cache.nonces.size ≤ max n 1
  usable : s.disk.quarantined = false
  file : s.disk.file = none ∨
    ∃ stored, s.disk.file = some (some stored) ∧ max stored.capacity 1 = max n 1
  stored_bounded : (storedNonces s.disk).size ≤ max n 1
  stored_logged : ∀ (nonce : String) (expiry : Int),
    (storedNonces s.disk)[nonce]? = some expiry → (nonce, expiry) ∈ s.admitted
  stored_of_held : ∀ (nonce : String) (expiry : Int),
    s.cache.nonces[nonce]? = some expiry → (storedNonces s.disk)[nonce]? = some expiry
  held_of_stored : ∀ (nonce : String) (expiry : Int),
    (storedNonces s.disk)[nonce]? = some expiry → s.now < expiry →
      s.cache.nonces[nonce]? = some expiry

theorem Start.coherent (h : Start n s) : Coherent n s := by
  have hStored : storedNonces s.disk = ∅ := by
    rcases h.file with hFile | ⟨stored, hFile, -, hEmpty⟩
    · simp only [storedNonces, hFile]
    · simp only [storedNonces, hFile, hEmpty]
  exact
    { capacity := h.capacity
      bounded := by simp [h.empty]
      usable := h.usable
      file := by
        rcases h.file with hFile | ⟨stored, hFile, hCapacity, -⟩
        · exact .inl hFile
        · exact .inr ⟨stored, hFile, hCapacity⟩
      stored_bounded := by simp [hStored]
      stored_logged := by simp [hStored]
      stored_of_held := by simp [h.empty]
      held_of_stored := by simp [hStored] }

theorem Coherent.logged (h : Coherent n s)
    (hHeld : s.cache.nonces[nonce]? = some expiry) : (nonce, expiry) ∈ s.admitted :=
  h.stored_logged nonce expiry (h.stored_of_held nonce expiry hHeld)

theorem step_admit_cases (order : EvictionOrder) (s : State) (nonce expiresAt : String)
    (now : Int) :
    (admission order s (.admitAt nonce expiresAt now) = none ∧
      step order s (.admitAt nonce expiresAt now) = { s with now }) ∨
    ∃ expiry, now < expiry ∧ nonce ∉ s.cache.nonces ∧
      admission order s (.admitAt nonce expiresAt now) = some (nonce, expiry) ∧
      step order s (.admitAt nonce expiresAt now) =
        ⟨s.cache.record order nonce expiry now,
          { s.disk with file := some (some ⟨s.cache.capacity,
            (s.cache.record order nonce expiry now).nonces⟩) },
          now, s.admitted ++ [(nonce, expiry)]⟩ := by
  rcases ReplayCache.admitAt_written order s.cache nonce expiresAt now s.disk with
    ⟨error, hDenied⟩ | ⟨expiry, hParse, hLater, hFresh, hAdmit⟩
  · have hNone : admission order s (.admitAt nonce expiresAt now) = none := by
      simp [admission, hDenied, Except.isOk, Except.toBool]
    exact .inl ⟨hNone, by simp [step, hDenied, hNone]⟩
  · have hSome : admission order s (.admitAt nonce expiresAt now) = some (nonce, expiry) := by
      simp [admission, hAdmit, hParse, Except.isOk, Except.toBool]
    exact .inr ⟨expiry, hLater, hFresh, hSome, by simp [step, hAdmit, hSome]⟩

theorem capacity_pos (n : Nat) : 0 < max n 1 := by omega

/-- A load gives the unexpired nonces of the file. -/
theorem step_reload (h : Coherent n s) {capacity : Nat} {now : Int}
    (hRegular : Regular n s (.reload capacity now)) :
    step order s (.reload capacity now) =
      { s with
        cache := ⟨max n 1, (storedNonces s.disk).pruneExpired now, capacity_pos n⟩, now } := by
  obtain ⟨cache, ⟨file, quarantined⟩, time, admitted⟩ := s
  obtain rfl : quarantined = false := h.usable
  rcases h.file with hFile | ⟨stored, hFile, hCapacity⟩
  · obtain rfl : file = none := hFile
    have hSame := hRegular.2 rfl
    simp [step, ReplayCache.loadWithCapacity, ReplayCache.pruneExpired, storedNonces, hSame]
  · obtain rfl : file = some (some stored) := hFile
    simp [step, ReplayCache.loadWithCapacity, ReplayCache.pruneExpired, storedNonces, hCapacity]

theorem step_now (order : EvictionOrder) (s : State) (label : Label) :
    (step order s label).now = label.now := by
  cases label with
  | admitAt nonce expiresAt now => rfl
  | reload capacity now =>
    simp only [step]
    split <;> rfl

theorem Regular.now_le (h : Regular n s label) : s.now ≤ label.now := by
  cases label with
  | admitAt nonce expiresAt now => exact h
  | reload capacity now => exact h.1

theorem Coherent.step (h : Coherent n s) (hRegular : Regular n s label) :
    Coherent n (step order s label) := by
  have hTime := hRegular.now_le
  cases label with
  | reload capacity now =>
    rw [step_reload h hRegular]
    refine ⟨rfl, ?_, h.usable, h.file, h.stored_bounded, h.stored_logged, ?_, ?_⟩
    · exact ExtTreeMap.size_filter_le_size.trans h.stored_bounded
    · exact fun nonce expiry hHeld => (Nonces.pruneExpired_eq_some_iff.mp hHeld).1
    · exact fun nonce expiry hStored hLive =>
        Nonces.pruneExpired_eq_some_iff.mpr ⟨hStored, hLive⟩
  | admitAt nonce expiresAt now =>
    rcases step_admit_cases order s nonce expiresAt now with
      ⟨-, hStep⟩ | ⟨expiry, hLater, hFresh, -, hStep⟩
    · rw [hStep]
      exact { h with held_of_stored := fun nonce expiry hStored hLive =>
        h.held_of_stored nonce expiry hStored (hTime.trans_lt hLive) }
    · have hSize : (s.cache.record order nonce expiry now).nonces.size ≤ max n 1 :=
        h.capacity ▸ ReplayCache.record_size_le order s.cache nonce expiry now
      rw [hStep]
      refine ⟨h.capacity, hSize, h.usable, .inr ⟨_, rfl, by simp [h.capacity]⟩, hSize, ?_,
        fun _ _ hHeld => hHeld, fun _ _ hStored _ => hStored⟩
      intro other later hStored
      rcases ReplayCache.record_entry hStored with ⟨rfl, rfl⟩ | ⟨hHeld, -⟩
      · simp
      · exact List.mem_append_left _ (h.logged hHeld)

/-- Unless it is evicted, a nonce stays in the cache until it expires. -/
theorem Coherent.held_step (h : Coherent n s) (hRegular : Regular n s label)
    (hHeld : s.cache.nonces[nonce]? = some expiry) (hLive : label.now < expiry) :
    (CacheHistory.step order s label).cache.nonces[nonce]? = some expiry ∨
      Evicts order n s label nonce expiry := by
  cases label with
  | reload capacity now =>
    left
    rw [step_reload h hRegular]
    exact Nonces.pruneExpired_eq_some_iff.mpr ⟨h.stored_of_held nonce expiry hHeld, hLive⟩
  | admitAt other expiresAt now =>
    rcases step_admit_cases order s other expiresAt now with
      ⟨-, hStep⟩ | ⟨later, hLater, hFresh, hAdmits, hStep⟩
    · left
      rw [hStep]
      exact hHeld
    by_cases hKept : (s.cache.record order other later now).nonces[nonce]? = some expiry
    · left
      rw [hStep]
      exact hKept
    right
    obtain ⟨hFull, hSoonest⟩ := ReplayCache.record_loses (h.capacity ▸ h.bounded) hFresh hHeld
      hLive hKept
    refine ⟨by rw [hAdmits, Option.isSome_some], hHeld, ?_, hFull.trans h.capacity, ?_⟩
    · -- Whatever the cache still had under the nonce would be its old entry.
      rw [hStep]
      intro hMem
      obtain ⟨found, hFound⟩ := StringMap.mem_iff_exists.mp hMem
      rcases ReplayCache.record_entry hFound with ⟨rfl, -⟩ | ⟨hSame, -⟩
      · exact hFresh (StringMap.mem_iff_exists.mpr ⟨expiry, hHeld⟩)
      · rw [hHeld, Option.some.injEq] at hSame
        exact hKept (hSame ▸ hFound)
    · exact fun third last hThird =>
        ⟨(Nonces.pruneExpired_eq_some_iff.mp hThird).2, hSoonest third last hThird⟩

/-! ## Runs -/

theorem Coherent.run (h : Coherent n s)
    (hRun : Allowed (Regular n) (CacheHistory.step order) s labels) :
    Coherent n (labels.foldl (CacheHistory.step order) s) :=
  hRun.run.invariant h fun _ _ hRegular hCoherent => hCoherent.step hRegular

theorem now_le_foldl (hRun : Allowed (Regular n) (step order) s labels) :
    s.now ≤ (labels.foldl (step order) s).now := by
  induction labels generalizing s with
  | nil => exact le_rfl
  | cons label rest ih =>
    have hRest := ih hRun.2
    rw [step_now] at hRest
    exact hRun.1.now_le.trans hRest

/-- A nonce held stays until it expires, or a step evicts it. -/
theorem Coherent.held_or_evicted (h : Coherent n s)
    (hRun : Allowed (Regular n) (CacheHistory.step order) s labels)
    (hHeld : s.cache.nonces[nonce]? = some expiry)
    (hLive : (labels.foldl (CacheHistory.step order) s).now < expiry) :
    (labels.foldl (CacheHistory.step order) s).cache.nonces[nonce]? = some expiry ∨
      ∃ between evictor later, labels = between ++ evictor :: later ∧
        Evicts order n (between.foldl (CacheHistory.step order) s) evictor nonce expiry := by
  induction labels generalizing s with
  | nil => exact .inl hHeld
  | cons label rest ih =>
    have hTime := now_le_foldl hRun.2
    rw [step_now] at hTime
    rcases h.held_step hRun.1 hHeld (hTime.trans_lt hLive) with hKept | hEvicts
    · rcases ih (h.step hRun.1) hRun.2 hKept hLive with hEnd | ⟨between, evictor, later,
        hRest, hEvicts⟩
      · exact .inl hEnd
      · exact .inr ⟨label :: between, evictor, later, by rw [hRest]; rfl, hEvicts⟩
    · exact .inr ⟨[], label, rest, rfl, hEvicts⟩

theorem held_of_admission (h : admission order s label = some (nonce, expiry)) :
    nonce ∉ s.cache.nonces ∧ label.now < expiry ∧
      (step order s label).cache.nonces[nonce]? = some expiry ∧
      (step order s label).admitted = s.admitted ++ [(nonce, expiry)] := by
  cases label with
  | reload capacity now => cases h
  | admitAt other expiresAt now =>
    rcases step_admit_cases order s other expiresAt now with
      ⟨hNone, -⟩ | ⟨later, hLater, hFresh, hAdmits, hStep⟩
    · rw [hNone] at h
      cases h
    · rw [hAdmits] at h
      cases h
      rw [hStep]
      exact ⟨hFresh, hLater, by simp [ReplayCache.record], rfl⟩

theorem exists_admission (hStart : s.admitted = [])
    (h : (nonce, expiry) ∈ (labels.foldl (step order) s).admitted) :
    ∃ before label after, labels = before ++ label :: after ∧
      admission order (before.foldl (step order) s) label = some (nonce, expiry) := by
  induction labels using List.reverseRecOn with
  | nil =>
    rw [List.foldl_nil, hStart] at h
    cases h
  | append_singleton labels label ih =>
    rw [List.foldl_append, List.foldl_cons, List.foldl_nil] at h
    have hOlder (hMem : (nonce, expiry) ∈ (labels.foldl (step order) s).admitted) :
        ∃ before other after, labels ++ [label] = before ++ other :: after ∧
          admission order (before.foldl (step order) s) other = some (nonce, expiry) := by
      obtain ⟨before, other, after, rfl, hAdmits⟩ := ih hMem
      exact ⟨before, other, after ++ [label], by simp, hAdmits⟩
    cases label with
    | reload capacity now =>
      apply hOlder
      simp only [step] at h
      split at h <;> exact h
    | admitAt other expiresAt now =>
      rcases List.mem_append.mp h with hMem | hNew
      · exact hOlder hMem
      · exact ⟨labels, _, [], rfl, by simpa using hNew⟩

theorem mem_unexpired :
    nonce ∈ unexpired s ↔ ∃ expiry, (nonce, expiry) ∈ s.admitted ∧ s.now < expiry := by
  simp [unexpired]

/-- After an eviction more nonces are unexpired than fit. -/
theorem Evicts.card_unexpired (h : Evicts order n s label nonce expiry) (hCoherent : Coherent n s) :
    max n 1 < (unexpired (CacheHistory.step order s label)).card := by
  obtain ⟨⟨added, later⟩, hAdmits⟩ := Option.isSome_iff_exists.mp h.admits
  obtain ⟨hFresh, hLater, -, hLog⟩ := held_of_admission hAdmits
  have hHeld : ∀ other ∈ (s.cache.nonces.pruneExpired label.now).keys.toFinset,
      ∃ last, s.cache.nonces[other]? = some last ∧ label.now < last := by
    intro other hOther
    rw [List.mem_toFinset, ExtTreeMap.mem_keys] at hOther
    obtain ⟨last, hLast⟩ := StringMap.mem_iff_exists.mp hOther
    exact ⟨last, Nonces.pruneExpired_eq_some_iff.mp hLast⟩
  have hNew : added ∉ (s.cache.nonces.pruneExpired label.now).keys.toFinset := by
    intro hMem
    obtain ⟨last, hLast, -⟩ := hHeld added hMem
    exact hFresh (StringMap.mem_iff_exists.mpr ⟨last, hLast⟩)
  have hSubset : insert added (s.cache.nonces.pruneExpired label.now).keys.toFinset ⊆
      unexpired (CacheHistory.step order s label) := by
    intro other hOther
    rw [mem_unexpired, hLog, step_now]
    rcases Finset.mem_insert.mp hOther with rfl | hOld
    · exact ⟨later, by simp, hLater⟩
    · obtain ⟨last, hLast, hLive⟩ := hHeld other hOld
      exact ⟨last, List.mem_append_left _ (hCoherent.logged hLast), hLive⟩
  calc max n 1 < max n 1 + 1 := Nat.lt_succ_self _
    _ = (insert added (s.cache.nonces.pruneExpired label.now).keys.toFinset).card := by
        rw [Finset.card_insert_of_notMem hNew, List.toFinset_card_of_nodup ExtTreeMap.nodup_keys,
          ExtTreeMap.length_keys, h.full]
    _ ≤ _ := Finset.card_le_card hSubset

end Step

section

variable {order : EvictionOrder} {n : Nat} {start : State} {labels : List Label}

/-- A nonce that is missing before it expires was evicted after its admission. -/
theorem evicted_of_missing (hStart : Coherent n start)
    (hRun : Allowed (Regular n) (step order) start labels) {before after : List Label}
    (hLabels : labels = before ++ label :: after)
    (hAdmits : admission order (before.foldl (step order) start) label = some (nonce, expiry))
    (hLive : (labels.foldl (step order) start).now < expiry)
    (hMissing : nonce ∉ (labels.foldl (step order) start).cache.nonces) :
    ∃ between evictor later, after = between ++ evictor :: later ∧
      Evicts order n ((before ++ label :: between).foldl (step order) start) evictor nonce
        expiry := by
  subst hLabels
  obtain ⟨hBefore, hLabel, hAfter⟩ := allowed_append.mp hRun
  have hCoherent : Coherent n (step order (before.foldl (step order) start) label) :=
    (hStart.run hBefore).step hLabel
  rw [List.foldl_append, List.foldl_cons] at hLive hMissing
  rcases hCoherent.held_or_evicted hAfter (held_of_admission hAdmits).2.2.1 hLive with
    hHeld | ⟨between, evictor, later, hSplit, hEvicts⟩
  · exact absurd (StringMap.mem_iff_exists.mpr ⟨expiry, hHeld⟩) hMissing
  · refine ⟨between, evictor, later, hSplit, ?_⟩
    rw [List.foldl_append, List.foldl_cons]
    exact hEvicts

/-- A second admission leaves too many nonces unexpired at some time. -/
theorem exists_many_unexpired (hStart : Coherent n start) (hEmpty : start.admitted = [])
    (hRun : Allowed (Regular n) (step order) start labels) {before after : List Label} {again : Int}
    (hLabels : labels = before ++ label :: after)
    (hLogged : (nonce, expiry) ∈ (before.foldl (step order) start).admitted)
    (hLive : label.now < expiry)
    (hAgain : admission order (before.foldl (step order) start) label = some (nonce, again)) :
    ∃ full, full <+: labels ∧ max n 1 < (unexpired (full.foldl (step order) start)).card := by
  subst hLabels
  obtain ⟨hBefore, hLabel, -⟩ := allowed_append.mp hRun
  obtain ⟨first, admitter, rest, rfl, hAdmits⟩ := exists_admission hEmpty hLogged
  obtain ⟨between, evictor, later, rfl, hEvicts⟩ := evicted_of_missing hStart hBefore rfl hAdmits
    (hLabel.now_le.trans_lt hLive) (held_of_admission hAgain).1
  -- The steps up to and including the eviction.
  refine ⟨(first ++ admitter :: between) ++ [evictor], ⟨later ++ label :: after, by simp⟩, ?_⟩
  have hUntil : Allowed (Regular n) (step order) start (first ++ admitter :: between) := by
    rw [show first ++ admitter :: (between ++ evictor :: later) =
      (first ++ admitter :: between) ++ evictor :: later by simp] at hBefore
    exact (allowed_append.mp hBefore).1
  rw [List.foldl_append, List.foldl_cons, List.foldl_nil]
  exact hEvicts.card_unexpired (hStart.run hUntil)

/-- Along every run from an empty cache, with loads at any points, the cache keeps within its
capacity and to what was admitted; denials leave it and its file alone; it loses an unexpired nonce
only to an eviction among nonces that last no shorter; so no nonce is admitted twice while unexpired
if the capacity always suffices. -/
theorem cache_history (order : EvictionOrder) (n : Nat) (start : State) (labels : List Label)
    (hStart : Start n start) (hRun : Allowed (Regular n) (step order) start labels) :
    History order n start labels where
  bounded := (hStart.coherent.run hRun).bounded
  logged _ _ hHeld := (hStart.coherent.run hRun).logged hHeld
  denied nonce expiresAt now write error hError hDenied := by
    rcases ReplayCache.admitAt_cases order (labels.foldl (step order) start).cache nonce expiresAt
        now write (labels.foldl (step order) start).disk with
      ⟨found, hSame⟩ | ⟨expiry, -, -, -, hAdmit⟩
    · rw [hSame]
    · -- What is recorded fails with the error of a write, if at all.
      rw [hAdmit] at hDenied
      cases write with
      | ok _ => cases hDenied
      | error kind =>
        cases hDenied
        simp at hError
  evicted before after label nonce expiry hLabels hAdmits hLive hMissing :=
    evicted_of_missing hStart.coherent hRun hLabels hAdmits hLive hMissing
  single hFew before after label hLabels nonce expiry hLogged hLive again hAgain := by
    obtain ⟨full, hFull, hMany⟩ := exists_many_unexpired hStart.coherent hStart.admitted hRun
      hLabels hLogged hLive hAgain
    exact absurd (hFew full hFull) hMany.not_ge

section Sample

def smallCache : State where
  cache := ⟨1, ∅, by decide⟩
  disk := ⟨none, false⟩
  now := 1780000000
  admitted := []

def firstAgain : Label := .admitAt "first" "2026-06-02T12:05:00Z" 1780000003

def refusal : List Label :=
  [.admitAt "first" "2026-06-02T12:05:00Z" 1780000001, .reload 8192 1780000002, firstAgain]

def eviction : List Label := refusal ++ [.admitAt "second" "2026-06-02T12:06:00Z" 1780000004]

theorem smallCache_history :
    History .byNonce 0 smallCache eviction ∧
      "first" ∉ (eviction.foldl (step .byNonce) smallCache).cache.nonces ∧
      ∀ again, admission .byNonce ((refusal.take 2).foldl (step .byNonce) smallCache) firstAgain ≠
        some ("first", again) := by
  have hStart : Start 0 smallCache := ⟨rfl, rfl, rfl, .inl rfl, rfl⟩
  refine ⟨cache_history .byNonce 0 smallCache eviction hStart (by decide +kernel),
    by decide +kernel, ?_⟩
  have hRefusal := cache_history .byNonce 0 smallCache refusal hStart (by decide +kernel)
  have hFits : ∀ before ∈ refusal.inits,
      (unexpired (before.foldl (step .byNonce) smallCache)).card ≤ max 0 1 := by
    decide +kernel
  refine hRefusal.single (fun before hBefore => hFits before ((List.mem_inits _ _).mpr hBefore))
    (refusal.take 2) [] firstAgain rfl "first" 1780401900 ?_ (by decide)
  decide +kernel

end Sample

end

end MxAgent.System.CacheHistory
