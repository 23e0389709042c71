import Mathlib.Algebra.Order.Ring.Int
import Mathlib.Data.Int.ConditionallyCompleteOrder
import Mathlib.Order.ConditionallyCompleteLattice.Basic
import Std.Data.ExtTreeMap.Lemmas
import MxAgent.Foundations.SingleUse
import MxAgent.Daemon.Timestamp

/-! The replay cache. A privileged request carries a nonce and an expiry; the
cache admits each unexpired nonce once, keeps at most `capacity` of them and
writes its whole map over the cache file after every change. -/
namespace MxAgent.Daemon

open Std (ExtTreeMap)

inductive IoErrorKind where
  | notFound
  | other
  deriving DecidableEq, Repr

abbrev IoResult := Except IoErrorKind Unit

inductive ReplayError where
  | expired
  | replayed
  | malformedTimestamp
  | corrupt
  | io (kind : IoErrorKind)
  deriving DecidableEq, Repr

abbrev Nonces := ExtTreeMap String Int

structure StoredCache where
  capacity : Nat
  nonces : Nonces
  deriving DecidableEq

/-- The cache file and its sentinel. A file that does not parse is `none`. -/
structure ReplayDisk where
  file : Option (Option StoredCache)
  quarantined : Bool
  deriving DecidableEq

/-- A loaded cache. Loading raises a stored capacity of zero to one. -/
structure ReplayCache where
  capacity : Nat
  nonces : Nonces
  capacity_pos : 0 < capacity
  deriving DecidableEq

/-- Which entry the eviction loop removes. `min_by_key` takes the first of minimal expiry in the
iteration order of a hash map, which is left open, so any entry that expires soonest may go. -/
structure EvictionOrder where
  victim : Nonces → Option String
  victim_isSome : ∀ nonces, nonces.isEmpty = false → (victim nonces).isSome
  victim_soonest : ∀ nonces nonce, victim nonces = some nonce →
    ∃ expiry, nonces[nonce]? = some expiry ∧
      ∀ (other : String) later, nonces[other]? = some later → expiry ≤ later

/-- The choice that goes by the order of the nonces among equals. -/
def EvictionOrder.byNonce : EvictionOrder where
  victim nonces := (nonces.toList.minOn? Prod.snd).map Prod.fst
  victim_isSome := by
    intro nonces hNonempty
    rw [Option.isSome_map, List.isSome_minOn?_iff, ne_eq,
      ExtTreeMap.toList_eq_nil_iff, ← ExtTreeMap.isEmpty_iff, hNonempty]
    decide
  victim_soonest := by
    intro nonces nonce hVictim
    obtain ⟨⟨key, expiry⟩, hMin, rfl⟩ := Option.map_eq_some_iff.mp hVictim
    refine ⟨expiry, ExtTreeMap.mem_toList_iff_getElem?_eq_some.mp (List.minOn?_mem hMin), ?_⟩
    intro other later hOther
    have hMember : (other, later) ∈ nonces.toList :=
      ExtTreeMap.mem_toList_iff_getElem?_eq_some.mpr hOther
    have hLe := List.apply_get_minOn?_le_of_mem (f := Prod.snd) hMember
    simpa [hMin] using hLe

def Nonces.pruneExpired (nonces : Nonces) (now : Int) : Nonces :=
  nonces.filter fun _ expiry => decide (now < expiry)

/-- The eviction loop of `admit_at`, with an entry removed each turn. -/
def Nonces.makeRoom (order : EvictionOrder) (capacity : Nat) : Nat → Nonces → Nonces
  | 0, nonces => nonces
  | turns + 1, nonces =>
    if nonces.size < capacity then nonces
    else match order.victim nonces with
      | some victim => makeRoom order capacity turns (nonces.erase victim)
      | none => nonces

namespace ReplayCache

def defaultCapacity : Nat := 8192

def pruneExpired (cache : ReplayCache) (now : Int) : ReplayCache :=
  { cache with nonces := cache.nonces.pruneExpired now }

/-- `persist`: a temporary file renamed over the cache file, or no change. -/
def persist (cache : ReplayCache) (write : IoResult) (disk : ReplayDisk) :
    Except ReplayError Unit × ReplayDisk :=
  match write with
  | .ok () => (.ok (), { disk with file := some (some ⟨cache.capacity, cache.nonces⟩) })
  | .error kind => (.error (.io kind), disk)

/-- `load_with_capacity`, with the answers of the file and of the quarantine. -/
def loadWithCapacity (capacity : Nat) (now : Int) (read rename : IoResult) (disk : ReplayDisk) :
    Except ReplayError ReplayCache × ReplayDisk :=
  if disk.quarantined then (.error .corrupt, disk)
  else match disk.file with
    | none => (.ok (pruneExpired ⟨max capacity 1, ∅, by omega⟩ now), disk)
    | some contents =>
      match read with
      | .error .notFound => (.ok (pruneExpired ⟨max capacity 1, ∅, by omega⟩ now), disk)
      | .error kind => (.error (.io kind), disk)
      | .ok () =>
        match contents with
        | some stored =>
          (.ok (pruneExpired ⟨max stored.capacity 1, stored.nonces, by omega⟩ now), disk)
        | none =>
          (.error .corrupt,
            match rename with
            | .ok () => ⟨none, true⟩
            | .error _ => disk)

def load (now : Int) (read rename : IoResult) (disk : ReplayDisk) :
    Except ReplayError ReplayCache × ReplayDisk :=
  loadWithCapacity defaultCapacity now read rename disk

/-- Record a nonce after its checks: drop expired entries, make room, insert. -/
def record (order : EvictionOrder) (cache : ReplayCache) (nonce : String) (expiry now : Int) :
    ReplayCache :=
  let pruned := cache.nonces.pruneExpired now
  { cache with nonces := (pruned.makeRoom order cache.capacity pruned.size).insert nonce expiry }

/-- `admit_at`. The nonce is recorded before the write, so a failed write is an error from a cache
that holds it. -/
def admitAt (order : EvictionOrder) (cache : ReplayCache) (nonce expiresAt : String) (now : Int)
    (write : IoResult) (disk : ReplayDisk) : Except ReplayError Unit × ReplayCache × ReplayDisk :=
  match parseRfc3339ToUnix expiresAt with
  | none => (.error .malformedTimestamp, cache, disk)
  | some expiry =>
    if expiry ≤ now then (.error .expired, cache, disk)
    else if cache.nonces.contains nonce then (.error .replayed, cache, disk)
    else
      let recorded := cache.record order nonce expiry now
      let (result, disk) := recorded.persist write disk
      (result, recorded, disk)

/-- `forget`: the map is written again only when the nonce was there. -/
def forget (cache : ReplayCache) (nonce : String) (write : IoResult) (disk : ReplayDisk) :
    Except ReplayError Unit × ReplayCache × ReplayDisk :=
  if cache.nonces.contains nonce then
    let forgotten := { cache with nonces := cache.nonces.erase nonce }
    let (result, disk) := forgotten.persist write disk
    (result, forgotten, disk)
  else (.ok (), cache, disk)

end ReplayCache

/-! Pruning and eviction only remove entries. -/

theorem Nonces.getElem?_pruneExpired (nonces : Nonces) (now : Int) (nonce : String) :
    (nonces.pruneExpired now)[nonce]? =
      (nonces[nonce]?).filter (fun expiry => decide (now < expiry)) := by
  simp [Nonces.pruneExpired]

variable {nonces : Nonces} {now expiry : Int} {nonce : String} {order : EvictionOrder}
  {capacity : Nat} {use : NonceUse} {cache : ReplayCache}

theorem Nonces.pruneExpired_eq_some_iff :
    (nonces.pruneExpired now)[nonce]? = some expiry ↔
      nonces[nonce]? = some expiry ∧ now < expiry := by
  rw [Nonces.getElem?_pruneExpired, Option.filter_eq_some_iff]
  simp

theorem Nonces.makeRoom_of_lt {turns : Nat}
    (h : nonces.size < capacity) : nonces.makeRoom order capacity turns = nonces := by
  cases turns with
  | zero => rfl
  | succ turns => simp [Nonces.makeRoom, h]

/-- The loop ends below the capacity: its fuel is never what stops it. -/
theorem Nonces.makeRoom_size_lt (hCapacity : 0 < capacity) (turns : Nat) (nonces : Nonces)
    (hTurns : nonces.size ≤ turns) :
    (nonces.makeRoom order capacity turns).size < capacity := by
  induction turns generalizing nonces with
  | zero =>
    have hEmpty : nonces.size = 0 := by omega
    simpa [Nonces.makeRoom, hEmpty] using hCapacity
  | succ turns ih =>
    rw [Nonces.makeRoom]
    split
    · assumption
    · rename_i hFull
      have hNonempty : nonces.isEmpty = false := by
        rw [ExtTreeMap.isEmpty_eq_size_beq_zero, beq_eq_false_iff_ne]
        omega
      obtain ⟨victim, hVictim⟩ :=
        Option.isSome_iff_exists.mp (order.victim_isSome nonces hNonempty)
      obtain ⟨expiry, hExpiry, -⟩ := order.victim_soonest nonces victim hVictim
      have hMem : victim ∈ nonces := by
        rw [← ExtTreeMap.isSome_getElem?_iff_mem, hExpiry]
        rfl
      simp only [hVictim]
      apply ih
      rw [ExtTreeMap.size_erase, if_pos (ExtTreeMap.contains_iff_mem.mpr hMem)]
      omega

theorem Nonces.of_makeRoom {turns : Nat}
    (h : (nonces.makeRoom order capacity turns)[nonce]? = some expiry) :
    nonces[nonce]? = some expiry := by
  induction turns generalizing nonces with
  | zero => exact h
  | succ turns ih =>
    rw [Nonces.makeRoom] at h
    split at h
    · exact h
    · split at h
      · have hErased := ih h
        rw [ExtTreeMap.getElem?_erase] at hErased
        split at hErased
        · cases hErased
        · exact hErased
      · exact h

def Nonces.expiringFrom (nonces : Nonces) (expiry : Int) : Nonces :=
  nonces.filter fun _ later => decide (expiry ≤ later)

theorem Nonces.expiringFrom_erase (nonces : Nonces) (expiry : Int) (nonce : String) :
    Nonces.expiringFrom (nonces.erase nonce) expiry = (nonces.expiringFrom expiry).erase nonce := by
  apply ExtTreeMap.ext_getElem?
  intro other
  simp only [Nonces.expiringFrom, ExtTreeMap.getElem?_filter', ExtTreeMap.getElem?_erase]
  split <;> rfl

theorem Nonces.exists_sooner (h : (nonces.expiringFrom expiry).size < nonces.size) :
    ∃ (other : String) (sooner : Int), nonces[other]? = some sooner ∧ sooner < expiry := by
  by_contra hNone
  push Not at hNone
  refine h.ne (ExtTreeMap.size_filter_eq_size_iff.mpr fun other hOther => ?_)
  exact decide_eq_true (hNone other _ (ExtTreeMap.getElem?_eq_some_getElem hOther))

/-- Eviction spares an entry while fewer than the capacity expire no sooner. -/
theorem Nonces.makeRoom_spares (turns : Nat) (nonces : Nonces) (h : nonces[nonce]? = some expiry)
    (hFew : (nonces.expiringFrom expiry).size < capacity) :
    (nonces.makeRoom order capacity turns)[nonce]? = some expiry := by
  induction turns generalizing nonces with
  | zero => exact h
  | succ turns ih =>
    rw [Nonces.makeRoom]
    split
    · exact h
    · rename_i hFull
      split
      · rename_i victim hVictim
        obtain ⟨other, sooner, hOther, hSooner⟩ : ∃ (other : String) (sooner : Int),
            nonces[other]? = some sooner ∧ sooner < expiry := Nonces.exists_sooner (by omega)
        obtain ⟨soonest, hSoonest, hLeast⟩ := order.victim_soonest nonces victim hVictim
        have hNe : victim ≠ nonce := by
          rintro rfl
          obtain rfl : expiry = soonest := Option.some.inj (h.symm.trans hSoonest)
          exact absurd (hLeast other sooner hOther) (by omega)
        refine ih _ ?_ ?_
        · rw [ExtTreeMap.getElem?_erase, if_neg (by simpa using hNe)]
          exact h
        · rw [Nonces.expiringFrom_erase]
          exact lt_of_le_of_lt ExtTreeMap.size_erase_le hFew
      · exact h

/-- A nonce with the expiry it is presented under: what is used once. -/
structure NonceUse where
  nonce : String
  expiresAt : String
  deriving DecidableEq, Repr

/-- A use is live before the time its expiry parses to. -/
def nonceLifetime : SingleUse.Lifetime NonceUse Int where
  live now use := ∃ expiry, parseRfc3339ToUnix use.expiresAt = some expiry ∧ now < expiry
  antitone := by
    rintro earlier later use hTime ⟨expiry, hParse, hLater⟩
    exact ⟨expiry, hParse, lt_of_le_of_lt hTime hLater⟩

def Nonces.Holds (nonces : Nonces) (use : NonceUse) : Prop :=
  ∃ expiry, parseRfc3339ToUnix use.expiresAt = some expiry ∧ nonces[use.nonce]? = some expiry

theorem Nonces.Holds.mem (h : nonces.Holds use) : use.nonce ∈ nonces := by
  obtain ⟨expiry, -, hExpiry⟩ := h
  rw [← ExtTreeMap.isSome_getElem?_iff_mem, hExpiry]
  rfl

theorem Nonces.Holds.pruneExpired (h : nonces.Holds use) (hLive : nonceLifetime.live now use) :
    (nonces.pruneExpired now).Holds use := by
  obtain ⟨expiry, hParse, hExpiry⟩ := h
  obtain ⟨expiry', hParse', hLater⟩ := hLive
  obtain rfl : expiry = expiry' := Option.some.inj (hParse.symm.trans hParse')
  exact ⟨expiry, hParse, Nonces.pruneExpired_eq_some_iff.mpr ⟨hExpiry, hLater⟩⟩

namespace ReplayCache

/-- The capacity is not reached: after pruning there is room for one more nonce. -/
def HasRoom (cache : ReplayCache) (now : Int) : Prop :=
  (cache.nonces.pruneExpired now).size < cache.capacity

instance (cache : ReplayCache) (now : Int) : Decidable (cache.HasRoom now) :=
  inferInstanceAs (Decidable (_ < _))

theorem record_nonces_of_hasRoom (h : cache.HasRoom now) :
    (cache.record order nonce expiry now).nonces =
      (cache.nonces.pruneExpired now).insert nonce expiry := by
  simp only [record, Nonces.makeRoom_of_lt h]

theorem record_holds {other : NonceUse} (hRoom : cache.HasRoom now)
    (hFresh : use.nonce ∉ cache.nonces) (hOther : cache.nonces.Holds other)
    (hLive : nonceLifetime.live now other) :
    (cache.record order use.nonce expiry now).nonces.Holds other := by
  have hNe : use.nonce ≠ other.nonce := by
    intro hEq
    exact hFresh (hEq ▸ hOther.mem)
  obtain ⟨kept, hParse, hKept⟩ := hOther.pruneExpired hLive
  refine ⟨kept, hParse, ?_⟩
  rw [record_nonces_of_hasRoom hRoom, ExtTreeMap.getElem?_insert]
  simpa [hNe] using hKept

/-- Recording a nonce keeps a live use of another one that eviction spares. -/
theorem record_spares {other : NonceUse} {later : Int}
    (hParse : parseRfc3339ToUnix other.expiresAt = some later)
    (hFew : ((cache.nonces.pruneExpired now).expiringFrom later).size < cache.capacity)
    (hFresh : nonce ∉ cache.nonces) (hOther : cache.nonces.Holds other)
    (hLive : nonceLifetime.live now other) :
    (cache.record order nonce expiry now).nonces.Holds other := by
  have hNe : nonce ≠ other.nonce := by
    rintro rfl
    exact hFresh hOther.mem
  obtain ⟨kept, hKept, hEntry⟩ := hOther.pruneExpired hLive
  obtain rfl : kept = later := Option.some.inj (hKept.symm.trans hParse)
  refine ⟨kept, hParse, ?_⟩
  have hSpared : ((cache.nonces.pruneExpired now).makeRoom order cache.capacity
      (cache.nonces.pruneExpired now).size)[other.nonce]? = some kept :=
    Nonces.makeRoom_spares _ _ hEntry hFew
  simpa [record, ExtTreeMap.getElem?_insert, hNe] using hSpared

theorem record_holds_self (hParse : parseRfc3339ToUnix use.expiresAt = some expiry) :
    (cache.record order use.nonce expiry now).nonces.Holds use :=
  ⟨expiry, hParse, by simp [record]⟩

/-- A cache after recording a nonce holds it, else unexpired entries only. -/
theorem record_entry {other : String} {later : Int}
    (h : (cache.record order nonce expiry now).nonces[other]? = some later) :
    (other = nonce ∧ later = expiry) ∨ (cache.nonces[other]? = some later ∧ now < later) := by
  simp only [record, ExtTreeMap.getElem?_insert] at h
  split at h
  · rename_i hSame
    cases h
    exact .inl ⟨(Std.LawfulEqCmp.eq_of_compare hSame).symm, rfl⟩
  · exact .inr (Nonces.pruneExpired_eq_some_iff.mp (Nonces.of_makeRoom h))

theorem record_size_le (order : EvictionOrder) (cache : ReplayCache) (nonce : String)
    (expiry now : Int) : (cache.record order nonce expiry now).nonces.size ≤ cache.capacity :=
  ExtTreeMap.size_insert_le.trans
    (Nonces.makeRoom_size_lt cache.capacity_pos _ _ le_rfl)

/-- Recording a nonce costs a live entry its place only in a cache full of live ones, none of which
expires sooner. -/
theorem record_loses {other : String} {later : Int} (hBounded : cache.nonces.size ≤ cache.capacity)
    (hFresh : other ∉ cache.nonces) (hHeld : cache.nonces[nonce]? = some expiry)
    (hLive : now < expiry)
    (hLost : (cache.record order other later now).nonces[nonce]? ≠ some expiry) :
    (cache.nonces.pruneExpired now).size = cache.capacity ∧
      ∀ (third : String) (last : Int),
        (cache.nonces.pruneExpired now)[third]? = some last → expiry ≤ last := by
  have hEntry : (cache.nonces.pruneExpired now)[nonce]? = some expiry :=
    Nonces.pruneExpired_eq_some_iff.mpr ⟨hHeld, hLive⟩
  have hNe : other ≠ nonce := by
    rintro rfl
    exact hFresh (ExtTreeMap.isSome_getElem?_iff_mem.mp (Option.isSome_of_eq_some hHeld))
  have hMany : cache.capacity ≤ ((cache.nonces.pruneExpired now).expiringFrom expiry).size := by
    by_contra hFew
    have hSpared : ((cache.nonces.pruneExpired now).makeRoom order cache.capacity
        (cache.nonces.pruneExpired now).size)[nonce]? = some expiry :=
      Nonces.makeRoom_spares _ _ hEntry (by omega)
    exact hLost (by simpa [record, ExtTreeMap.getElem?_insert, hNe] using hSpared)
  have hLater : ((cache.nonces.pruneExpired now).expiringFrom expiry).size ≤
      (cache.nonces.pruneExpired now).size := ExtTreeMap.size_filter_le_size
  have hPruned : (cache.nonces.pruneExpired now).size ≤ cache.nonces.size :=
    ExtTreeMap.size_filter_le_size
  refine ⟨by omega, fun third last hThird => ?_⟩
  have hAll : ((cache.nonces.pruneExpired now).expiringFrom expiry).size =
      (cache.nonces.pruneExpired now).size := by omega
  obtain ⟨hMem, hGet⟩ := ExtTreeMap.getElem?_eq_some_iff.mp hThird
  have hLast := ExtTreeMap.size_filter_eq_size_iff.mp hAll third hMem
  rw [hGet] at hLast
  exact of_decide_eq_true hLast

theorem forget_holds {write : IoResult} {disk : ReplayDisk} (h : cache.nonces.Holds use)
    (hNe : use.nonce ≠ nonce) :
    (cache.forget nonce write disk).2.1.nonces.Holds use := by
  unfold forget
  split
  · obtain ⟨expiry, hParse, hExpiry⟩ := h
    refine ⟨expiry, hParse, ?_⟩
    rw [ExtTreeMap.getElem?_erase, if_neg]
    · exact hExpiry
    · simpa using hNe.symm
  · exact h

/-- Everything `admit_at` can do. A denial touches nothing; else the nonce is recorded, and the
write decides the answer and the file. -/
theorem admitAt_cases (order : EvictionOrder) (cache : ReplayCache) (nonce expiresAt : String)
    (now : Int) (write : IoResult) (disk : ReplayDisk) :
    (∃ error, admitAt order cache nonce expiresAt now write disk = (.error error, cache, disk)) ∨
    ∃ expiry, parseRfc3339ToUnix expiresAt = some expiry ∧ now < expiry ∧ nonce ∉ cache.nonces ∧
      admitAt order cache nonce expiresAt now write disk =
        (((cache.record order nonce expiry now).persist write disk).1,
          cache.record order nonce expiry now,
          ((cache.record order nonce expiry now).persist write disk).2) := by
  unfold admitAt
  cases hParse : parseRfc3339ToUnix expiresAt with
  | none => exact .inl ⟨_, rfl⟩
  | some expiry =>
    by_cases hExpired : expiry ≤ now
    · exact .inl ⟨.expired, by simp [hExpired]⟩
    by_cases hSeen : cache.nonces.contains nonce
    · exact .inl ⟨.replayed, by simp [hExpired, hSeen]⟩
    refine .inr ⟨expiry, rfl, by omega, ?_, by simp [hExpired, hSeen]⟩
    simpa using hSeen

/-- With a write that succeeds, the two cases are a denial and an admission. -/
theorem admitAt_written (order : EvictionOrder) (cache : ReplayCache) (nonce expiresAt : String)
    (now : Int) (disk : ReplayDisk) :
    (∃ error, admitAt order cache nonce expiresAt now (.ok ()) disk = (.error error, cache, disk)) ∨
    ∃ expiry, parseRfc3339ToUnix expiresAt = some expiry ∧ now < expiry ∧ nonce ∉ cache.nonces ∧
      admitAt order cache nonce expiresAt now (.ok ()) disk =
        (.ok (), cache.record order nonce expiry now,
          { disk with
            file := some (some ⟨cache.capacity, (cache.record order nonce expiry now).nonces⟩) }) :=
  admitAt_cases order cache nonce expiresAt now (.ok ()) disk

end ReplayCache

end MxAgent.Daemon
