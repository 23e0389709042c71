import MxAgent.Daemon.Replay

/-! The replay cache as a scheduler pass shares it between the orchestrator and
its approval gate, and what a series of admissions and compensations leaves in it. -/
namespace MxAgent.Daemon

/-- The replay cache an orchestrator shares with its gate, and its file. For proofs only: when it
was last asked, and whether it always had room while the clock never went back. -/
structure ReplayHandle where
  cache : ReplayCache
  disk : ReplayDisk
  clock : Int
  undisturbed : Bool
  deriving DecidableEq

namespace ReplayHandle

def admitAt (order : EvictionOrder) (handle : ReplayHandle) (use : NonceUse) (now : Int)
    (write : IoResult) : Except ReplayError Unit × ReplayHandle :=
  let (result, cache, disk) :=
    handle.cache.admitAt order use.nonce use.expiresAt now write handle.disk
  (result, ⟨cache, disk, now,
    handle.undisturbed && decide (handle.clock ≤ now) && decide (handle.cache.HasRoom now)⟩)

def forget (handle : ReplayHandle) (nonce : String) (write : IoResult) : ReplayHandle :=
  let (_, cache, disk) := handle.cache.forget nonce write handle.disk
  { handle with cache, disk }

end ReplayHandle

/-- The cache still holds every live use, while nothing was evicted. -/
structure ReplayHandle.Keeps (before after : ReplayHandle) : Prop where
  undisturbed : after.undisturbed → before.undisturbed
  clock : after.undisturbed → before.clock ≤ after.clock
  held : after.undisturbed → ∀ use, nonceLifetime.live after.clock use →
    before.cache.nonces.Holds use → after.cache.nonces.Holds use

/-- No live use the cache holds has this nonce. -/
def ReplayHandle.Lapsed (handle : ReplayHandle) (nonce : String) (now : Int) : Prop :=
  ∀ use : NonceUse, use.nonce = nonce → handle.cache.nonces.Holds use →
    ¬ nonceLifetime.live now use

variable {handle : ReplayHandle} {nonce : String}

namespace ReplayHandle

theorem Keeps.refl (handle : ReplayHandle) : handle.Keeps handle :=
  ⟨id, fun _ => le_rfl, fun _ _ _ hHeld => hHeld⟩

theorem Keeps.trans {first second third : ReplayHandle} (h : first.Keeps second)
    (h' : second.Keeps third) : first.Keeps third where
  undisturbed hEnd := h.undisturbed (h'.undisturbed hEnd)
  clock hEnd := le_trans (h.clock (h'.undisturbed hEnd)) (h'.clock hEnd)
  held hEnd use hLive hHeld :=
    h'.held hEnd use hLive
      (h.held (h'.undisturbed hEnd) use (nonceLifetime.antitone (h'.clock hEnd) hLive) hHeld)

theorem undisturbed_admitAt {order : EvictionOrder} {use : NonceUse} {now : Int} {write : IoResult}
    (h : (handle.admitAt order use now write).2.undisturbed) :
    handle.undisturbed ∧ handle.clock ≤ now ∧ handle.cache.HasRoom now := by
  simp only [admitAt, Bool.and_eq_true, decide_eq_true_eq] at h
  exact ⟨h.1.1, h.1.2, h.2⟩

theorem keeps_admitAt (order : EvictionOrder) (handle : ReplayHandle) (use : NonceUse) (now : Int)
    (write : IoResult) : handle.Keeps (handle.admitAt order use now write).2 where
  undisturbed h := (undisturbed_admitAt h).1
  clock h := (undisturbed_admitAt h).2.1
  held h other hLive hHeld := by
    obtain ⟨-, -, hRoom⟩ := undisturbed_admitAt h
    rcases ReplayCache.admitAt_cases order handle.cache use.nonce use.expiresAt now write
      handle.disk with ⟨error, hDenied⟩ | ⟨expiry, -, -, hFresh, hAdmit⟩
    · simpa [admitAt, hDenied] using hHeld
    · have hRecorded : (handle.cache.record order use.nonce expiry now).nonces.Holds other :=
        ReplayCache.record_holds hRoom hFresh hHeld hLive
      simpa [admitAt, hAdmit] using hRecorded

/-- An admitted use was new, is live, and is held from then on. -/
theorem admitAt_ok {order : EvictionOrder} {use : NonceUse} {now : Int} {write : IoResult}
    (h : (handle.admitAt order use now write).1 = .ok ()) :
    use.nonce ∉ handle.cache.nonces ∧ nonceLifetime.live now use ∧
      (handle.admitAt order use now write).2.cache.nonces.Holds use := by
  rcases ReplayCache.admitAt_cases order handle.cache use.nonce use.expiresAt now write
    handle.disk with ⟨error, hDenied⟩ | ⟨expiry, hParse, hLater, hFresh, hAdmit⟩
  · simp [admitAt, hDenied] at h
  · refine ⟨hFresh, ⟨expiry, hParse, hLater⟩, ?_⟩
    have hRecorded : (handle.cache.record order use.nonce expiry now).nonces.Holds use :=
      ReplayCache.record_holds_self hParse
    simpa [admitAt, hAdmit] using hRecorded

/-- A nonce not in the cache has lapsed for all that the cache kept. -/
theorem Keeps.lapsed {before after : ReplayHandle} (h : before.Keeps after)
    (hFresh : nonce ∉ after.cache.nonces) (hEnd : after.undisturbed) {now : Int}
    (hTime : after.clock ≤ now) : before.Lapsed nonce now := by
  rintro use rfl hHeld hLive
  exact hFresh (h.held hEnd use (nonceLifetime.antitone hTime hLive) hHeld).mem

theorem lapsed_of_not_mem (hFresh : nonce ∉ handle.cache.nonces)
    (now : Int) : handle.Lapsed nonce now := by
  rintro use rfl hHeld
  exact absurd hHeld.mem hFresh

/-- Forgetting a nonce that has lapsed for an earlier cache loses nothing. -/
theorem Keeps.forget {before after : ReplayHandle} (h : before.Keeps after) (write : IoResult)
    (hLapsed : after.undisturbed → before.Lapsed nonce after.clock) :
    before.Keeps (after.forget nonce write) where
  undisturbed hEnd := h.undisturbed hEnd
  clock hEnd := h.clock hEnd
  held hEnd use hLive hHeld := by
    have hAfter := h.held hEnd use hLive hHeld
    have hNe : use.nonce ≠ nonce := fun hEq => hLapsed hEnd use hEq hHeld hLive
    exact ReplayCache.forget_holds hAfter hNe

end ReplayHandle

end MxAgent.Daemon
