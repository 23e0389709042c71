import Mathlib.Data.List.Nodup
import Mathlib.Order.Basic

/-! Single use of tokens that expire. A guard keeps a set of tokens it has
seen and a log of the tokens it accepted. It may drop a token from the set once
the token is no longer live, so the log is the longer of the two. What prevents a
second acceptance is that the set still holds every live token of the log. -/
namespace SingleUse

variable {Token Time : Type*} [Preorder Time]

/-- Which tokens can still be accepted at a time. A dead token stays dead. -/
structure Lifetime (Token Time : Type*) [Preorder Time] where
  live : Time → Token → Prop
  antitone : ∀ {earlier later : Time} {token : Token},
    earlier ≤ later → live later token → live earlier token

variable (lifetime : Lifetime Token Time)

/-- Every logged token that is still live is seen. -/
def Accounted (seen : Token → Prop) (log : List Token) (now : Time) : Prop :=
  ∀ token ∈ log, lifetime.live now token → seen token

variable {lifetime} {seen seen' : Token → Prop} {log : List Token} {earlier now : Time}

theorem accounted_nil : Accounted lifetime seen [] now := by
  intro token hToken
  cases hToken

/-- Time passing only shrinks what the seen set has to hold. It may lose dead tokens meanwhile. -/
theorem Accounted.advance (h : Accounted lifetime seen log earlier) (hTime : earlier ≤ now)
    (hKeep : ∀ token, lifetime.live now token → seen token → seen' token) :
    Accounted lifetime seen' log now := by
  intro token hToken hLive
  exact hKeep token hLive (h token hToken (lifetime.antitone hTime hLive))

theorem Accounted.not_mem (h : Accounted lifetime seen log now) {token : Token}
    (hLive : lifetime.live now token) (hFresh : ¬ seen token) : token ∉ log :=
  fun hToken => hFresh (h token hToken hLive)

/-- Accepting and recording a fresh live token keeps the account and adds no repetition. -/
theorem Accounted.accept (h : Accounted lifetime seen log earlier) (hNodup : log.Nodup)
    (hTime : earlier ≤ now) {token : Token} (hLive : lifetime.live now token)
    (hFresh : ¬ seen token)
    (hKeep : ∀ other, lifetime.live now other → seen other → seen' other)
    (hRecord : seen' token) :
    Accounted lifetime seen' (log ++ [token]) now ∧ (log ++ [token]).Nodup := by
  have hBefore : Accounted lifetime seen log now := h.advance hTime (fun _ _ hSeen => hSeen)
  have hAfter : Accounted lifetime seen' log now := h.advance hTime hKeep
  constructor
  · intro other hOther hOtherLive
    rcases List.mem_append.mp hOther with hOld | hNew
    · exact hAfter other hOld hOtherLive
    · rw [List.mem_singleton.mp hNew]
      exact hRecord
  · rw [← List.concat_eq_append]
    exact hNodup.concat (hBefore.not_mem hLive hFresh)

end SingleUse
