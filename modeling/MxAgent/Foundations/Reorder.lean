import Mathlib.Data.Finset.Card
import Mathlib.Data.List.Dedup
import Std.Data.ExtTreeMap.Lemmas

/-! A reorder buffer for numbered items. Items may come late, early, more than once or
not at all; they are released in the order of their numbers. What is ahead of a gap waits
for it, up to a bound on how many may wait, and then the gap is given up.

Whether a gap is given up is a property of the order in which the numbers arrive. -/
namespace Reorder

variable {α : Type}

structure Buffer (α : Type) where
  /-- The least number not yet released. -/
  nextExpected : Nat
  /-- The items that wait, all with larger numbers. -/
  ahead : Std.ExtTreeMap Nat α

namespace Buffer

def empty : Buffer α := ⟨0, ∅⟩

/-- Release the contiguous run that starts at the next number. -/
def drainContiguous : Nat → Buffer α → List α × Buffer α
  | 0, b => ([], b)
  | fuel + 1, b =>
    match b.ahead[b.nextExpected]? with
    | none => ([], b)
    | some item =>
      let (ready, b) :=
        drainContiguous fuel ⟨b.nextExpected + 1, b.ahead.erase b.nextExpected⟩
      (item :: ready, b)

def drain (b : Buffer α) : List α × Buffer α := drainContiguous b.ahead.size b

/-- Give up gaps until no more than `bound` items wait. -/
def giveUp (bound : Nat) : Nat → Buffer α → List α × List Nat × Buffer α
  | 0, b => ([], [], b)
  | fuel + 1, b =>
    if b.ahead.size ≤ bound then ([], [], b)
    else match b.ahead.minKey? with
      | none => ([], [], b)
      | some first =>
        let lost := List.range' b.nextExpected (first - b.nextExpected)
        let (ready, b) := drain ⟨max b.nextExpected first, b.ahead⟩
        let (later, more, b) := giveUp bound fuel b
        (ready ++ later, lost ++ more, b)

/-- Take a new item in: it is released with the run it completes, or it waits. -/
def accept (seq : Nat) (item : α) (b : Buffer α) : List α × Buffer α :=
  if seq = b.nextExpected then
    let (ready, b) := drain ⟨b.nextExpected + 1, b.ahead⟩
    (item :: ready, b)
  else ([], { b with ahead := b.ahead.insert seq item })

/-- Take an item in, with a bound on how many may wait. One released or waiting is dropped. -/
def push (seq : Nat) (item : α) (window : Nat) (b : Buffer α) : List α × List Nat × Buffer α :=
  if seq < b.nextExpected || b.ahead.contains seq then ([], [], b)
  else
    let (ready, b) := b.accept seq item
    let (later, lost, b) := giveUp window b.ahead.size b
    (ready ++ later, lost, b)

/-- Release everything that waits and give up every gap before it. -/
def flush (b : Buffer α) : List α × List Nat × Buffer α := giveUp 0 b.ahead.size b

end Buffer

/-! ## What the numbers seen determine -/

def beyond (seen : List Nat) (seq : Nat) : Nat :=
  (seen.toFinset.filter fun later => seq < later).card

/-- At no time have more than `window` of the numbers overtaken one that is still missing. -/
def WithinWindow (window : Nat) (seen : List Nat) : Prop :=
  ∀ arrived, arrived <+: seen → ∀ seq ∉ arrived, beyond arrived seq ≤ window

/-- The numbers seen are an initial segment: there is no gap among them. -/
def Contiguous (seen : List Nat) : Prop := ∀ seq ∈ seen, ∀ earlier < seq, earlier ∈ seen

variable {seen : List Nat} {window seq : Nat}

theorem withinWindow_nil : WithinWindow window [] := by
  intro arrived hPrefix seq _
  rw [List.prefix_nil.mp hPrefix]
  simp [beyond]

theorem withinWindow_concat_iff :
    WithinWindow window (seen ++ [seq]) ↔ WithinWindow window seen ∧
      ∀ missing ∉ seen ++ [seq], beyond (seen ++ [seq]) missing ≤ window := by
  constructor
  · intro h
    exact ⟨fun arrived hPrefix => h arrived (hPrefix.trans (List.prefix_append ..)),
      h _ (List.prefix_refl _)⟩
  · rintro ⟨hBefore, hNow⟩ arrived hPrefix
    rcases List.prefix_concat_iff.mp hPrefix with rfl | hEarlier
    · exact hNow
    · exact hBefore arrived hEarlier

theorem beyond_mono {more : List Nat} (h : ∀ other ∈ seen, other ∈ more) (seq : Nat) :
    beyond seen seq ≤ beyond more seq := by
  refine Finset.card_le_card (Finset.filter_subset_filter _ ?_)
  intro other hOther
  exact List.mem_toFinset.mpr (h other (List.mem_toFinset.mp hOther))

/-- Where everything arrives in the end, the first arrival of each number decides. -/
theorem withinWindow_of_first_arrivals (hContiguous : Contiguous seen)
    (h : ∀ arrived seq, arrived ++ [seq] <+: seen → seq ∉ arrived →
      beyond arrived seq ≤ window) : WithinWindow window seen := by
  intro arrived hPrefix seq hMissing
  by_cases hSeen : seq ∈ seen
  · obtain ⟨rest, rfl⟩ := hPrefix
    have hRest : seq ∈ rest := (List.mem_append.mp hSeen).resolve_left hMissing
    obtain ⟨between, after, rfl, hFirst⟩ := List.eq_append_cons_of_mem hRest
    have hBound := h (arrived ++ between) seq ⟨after, by simp⟩ (by simp [hMissing, hFirst])
    exact le_trans (beyond_mono (fun _ => List.mem_append_left _) seq) hBound
  · have hNone : beyond arrived seq = 0 := by
      rw [beyond, Finset.card_eq_zero, Finset.filter_eq_empty_iff]
      intro later hLater hMore
      exact hSeen (hContiguous later (hPrefix.subset (List.mem_toFinset.mp hLater)) seq hMore)
    omega

end Reorder
