import MxAgent.Foundations.Reorder

/-! Runs of a reorder buffer that may lose items. Whatever arrives, the boundary of the
buffer moves upwards; each number it passes is released or given up, and what is released
is the first item that arrived under its number. A run that loses nothing has released what
the numbers seen determine. -/
namespace Reorder

open Std (ExtTreeMap)

variable {α : Type}

/-- The boundary has moved: every item waiting below it was released, every other number there given
up, and what is beyond still waits. -/
structure Advanced (b : Buffer α) (ready : List α) (lost : List Nat) (after : Buffer α) : Prop where
  le : b.nextExpected ≤ after.nextExpected
  ready_eq : ready =
    (List.range' b.nextExpected (after.nextExpected - b.nextExpected)).filterMap (b.ahead[·]?)
  lost_eq : lost =
    (List.range' b.nextExpected (after.nextExpected - b.nextExpected)).filter
      fun seq => !b.ahead.contains seq
  kept : ∀ seq, after.ahead[seq]? = if after.nextExpected ≤ seq then b.ahead[seq]? else none
  /-- The boundary stops behind an item. -/
  stop : after.nextExpected ≠ b.nextExpected → b.ahead.contains (after.nextExpected - 1)

def Above (b : Buffer α) : Prop := ∀ seq, b.ahead.contains seq → b.nextExpected ≤ seq

/-- The item at the boundary has not come. -/
def Drained (b : Buffer α) : Prop := b.ahead.contains b.nextExpected = false

def Buffer.waiting (b : Buffer α) : Finset Nat := b.ahead.keys.toFinset

theorem mem_waiting {b : Buffer α} {seq : Nat} : seq ∈ b.waiting ↔ b.ahead.contains seq := by
  rw [Buffer.waiting, List.mem_toFinset, ExtTreeMap.mem_keys, ExtTreeMap.contains_iff_mem]

theorem card_waiting (b : Buffer α) : b.waiting.card = b.ahead.size := by
  rw [Buffer.waiting, List.toFinset_card_of_nodup ExtTreeMap.nodup_keys,
    ExtTreeMap.length_keys]

namespace Advanced

variable {b middle after : Buffer α} {ready later : List α} {lost more : List Nat}

theorem refl (h : Above b) : Advanced b [] [] b where
  le := le_refl _
  ready_eq := by simp
  lost_eq := by simp
  kept seq := by
    split
    next => rfl
    next hBelow =>
      rw [ExtTreeMap.getElem?_eq_none]
      exact fun hMem => hBelow (h seq (ExtTreeMap.contains_iff_mem.mpr hMem))
  stop h := absurd rfl h

theorem contains_eq (h : Advanced b ready lost after) {seq : Nat}
    (hSeq : after.nextExpected ≤ seq) : after.ahead.contains seq = b.ahead.contains seq := by
  rw [ExtTreeMap.contains_eq_isSome_getElem?, ExtTreeMap.contains_eq_isSome_getElem?,
    h.kept, if_pos hSeq]

theorem above (h : Advanced b ready lost after) : Above after := by
  intro seq hSeq
  rw [ExtTreeMap.contains_eq_isSome_getElem?, h.kept] at hSeq
  by_contra hBelow
  rw [if_neg hBelow] at hSeq
  cases hSeq

theorem trans (h : Advanced b ready lost middle) (hNext : Advanced middle later more after) :
    Advanced b (ready ++ later) (lost ++ more) after := by
  have hSplit : List.range' b.nextExpected (after.nextExpected - b.nextExpected) =
      List.range' b.nextExpected (middle.nextExpected - b.nextExpected) ++
        List.range' middle.nextExpected (after.nextExpected - middle.nextExpected) := by
    have hFirst := h.le
    have hSecond := hNext.le
    have hLength : after.nextExpected - b.nextExpected =
        (middle.nextExpected - b.nextExpected) + (after.nextExpected - middle.nextExpected) := by
      omega
    have hStart :
        b.nextExpected + (middle.nextExpected - b.nextExpected) = middle.nextExpected := by
      omega
    rw [hLength, ← List.range'_append_1, hStart]
  refine ⟨h.le.trans hNext.le, ?_, ?_, ?_, ?_⟩
  · rw [hSplit, List.filterMap_append, h.ready_eq, hNext.ready_eq]
    congr 1
    refine List.filterMap_congr fun seq hSeq => ?_
    rw [h.kept, if_pos (List.mem_range'_1.mp hSeq).1]
  · rw [hSplit, List.filter_append, h.lost_eq, hNext.lost_eq]
    congr 1
    refine List.filter_congr fun seq hSeq => ?_
    rw [h.contains_eq (List.mem_range'_1.mp hSeq).1]
  · intro seq
    rw [hNext.kept, h.kept]
    by_cases hSeq : after.nextExpected ≤ seq
    · rw [if_pos hSeq, if_pos hSeq, if_pos (hNext.le.trans hSeq)]
    · rw [if_neg hSeq, if_neg hSeq]
  · intro hMoved
    by_cases hSame : after.nextExpected = middle.nextExpected
    · rw [hSame] at hMoved ⊢
      exact h.stop hMoved
    · have hLe := hNext.le
      rw [← h.contains_eq (by omega)]
      exact hNext.stop hSame

theorem waiting_subset (h : Advanced b ready lost after) : after.waiting ⊆ b.waiting := by
  intro seq hSeq
  rw [mem_waiting] at hSeq ⊢
  rwa [← h.contains_eq (h.above seq hSeq)]

theorem next {item : α} (hAbove : Above b) (hItem : b.ahead[b.nextExpected]? = some item) :
    Advanced b [item] [] ⟨b.nextExpected + 1, b.ahead.erase b.nextExpected⟩ := by
  have hContains : b.ahead.contains b.nextExpected := by
    rw [ExtTreeMap.contains_eq_isSome_getElem?, hItem]
    rfl
  refine ⟨Nat.le_succ _, ?_, ?_, fun seq => ?_, fun _ => hContains⟩
  · simp [hItem]
  · simp [hContains]
  · rw [ExtTreeMap.getElem?_erase]
    simp only [compare_eq_iff_eq]
    by_cases hSame : b.nextExpected = seq
    · rw [if_pos hSame, if_neg (by omega)]
    · rw [if_neg hSame]
      by_cases hLater : b.nextExpected + 1 ≤ seq
      · rw [if_pos hLater]
      · rw [if_neg hLater, ExtTreeMap.getElem?_eq_none]
        intro hMem
        have hSeq := hAbove seq (ExtTreeMap.contains_iff_mem.mpr hMem)
        omega

/-- A gap up to the first item that waits is given up together with the run behind it. -/
theorem skip {first : Nat} (hFirst : b.nextExpected ≤ first)
    (hMin : ∀ seq, b.ahead.contains seq → first ≤ seq)
    (h : Advanced ⟨first, b.ahead⟩ ready [] after) (hMoved : first < after.nextExpected) :
    Advanced b ready (List.range' b.nextExpected (first - b.nextExpected)) after := by
  have hSplit : List.range' b.nextExpected (after.nextExpected - b.nextExpected) =
      List.range' b.nextExpected (first - b.nextExpected) ++
        List.range' first (after.nextExpected - first) := by
    have hLength : after.nextExpected - b.nextExpected =
        (first - b.nextExpected) + (after.nextExpected - first) := by
      omega
    have hStart : b.nextExpected + (first - b.nextExpected) = first := by
      omega
    rw [hLength, ← List.range'_append_1, hStart]
  have hGap : ∀ seq ∈ List.range' b.nextExpected (first - b.nextExpected),
      b.ahead.contains seq = false := by
    intro seq hSeq
    rw [Bool.eq_false_iff]
    intro hContains
    have hLater := hMin seq hContains
    have hRange := List.mem_range'_1.mp hSeq
    omega
  refine ⟨by omega, ?_, ?_, h.kept, fun _ => h.stop (by simp only; omega)⟩
  · have hNothing : (List.range' b.nextExpected (first - b.nextExpected)).filterMap
        (b.ahead[·]?) = [] := by
      refine List.filterMap_eq_nil_iff.mpr fun seq hSeq => ?_
      have hNone := hGap seq hSeq
      rwa [ExtTreeMap.contains_eq_isSome_getElem?, Option.isSome_eq_false_iff,
        Option.isNone_iff_eq_none] at hNone
    rw [hSplit, List.filterMap_append, hNothing, List.nil_append]
    exact h.ready_eq
  · rw [hSplit, List.filter_append, ← h.lost_eq, List.append_nil, List.filter_eq_self.mpr]
    intro seq hSeq
    rw [hGap seq hSeq]
    rfl

end Advanced

variable {b : Buffer α}

theorem drainContiguous_advanced (fuel : Nat) (b : Buffer α) (hFuel : b.ahead.size ≤ fuel)
    (hAbove : Above b) :
    Advanced b (b.drainContiguous fuel).1 [] (b.drainContiguous fuel).2 ∧
      Drained (b.drainContiguous fuel).2 := by
  induction fuel generalizing b with
  | zero =>
    have hEmpty : b.ahead = ∅ := ExtTreeMap.eq_empty_iff_size_eq_zero.mpr (by omega)
    exact ⟨.refl hAbove, by simp [Buffer.drainContiguous, Drained, hEmpty]⟩
  | succ fuel ih =>
    rw [Buffer.drainContiguous]
    cases hNext : b.ahead[b.nextExpected]? with
    | none =>
      refine ⟨.refl hAbove, ?_⟩
      rw [Drained, ExtTreeMap.contains_eq_isSome_getElem?, hNext]
      rfl
    | some item =>
      have hStep := Advanced.next hAbove hNext
      have hLess : (b.ahead.erase b.nextExpected).size ≤ fuel := by
        have hMem : b.ahead.contains b.nextExpected := by
          rw [ExtTreeMap.contains_eq_isSome_getElem?, hNext]
          rfl
        rw [ExtTreeMap.size_erase, if_pos hMem]
        omega
      obtain ⟨hRest, hDrained⟩ := ih _ hLess hStep.above
      exact ⟨hStep.trans hRest, hDrained⟩

theorem drain_advanced (hAbove : Above b) : Advanced b b.drain.1 [] b.drain.2 ∧ Drained b.drain.2 :=
  drainContiguous_advanced _ b (le_refl _) hAbove

theorem exists_minKey (hSome : 0 < b.ahead.size) : ∃ first, b.ahead.minKey? = some first ∧
    b.ahead.contains first ∧ ∀ seq, b.ahead.contains seq → first ≤ seq := by
  obtain ⟨first, hFirst⟩ : ∃ first, b.ahead.minKey? = some first := by
    rw [← Option.isSome_iff_exists, Option.isSome_iff_ne_none]
    intro hNone
    rw [ExtTreeMap.minKey?_eq_none_iff.mp hNone] at hSome
    simp at hSome
  obtain ⟨hMem, hMin⟩ := ExtTreeMap.minKey?_eq_some_iff_mem_and_forall.mp hFirst
  refine ⟨first, hFirst, ExtTreeMap.contains_iff_mem.mpr hMem, fun seq hSeq => ?_⟩
  exact Nat.isLE_compare.mp (hMin seq (ExtTreeMap.contains_iff_mem.mp hSeq))

/-- Giving up the gap before the first item that waits releases that item. -/
theorem skipGap_advanced (hAbove : Above b) {first : Nat}
    (hContains : b.ahead.contains first)
    (hLeast : ∀ seq, b.ahead.contains seq → first ≤ seq) :
    Advanced b (Buffer.drain ⟨first, b.ahead⟩).1
        (List.range' b.nextExpected (first - b.nextExpected)) (Buffer.drain ⟨first, b.ahead⟩).2 ∧
      Drained (Buffer.drain ⟨first, b.ahead⟩).2 ∧
      (Buffer.drain ⟨first, b.ahead⟩).2.ahead.size < b.ahead.size := by
  have hLater : b.nextExpected ≤ first := hAbove first hContains
  obtain ⟨hRun, hStop⟩ : _ ∧ Drained (Buffer.drain ⟨first, b.ahead⟩).2 :=
    drain_advanced (b := ⟨first, b.ahead⟩) hLeast
  generalize Buffer.drain ⟨first, b.ahead⟩ = run at *
  have hMoved : first < run.2.nextExpected := by
    refine lt_of_le_of_ne hRun.le fun hSame => ?_
    rw [Drained, ← hSame, hRun.contains_eq (le_of_eq hSame.symm), hContains] at hStop
    cases hStop
  have hSkip := Advanced.skip hLater hLeast hRun hMoved
  have hProper : run.2.waiting ⊂ b.waiting := by
    refine Finset.ssubset_iff_subset_ne.mpr ⟨hSkip.waiting_subset, fun hSame => ?_⟩
    have hIn : first ∈ run.2.waiting := hSame ▸ mem_waiting.mpr hContains
    have hAfter := hSkip.above first (mem_waiting.mp hIn)
    omega
  have hCard := Finset.card_lt_card hProper
  rw [card_waiting, card_waiting] at hCard
  exact ⟨hSkip, hStop, hCard⟩

/-- Giving up gaps moves the boundary until at most `bound` items wait. A number is only given up
while more than `bound` items beyond it wait. -/
theorem giveUp_advanced (bound fuel : Nat) (b : Buffer α) (hFuel : b.ahead.size ≤ fuel)
    (hAbove : Above b) (hDrained : Drained b) :
    Advanced b (b.giveUp bound fuel).1 (b.giveUp bound fuel).2.1 (b.giveUp bound fuel).2.2 ∧
      Drained (b.giveUp bound fuel).2.2 ∧ (b.giveUp bound fuel).2.2.ahead.size ≤ bound ∧
      ∀ seq ∈ (b.giveUp bound fuel).2.1, bound < (b.waiting.filter (seq < ·)).card := by
  induction fuel generalizing b with
  | zero =>
    exact ⟨.refl hAbove, hDrained, hFuel.trans (Nat.zero_le _), by simp [Buffer.giveUp]⟩
  | succ fuel ih =>
    rw [Buffer.giveUp]
    split
    next hBound => exact ⟨.refl hAbove, hDrained, hBound, by simp⟩
    next hBound =>
      obtain ⟨first, hFirst, hContains, hLeast⟩ := exists_minKey (b := b) (by omega)
      have hStart : max b.nextExpected first = first := max_eq_right (hAbove first hContains)
      obtain ⟨hSkip, hStop, hFewer⟩ := skipGap_advanced hAbove hContains hLeast
      rw [hFirst]
      simp only [hStart]
      generalize Buffer.drain ⟨first, b.ahead⟩ = run at *
      obtain ⟨hRest, hRestDrained, hRestBound, hRestLost⟩ :=
        ih run.2 (by omega) hSkip.above hStop
      refine ⟨hSkip.trans hRest, hRestDrained, hRestBound, fun seq hSeq => ?_⟩
      rcases List.mem_append.mp hSeq with hHere | hThere
      · -- every item that waits is beyond the gap
        have hBeyond : b.waiting.filter (seq < ·) = b.waiting := by
          refine Finset.filter_true_of_mem fun other hOther => ?_
          have hOther := hLeast other (mem_waiting.mp hOther)
          have hRange := List.mem_range'_1.mp hHere
          omega
        rw [hBeyond, card_waiting]
        omega
      · exact (hRestLost seq hThere).trans_le
          (Finset.card_le_card (Finset.filter_subset_filter _ hSkip.waiting_subset))

/-! ## Whole runs -/

structure Record (α : Type) where
  released : List α
  lost : List Nat
  buffer : Buffer α

namespace Record

def extend (r : Record α) (move : List α × List Nat × Buffer α) : Record α :=
  ⟨r.released ++ move.1, r.lost ++ move.2.1, move.2.2⟩

def empty : Record α := ⟨[], [], .empty⟩

def push (number : α → Nat) (window : Nat) (r : Record α) (item : α) : Record α :=
  r.extend (r.buffer.push (number item) item window)

def flush (r : Record α) : Record α := r.extend r.buffer.flush

end Record

def deliver (number : α → Nat) (window : Nat) (arrivals : List α) : Record α :=
  arrivals.foldl (Record.push number window) .empty

def firstArrival (number : α → Nat) (arrivals : List α) (seq : Nat) : Option α :=
  arrivals.find? fun item => number item == seq

/-- The record of some arrivals, where `got` is what came under each number. Below the boundary it
is released, and a number without one is lost; the rest waits. -/
structure Delivered (number : α → Nat) (arrivals : List α) (got : Nat → Option α)
    (r : Record α) : Prop where
  released_eq : r.released = (List.range r.buffer.nextExpected).filterMap got
  lost_eq : r.lost = (List.range r.buffer.nextExpected).filter fun seq => (got seq).isNone
  ahead : ∀ seq, r.buffer.ahead[seq]? = if r.buffer.nextExpected ≤ seq then got seq else none
  first : ∀ seq item, got seq = some item → firstArrival number arrivals seq = some item
  settled : ∀ item ∈ arrivals, r.buffer.nextExpected ≤ number item →
    (got (number item)).isSome
  /-- The boundary stops behind an item. -/
  stop : r.buffer.nextExpected = 0 ∨ (got (r.buffer.nextExpected - 1)).isSome

section Delivered

variable {number : α → Nat} {arrivals : List α} {got : Nat → Option α} {r : Record α} {item : α}
  {window seq : Nat} {ready : List α} {lost : List Nat} {after : Buffer α}

theorem firstArrival_spec (h : firstArrival number arrivals seq = some item) :
    item ∈ arrivals ∧ number item = seq :=
  ⟨List.mem_of_find?_eq_some h, by simpa using List.find?_some h⟩

theorem firstArrival_append (h : firstArrival number arrivals seq = some item) (more : List α) :
    firstArrival number (arrivals ++ more) seq = some item := by
  unfold firstArrival at h ⊢
  rw [List.find?_append, h]
  rfl

theorem firstArrival_concat (h : firstArrival number arrivals (number item) = none) :
    firstArrival number (arrivals ++ [item]) (number item) = some item := by
  unfold firstArrival at h ⊢
  rw [List.find?_append, h]
  simp

theorem map_filterMap_eq_filter {get : Nat → Option α}
    (h : ∀ seq item, get seq = some item → number item = seq) (seqs : List Nat) :
    (seqs.filterMap get).map number = seqs.filter fun seq => (get seq).isSome := by
  induction seqs with
  | nil => rfl
  | cons seq rest ih =>
    cases hGet : get seq with
    | none => simp [hGet, ih]
    | some item => simp [hGet, ih, h seq item hGet]

theorem delivered_empty : Delivered number [] (fun _ => none) Record.empty := by
  constructor <;> simp [Record.empty, Buffer.empty]

theorem Advanced.mem_lost {b : Buffer α} (h : Advanced b ready lost after) :
    seq ∈ lost ↔
      (b.nextExpected ≤ seq ∧ seq < after.nextExpected) ∧ b.ahead.contains seq = false := by
  have hLe := h.le
  rw [h.lost_eq, List.mem_filter, List.mem_range'_1, Bool.not_eq_true']
  refine and_congr_left' ?_
  omega

section Facts

variable (h : Delivered number arrivals got r)

include h

theorem Delivered.number_eq (hGot : got seq = some item) : item ∈ arrivals ∧ number item = seq :=
  firstArrival_spec (h.first seq item hGot)

theorem Delivered.contains_eq (hNext : r.buffer.nextExpected ≤ seq) :
    r.buffer.ahead.contains seq = (got seq).isSome := by
  rw [ExtTreeMap.contains_eq_isSome_getElem?, h.ahead, if_pos hNext]

theorem Delivered.above : Above r.buffer := by
  intro seq hSeq
  rw [ExtTreeMap.contains_eq_isSome_getElem?, h.ahead] at hSeq
  by_contra hBelow
  rw [if_neg hBelow] at hSeq
  cases hSeq

theorem Delivered.map_released : r.released.map number =
    (List.range r.buffer.nextExpected).filter fun seq => (got seq).isSome := by
  rw [h.released_eq, map_filterMap_eq_filter fun seq item hGot => (h.number_eq hGot).2]

theorem Delivered.released_sorted : (r.released.map number).Pairwise (· < ·) := by
  rw [h.map_released]
  exact List.pairwise_lt_range.filter _

theorem Delivered.lost_sorted : r.lost.Pairwise (· < ·) := by
  rw [h.lost_eq]
  exact List.pairwise_lt_range.filter _

theorem Delivered.mem_released_iff : seq ∈ r.released.map number ↔
    seq < r.buffer.nextExpected ∧ (got seq).isSome := by
  rw [h.map_released, List.mem_filter, List.mem_range]

theorem Delivered.mem_lost_iff :
    seq ∈ r.lost ↔ seq < r.buffer.nextExpected ∧ (got seq).isSome = false := by
  rw [h.lost_eq, List.mem_filter, List.mem_range, ← Option.not_isSome, Bool.not_eq_true']

/-- Below the boundary each number is released or lost. -/
theorem Delivered.either (hSeq : seq < r.buffer.nextExpected) :
    seq ∈ r.released.map number ↔ seq ∉ r.lost := by
  rw [h.mem_released_iff, h.mem_lost_iff]
  simp only [hSeq, true_and, Bool.not_eq_false]

/-- What is released is the first that came under its number. -/
theorem Delivered.first_of_released (hItem : item ∈ r.released) :
    firstArrival number arrivals (number item) = some item := by
  rw [h.released_eq, List.mem_filterMap] at hItem
  obtain ⟨seq, -, hGot⟩ := hItem
  rw [(h.number_eq hGot).2]
  exact h.first seq item hGot

theorem Delivered.stop_spec : r.buffer.nextExpected = 0 ∨
    ∃ item ∈ arrivals, r.buffer.nextExpected = number item + 1 := by
  rcases Nat.eq_zero_or_pos r.buffer.nextExpected with hZero | hPos
  · exact .inl hZero
  · obtain ⟨item, hGot⟩ := Option.isSome_iff_exists.mp (h.stop.resolve_left (by omega))
    obtain ⟨hMem, hNumber⟩ := h.number_eq hGot
    exact .inr ⟨item, hMem, by omega⟩

/-- The record after a move of the boundary. -/
theorem Delivered.extend (hMove : Advanced r.buffer ready lost after) :
    Delivered number arrivals got (r.extend (ready, lost, after)) := by
  have hLe := hMove.le
  have hSplit : List.range after.nextExpected = List.range r.buffer.nextExpected ++
      List.range' r.buffer.nextExpected (after.nextExpected - r.buffer.nextExpected) := by
    rw [List.range_eq_range', List.range_eq_range']
    have hAppend := @List.range'_append_1 0 r.buffer.nextExpected
      (after.nextExpected - r.buffer.nextExpected)
    rw [Nat.zero_add, Nat.add_sub_cancel' hLe] at hAppend
    exact hAppend.symm
  refine ⟨?_, ?_, fun seq => ?_, h.first, fun item hItem hNext =>
    h.settled item hItem (hLe.trans hNext), ?_⟩
  · simp only [Record.extend, hSplit, List.filterMap_append, ← h.released_eq, hMove.ready_eq]
    congr 1
    refine List.filterMap_congr fun seq hSeq => ?_
    rw [h.ahead, if_pos (List.mem_range'_1.mp hSeq).1]
  · simp only [Record.extend, hSplit, List.filter_append, ← h.lost_eq, hMove.lost_eq]
    congr 1
    refine List.filter_congr fun seq hSeq => ?_
    rw [h.contains_eq (List.mem_range'_1.mp hSeq).1, Option.not_isSome]
  · rw [Record.extend, hMove.kept, h.ahead]
    by_cases hSeq : after.nextExpected ≤ seq
    · rw [if_pos hSeq, if_pos hSeq, if_pos (hLe.trans hSeq)]
    · rw [if_neg hSeq, if_neg hSeq]
  · by_cases hSame : after.nextExpected = r.buffer.nextExpected
    · rw [Record.extend, hSame]
      exact h.stop
    · have hNext : r.buffer.nextExpected ≤ after.nextExpected - 1 := by omega
      exact .inr ((h.contains_eq hNext).symm.trans (hMove.stop hSame))

/-- An item that is neither below the boundary nor waiting has not come before. -/
theorem Delivered.fresh (hNext : r.buffer.nextExpected ≤ seq)
    (hAbsent : r.buffer.ahead.contains seq = false) :
    firstArrival number arrivals seq = none := by
  cases hFirst : firstArrival number arrivals seq with
  | none => rfl
  | some other =>
    obtain ⟨hArrived, rfl⟩ := firstArrival_spec hFirst
    rw [h.contains_eq hNext, h.settled other hArrived hNext] at hAbsent
    cases hAbsent

theorem Delivered.again (hOld : number item < r.buffer.nextExpected ∨
    r.buffer.ahead.contains (number item)) : Delivered number
      (arrivals ++ [item]) got r := by
  refine ⟨h.released_eq, h.lost_eq, h.ahead, fun seq other hGot =>
    firstArrival_append (h.first seq other hGot) _, fun other hOther hNext => ?_, h.stop⟩
  rcases List.mem_append.mp hOther with hBefore | hNow
  · exact h.settled other hBefore hNext
  · obtain rfl := List.mem_singleton.mp hNow
    rw [← h.contains_eq hNext]
    exact hOld.resolve_left (by omega)

theorem Delivered.waits (hNext : r.buffer.nextExpected ≤ number item)
    (hAbsent : r.buffer.ahead.contains (number item) = false) :
    Delivered number (arrivals ++ [item]) (Function.update got (number item) (some item))
      { r with buffer := ⟨r.buffer.nextExpected, r.buffer.ahead.insert (number item) item⟩ } := by
  have hBelow : ∀ seq < r.buffer.nextExpected,
      Function.update got (number item) (some item) seq = got seq :=
    fun seq hSeq => Function.update_of_ne (by omega) ..
  refine ⟨?_, ?_, fun seq => ?_, fun seq other hGot => ?_, fun other hOther hLater => ?_, ?_⟩
  · refine h.released_eq.trans (List.filterMap_congr fun seq hSeq => ?_)
    rw [hBelow seq (List.mem_range.mp hSeq)]
  · refine h.lost_eq.trans (List.filter_congr fun seq hSeq => ?_)
    rw [hBelow seq (List.mem_range.mp hSeq)]
  · simp only [ExtTreeMap.getElem?_insert, compare_eq_iff_eq, h.ahead]
    by_cases hSame : number item = seq
    · subst hSame
      rw [if_pos rfl, if_pos hNext, Function.update_self]
    · rw [if_neg hSame, Function.update_of_ne (Ne.symm hSame)]
  · by_cases hSame : seq = number item
    · subst hSame
      rw [Function.update_self] at hGot
      rw [← Option.some.inj hGot]
      exact firstArrival_concat (h.fresh hNext hAbsent)
    · rw [Function.update_of_ne hSame] at hGot
      exact firstArrival_append (h.first seq other hGot) _
  · by_cases hSame : number other = number item
    · rw [hSame, Function.update_self]
      rfl
    · rw [Function.update_of_ne hSame]
      refine h.settled other ((List.mem_append.mp hOther).resolve_right fun hNow => hSame ?_) hLater
      rw [List.mem_singleton.mp hNow]
  · rcases Nat.eq_zero_or_pos r.buffer.nextExpected with hZero | hPos
    · exact .inl hZero
    · rw [hBelow _ (by simp only; omega)]
      exact h.stop

end Facts

theorem Record.extend_extend (r : Record α) (first : List α) (firstLost : List Nat) (b : Buffer α)
    (second : List α) (secondLost : List Nat) (after : Buffer α) :
    (r.extend (first, firstLost, b)).extend (second, secondLost, after) =
      r.extend (first ++ second, firstLost ++ secondLost, after) := by
  simp [Record.extend]

theorem insert_erase {b : Buffer α} (h : b.ahead.contains seq = false) (item : α) :
    (b.ahead.insert seq item).erase seq = b.ahead := by
  apply ExtTreeMap.ext_getElem?
  intro other
  rw [ExtTreeMap.getElem?_erase, ExtTreeMap.getElem?_insert]
  by_cases hSame : compare seq other = .eq
  · rw [if_pos hSame, ← compare_eq_iff_eq.mp hSame,
      ExtTreeMap.getElem?_eq_none_of_contains_eq_false h]
  · rw [if_neg hSame, if_neg hSame]

/-- The state in which a buffer takes an item in, before any gap is given up. -/
theorem Delivered.accept (h : Delivered number arrivals got r) (hDrained : Drained r.buffer)
    (hNext : r.buffer.nextExpected ≤ number item)
    (hAbsent : r.buffer.ahead.contains (number item) = false) :
    Delivered number (arrivals ++ [item]) (Function.update got (number item) (some item))
        (r.extend ((r.buffer.accept (number item) item).1, [],
          (r.buffer.accept (number item) item).2)) ∧
      Drained (r.buffer.accept (number item) item).2 ∧
      (r.buffer.accept (number item) item).2.waiting ⊆
        insert (number item) r.buffer.waiting := by
  have hInserted := h.waits hNext hAbsent
  have hWaiting : ∀ seq ∈ Buffer.waiting ⟨r.buffer.nextExpected,
      r.buffer.ahead.insert (number item) item⟩, seq ∈ insert (number item) r.buffer.waiting := by
    intro seq hSeq
    rw [mem_waiting, ExtTreeMap.contains_insert, Bool.or_eq_true, beq_iff_eq,
      compare_eq_iff_eq] at hSeq
    rw [Finset.mem_insert, mem_waiting]
    exact hSeq.imp_left Eq.symm
  unfold Buffer.accept
  by_cases hHere : number item = r.buffer.nextExpected
  · -- the item waits for no time: it is the first that the run releases
    have hStep : Advanced ⟨r.buffer.nextExpected,
      r.buffer.ahead.insert (number item) item⟩ [item] []
        _ := Advanced.next hInserted.above (by simp [hHere])
    have hErased := insert_erase hAbsent item
    rw [hHere] at hErased hStep
    simp only [hErased] at hStep
    obtain ⟨hMove, hStop⟩ := drain_advanced hStep.above
    have hRun := hStep.trans hMove
    rw [hHere] at hInserted hWaiting
    rw [if_pos hHere, hHere]
    exact ⟨hInserted.extend hRun, hStop, fun seq hSeq => hWaiting seq (hRun.waiting_subset hSeq)⟩
  · rw [if_neg hHere]
    refine ⟨?_, ?_, hWaiting⟩
    · simpa [Record.extend] using hInserted
    · rw [Drained, ExtTreeMap.contains_insert, Bool.or_eq_false_iff]
      exact ⟨by simpa using hHere, hDrained⟩

/-- One push: the record goes on, the window holds, and a number is only given up while it has not
come and more than `window` items beyond it wait. -/
theorem Delivered.push (h : Delivered number arrivals got r) (hDrained : Drained r.buffer)
    (hWindow : r.buffer.ahead.size ≤ window) :
    (∃ after, Delivered number (arrivals ++ [item]) after (r.push number window item)) ∧
      Drained (r.push number window item).buffer ∧
      (r.push number window item).buffer.ahead.size ≤ window ∧
      ∀ seq ∈ (r.buffer.push (number item) item window).2.1,
        firstArrival number (arrivals ++ [item]) seq = none ∧
          window < ((insert (number item) r.buffer.waiting).filter (seq < ·)).card := by
  unfold Record.push Buffer.push
  split
  next hOld =>
    rw [Bool.or_eq_true, decide_eq_true_eq] at hOld
    refine ⟨⟨got, ?_⟩, hDrained, hWindow, by simp⟩
    simpa [Record.extend] using h.again hOld
  next hNew =>
    rw [Bool.or_eq_true, decide_eq_true_eq, not_or, not_lt, Bool.not_eq_true] at hNew
    obtain ⟨hAccepted, hStop, hSubset⟩ := h.accept hDrained hNew.1 hNew.2
    obtain ⟨hMove, hEnd, hBound, hLost⟩ :=
      giveUp_advanced window _ _ (le_refl _) hAccepted.above hStop
    have hAfter := hAccepted.extend hMove
    rw [Record.extend_extend] at hAfter
    refine ⟨⟨_, hAfter⟩, hEnd, hBound, fun seq hSeq => ?_⟩
    obtain ⟨⟨hNext, -⟩, hGap⟩ := hMove.mem_lost.mp hSeq
    exact ⟨hAccepted.fresh hNext hGap, (hLost seq hSeq).trans_le
      (Finset.card_le_card (Finset.filter_subset_filter _ hSubset))⟩

theorem deliver_concat (arrivals : List α) (item : α) :
    deliver number window (arrivals ++ [item]) =
      (deliver number window arrivals).push number window item := by
  simp [deliver]

/-- In every run the record describes the arrivals, and at most `window` wait. -/
theorem deliver_delivered (number : α → Nat) (window : Nat) (arrivals : List α) :
    (∃ got, Delivered number arrivals got (deliver number window arrivals)) ∧
      Drained (deliver number window arrivals).buffer ∧
      (deliver number window arrivals).buffer.ahead.size ≤ window := by
  induction arrivals using List.reverseRecOn with
  | nil => exact ⟨⟨_, delivered_empty⟩, by simp [Drained, deliver, Record.empty, Buffer.empty],
      by simp [deliver, Record.empty, Buffer.empty]⟩
  | append_singleton arrivals item ih =>
    obtain ⟨⟨got, hDelivered⟩, hDrained, hWindow⟩ := ih
    rw [deliver_concat]
    have hPush : (∃ after, Delivered number (arrivals ++ [item]) after
        ((deliver number window arrivals).push number window item)) ∧ _ :=
      hDelivered.push hDrained hWindow
    obtain ⟨hNext, hStop, hBound, -⟩ := hPush
    exact ⟨hNext, hStop, hBound⟩

theorem Delivered.flush (h : Delivered number arrivals got r) (hDrained : Drained r.buffer) :
    Delivered number arrivals got r.flush ∧ Drained r.flush.buffer ∧
      r.flush.buffer.ahead.size = 0 := by
  obtain ⟨hMove, hStop, hBound, -⟩ :=
    giveUp_advanced 0 r.buffer.ahead.size r.buffer (le_refl _) h.above hDrained
  exact ⟨h.extend hMove, hStop, Nat.le_zero.mp hBound⟩

/-- Once nothing waits, the boundary is behind all that came. -/
theorem Delivered.lt_of_empty (h : Delivered number arrivals got r)
    (hEmpty : r.buffer.ahead.size = 0) :
    ∀ item ∈ arrivals, number item < r.buffer.nextExpected := by
  intro item hItem
  by_contra hLater
  have hWaits := h.contains_eq (not_lt.mp hLater)
  rw [h.settled item hItem (not_lt.mp hLater),
    ExtTreeMap.eq_empty_iff_size_eq_zero.mpr hEmpty] at hWaits
  simp at hWaits

end Delivered

/-! ## Runs that lose nothing -/

section Lossless

variable {number : α → Nat} {arrivals : List α} {got : Nat → Option α} {r : Record α}
  {window seq : Nat}

theorem not_mem_of_firstArrival (h : firstArrival number arrivals seq = none) :
    seq ∉ arrivals.map number := by
  simpa [firstArrival] using h

section Tracked

variable (h : Delivered number arrivals got r) (hLost : r.lost = [])

include h hLost

theorem Delivered.isSome_of_lt (hBelow : seq < r.buffer.nextExpected) : (got seq).isSome := by
  have hNot : seq ∉ r.lost := by simp [hLost]
  rw [h.mem_lost_iff, not_and, Bool.not_eq_false] at hNot
  exact hNot hBelow

/-- Everything below the boundary has been released, in order. -/
theorem Delivered.released_eq_range : r.released.map number = List.range r.buffer.nextExpected := by
  rw [h.map_released, List.filter_eq_self]
  exact fun seq hSeq => h.isSome_of_lt hLost (List.mem_range.mp hSeq)

theorem Delivered.mem_arrivals_iff : seq ∈ arrivals.map number ↔ (got seq).isSome := by
  constructor
  · intro hSeq
    obtain ⟨item, hItem, rfl⟩ := List.mem_map.mp hSeq
    rcases lt_or_ge (number item) r.buffer.nextExpected with hBelow | hNext
    · exact h.isSome_of_lt hLost hBelow
    · exact h.settled item hItem hNext
  · intro hSome
    obtain ⟨item, hGot⟩ := Option.isSome_iff_exists.mp hSome
    obtain ⟨hMem, rfl⟩ := h.number_eq hGot
    exact List.mem_map_of_mem hMem

variable (hDrained : Drained r.buffer)

include hDrained

theorem Delivered.gap : r.buffer.nextExpected ∉ arrivals.map number := by
  rw [h.mem_arrivals_iff hLost, ← h.contains_eq (le_refl _), hDrained]
  decide

/-- As many items wait as numbers beyond the boundary have come. -/
theorem Delivered.size_ahead :
    r.buffer.ahead.size = beyond (arrivals.map number) r.buffer.nextExpected := by
  rw [← card_waiting, beyond]
  congr 1
  ext seq
  rw [mem_waiting, Finset.mem_filter, List.mem_toFinset, h.mem_arrivals_iff hLost]
  constructor
  · intro hWaits
    have hNext := h.above seq hWaits
    refine ⟨h.contains_eq hNext ▸ hWaits, lt_of_le_of_ne hNext fun hSame => ?_⟩
    rw [← hSame, hDrained] at hWaits
    cases hWaits
  · rintro ⟨hSome, hLater⟩
    rwa [h.contains_eq hLater.le]

/-- Of all missing numbers the first was overtaken most often. -/
theorem Delivered.beyond_le (hSize : r.buffer.ahead.size ≤ window)
    (hMissing : seq ∉ arrivals.map number) : beyond (arrivals.map number) seq ≤ window := by
  have hNext : r.buffer.nextExpected ≤ seq := by
    by_contra hBelow
    exact hMissing ((h.mem_arrivals_iff hLost).mpr (h.isSome_of_lt hLost (not_le.mp hBelow)))
  rw [h.size_ahead hLost hDrained] at hSize
  refine (Finset.card_le_card fun later hLater => ?_).trans hSize
  rw [Finset.mem_filter] at hLater ⊢
  exact ⟨hLater.1, hNext.trans_lt hLater.2⟩

/-- Nothing waits exactly if the numbers that came have no gap. -/
theorem Delivered.size_ahead_eq_zero_iff :
    r.buffer.ahead.size = 0 ↔ Contiguous (arrivals.map number) := by
  constructor
  · intro hEmpty seq hSeq earlier hEarlier
    obtain ⟨item, hItem, rfl⟩ := List.mem_map.mp hSeq
    exact (h.mem_arrivals_iff hLost).mpr (h.isSome_of_lt hLost
      (hEarlier.trans (h.lt_of_empty hEmpty item hItem)))
  · intro hContiguous
    rw [h.size_ahead hLost hDrained, beyond, Finset.card_eq_zero, Finset.filter_eq_empty_iff]
    intro seq hSeq hLater
    exact h.gap hLost hDrained (hContiguous seq (List.mem_toFinset.mp hSeq) _ hLater)

end Tracked

/-- No gap is given up before the end exactly if arrivals keep the window. -/
theorem deliver_lost_iff (number : α → Nat) (window : Nat) (arrivals : List α) :
    (deliver number window arrivals).lost = [] ↔ WithinWindow window (arrivals.map number) := by
  induction arrivals using List.reverseRecOn with
  | nil => exact iff_of_true rfl withinWindow_nil
  | append_singleton arrivals item ih =>
    obtain ⟨⟨got, hBefore⟩, hDrained, hSize⟩ := deliver_delivered number window arrivals
    obtain ⟨⟨_, hAfter⟩, hStop, hBound⟩ := deliver_delivered number window (arrivals ++ [item])
    have hMap : (arrivals ++ [item]).map number = arrivals.map number ++ [number item] := by simp
    have hLost : (deliver number window (arrivals ++ [item])).lost =
        (deliver number window arrivals).lost ++
          ((deliver number window arrivals).buffer.push (number item) item window).2.1 := by
      rw [deliver_concat]
      rfl
    constructor
    · intro hNone
      rw [hMap, withinWindow_concat_iff, ← ih, ← hMap]
      refine ⟨(List.append_eq_nil_iff.mp (hLost ▸ hNone)).1, fun seq hMissing => ?_⟩
      exact hAfter.beyond_le hNone hStop hBound hMissing
    · intro hWithin
      rw [hMap, withinWindow_concat_iff, ← ih, ← hMap] at hWithin
      obtain ⟨hNone, hNow⟩ := hWithin
      rw [hLost, hNone, List.nil_append, List.eq_nil_iff_forall_not_mem]
      intro seq hSeq
      obtain ⟨hFirst, hMany⟩ := (hBefore.push hDrained hSize).2.2.2 seq hSeq
      -- what waits has come, so that many numbers have overtaken the lost one
      have hCame : (insert (number item) (deliver number window arrivals).buffer.waiting).filter
          (seq < ·) ⊆ ((arrivals ++ [item]).map number).toFinset.filter (seq < ·) := by
        refine Finset.filter_subset_filter _ fun other hOther => ?_
        rw [List.mem_toFinset, hMap, List.mem_append, List.mem_singleton]
        rcases Finset.mem_insert.mp hOther with rfl | hWaits
        · exact .inr rfl
        · rw [mem_waiting] at hWaits
          rw [hBefore.contains_eq (hBefore.above other hWaits)] at hWaits
          exact .inl ((hBefore.mem_arrivals_iff hNone).mpr hWaits)
      exact absurd (hNow seq (not_mem_of_firstArrival hFirst))
        (not_le.mpr (hMany.trans_le (Finset.card_le_card hCame)))

/-- A whole run loses nothing, and has released all that came, exactly if the numbers arrive within
the window and leave no gap. -/
theorem deliver_flush_lossless (number : α → Nat) (window : Nat) (arrivals : List α) :
    let r := (deliver number window arrivals).flush
    (r.lost = [] ↔
      WithinWindow window (arrivals.map number) ∧ Contiguous (arrivals.map number)) ∧
    (r.lost = [] → r.released.map number = List.range r.buffer.nextExpected ∧
      ∀ seq, seq < r.buffer.nextExpected ↔ seq ∈ arrivals.map number) := by
  obtain ⟨⟨got, hDelivered⟩, hDrained, -⟩ := deliver_delivered number window arrivals
  obtain ⟨hFlushed, hStop, hEmpty⟩ := hDelivered.flush hDrained
  have hLost : (deliver number window arrivals).flush.lost =
      (deliver number window arrivals).lost ++ (deliver number window arrivals).buffer.flush.2.1 :=
    rfl
  refine ⟨⟨fun hNone => ⟨?_, ?_⟩, ?_⟩, fun hNone =>
    ⟨hFlushed.released_eq_range hNone, fun seq => ⟨fun hBelow => ?_, fun hCame => ?_⟩⟩⟩
  · exact (deliver_lost_iff ..).mp (List.append_eq_nil_iff.mp (hLost ▸ hNone)).1
  · exact (hFlushed.size_ahead_eq_zero_iff hNone hStop).mp hEmpty
  · rintro ⟨hWithin, hContiguous⟩
    have hNone := (deliver_lost_iff ..).mpr hWithin
    have hWaits := (hDelivered.size_ahead_eq_zero_iff hNone hDrained).mpr hContiguous
    rw [hLost, hNone, Buffer.flush, hWaits]
    rfl
  · exact (hFlushed.mem_arrivals_iff hNone).mpr (hFlushed.isSome_of_lt hNone hBelow)
  · obtain ⟨item, hItem, rfl⟩ := List.mem_map.mp hCame
    exact hFlushed.lt_of_empty hEmpty item hItem

end Lossless

end Reorder
