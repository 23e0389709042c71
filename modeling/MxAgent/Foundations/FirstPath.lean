import Mathlib.Data.List.Induction
import Mathlib.Data.Set.Basic

/-! Simple paths in a graph whose edges have an order. Of all simple paths to a node one comes
first: where it parts from another one, it takes the earlier option. A path that avoids at
each step a set which holds every earlier option, and from which only the path itself can be
reached, is that first one. -/
namespace FirstPath

variable {V : Type*}

/-- A graph: nodes to start from, and successors, both in order. -/
structure OrderedGraph (V : Type*) where
  starts : List V
  next : V → List V

/-- Where a path can go on to. Paths are listed from their end. -/
def OrderedGraph.options (g : OrderedGraph V) : List V → List V
  | [] => g.starts
  | u :: _ => g.next u

/-- A path that starts at one of the starts and comes to no node twice. -/
inductive SimplePath (g : OrderedGraph V) : List V → Prop where
  | nil : SimplePath g []
  | push {v : V} {path : List V} (prior : SimplePath g path) (option : v ∈ g.options path)
      (fresh : v ∉ path) : SimplePath g (v :: path)

variable {g : OrderedGraph V} {path : List V}

theorem SimplePath.nodup (h : SimplePath g path) : path.Nodup := by
  induction h with
  | nil => exact List.nodup_nil
  | push _ _ fresh ih => exact List.nodup_cons.mpr ⟨fresh, ih⟩

theorem SimplePath.of_append {more : List V}
    (h : SimplePath g (more ++ path)) : SimplePath g path := by
  induction more with
  | nil => exact h
  | cons v more ih =>
    cases h with
    | push prior _ _ => exact ih prior

theorem SimplePath.option_of_append {more common : List V} {a : V}
    (h : SimplePath g (more ++ a :: common)) : a ∈ g.options common := by
  cases h.of_append with
  | push _ option _ => exact option

theorem SimplePath.isChain (h : SimplePath g path) : path.IsChain fun v u => v ∈ g.next u := by
  induction h with
  | nil => exact .nil
  | @push v path _ option _ ih =>
    cases path with
    | nil => exact .singleton v
    | cons u path => exact ih.cons_cons option

/-- Two lists from their ends: one goes on where the other stops, or they part. -/
theorem exists_parting (first second : List V) :
    (∃ more, first = more ++ second) ∨ (∃ more, second = more ++ first) ∨
      ∃ common a b more rest, a ≠ b ∧ first = more ++ a :: common ∧
        second = rest ++ b :: common := by
  induction first using List.reverseRecOn generalizing second with
  | nil => exact .inr (.inl ⟨second, (List.append_nil second).symm⟩)
  | append_singleton first x ih =>
    rcases List.eq_nil_or_concat second with rfl | ⟨second, y, rfl⟩
    · exact .inl ⟨first ++ [x], (List.append_nil _).symm⟩
    · by_cases hEq : x = y
      · subst hEq
        rcases ih second with
          ⟨more, rfl⟩ | ⟨more, rfl⟩ | ⟨common, a, b, more, rest, hNe, rfl, rfl⟩
        · exact .inl ⟨more, by simp⟩
        · exact .inr (.inl ⟨more, by simp⟩)
        · exact .inr (.inr ⟨common ++ [x], a, b, more, rest, hNe, by simp, by simp⟩)
      · exact .inr (.inr ⟨[], x, y, first, second, hEq, rfl, List.concat_eq_append⟩)

/-- A simple path is no continuation of another one to the same node. -/
theorem SimplePath.eq_of_append {more : List V} (h : SimplePath g (more ++ path))
    (hHead : (more ++ path).head? = path.head?) : more = [] := by
  cases more with
  | nil => rfl
  | cons v more =>
    have hMem : v ∈ path := List.mem_of_mem_head? (hHead ▸ rfl)
    exact absurd (List.mem_append_right more hMem) (List.nodup_cons.mp h.nodup).1

section Order

variable [DecidableEq V]

/-- `a` is listed before every `b`. -/
def Earlier (options : List V) (a b : V) : Prop := a ∈ options.takeWhile (· ≠ b)

theorem earlier_or_earlier {options : List V} {a b : V} (hA : a ∈ options) (hB : b ∈ options)
    (hNe : a ≠ b) : Earlier options a b ∨ Earlier options b a := by
  induction options with
  | nil => cases hA
  | cons v options ih =>
    unfold Earlier at ih ⊢
    by_cases hFirst : v = a
    · subst hFirst
      exact .inl (by simp [hNe])
    · by_cases hSecond : v = b
      · subst hSecond
        exact .inr (by simp [hNe.symm])
      · rw [List.takeWhile_cons_of_pos (by simpa using hSecond),
          List.takeWhile_cons_of_pos (by simpa using hFirst), List.mem_cons, List.mem_cons]
        rcases ih ((List.mem_cons.mp hA).resolve_left (Ne.symm hFirst))
          ((List.mem_cons.mp hB).resolve_left (Ne.symm hSecond)) with hLeft | hRight
        · exact .inl (.inr hLeft)
        · exact .inr (.inr hRight)

theorem mem_of_earlier {before after : List V} {a b : V} (h : Earlier (before ++ b :: after) a b) :
    a ∈ before := by
  unfold Earlier at h
  induction before with
  | nil => simp at h
  | cons v before ih =>
    by_cases hB : v = b
    · simp [hB] at h
    · rw [List.cons_append, List.takeWhile_cons_of_pos (by simpa using hB), List.mem_cons] at h
      exact List.mem_cons.mpr (h.imp_right ih)

/-- Where the paths part, the first takes an earlier option. -/
def Below (g : OrderedGraph V) (first second : List V) : Prop :=
  ∃ common a b more rest, first = more ++ a :: common ∧ second = rest ++ b :: common ∧
    Earlier (g.options common) a b

/-- The first of the simple paths to its end. -/
structure IsFirst (g : OrderedGraph V) (path : List V) : Prop where
  simple : SimplePath g path
  least : ∀ other, SimplePath g other → other.head? = path.head? → ¬ Below g other path

/-- There is one first path to a node. -/
theorem IsFirst.unique {first second : List V} (hFirst : IsFirst g first)
    (hSecond : IsFirst g second) (hHead : first.head? = second.head?) : first = second := by
  rcases exists_parting first second with ⟨more, rfl⟩ | ⟨more, rfl⟩ |
    ⟨common, a, b, more, rest, hNe, rfl, rfl⟩
  · rw [hFirst.simple.eq_of_append hHead, List.nil_append]
  · rw [hSecond.simple.eq_of_append hHead.symm, List.nil_append]
  · rcases earlier_or_earlier hFirst.simple.option_of_append hSecond.simple.option_of_append hNe
      with hLeft | hRight
    · exact absurd ⟨common, a, b, more, rest, rfl, rfl, hLeft⟩
        (hSecond.least _ hFirst.simple hHead)
    · exact absurd ⟨common, b, a, rest, more, rfl, rfl, hRight⟩
        (hFirst.least _ hSecond.simple hHead.symm)

end Order

/-- A path and a set that its end avoids. The set holds every option before the one taken, unless on
the path, leads to the path only, and grows along it. -/
inductive Discovered (g : OrderedGraph V) : List V → Set V → Prop where
  | nil : Discovered g [] ∅
  | push {v : V} {path before after : List V} {old avoided : Set V} (prior : Discovered g path old)
      (grows : old ⊆ avoided) (options : g.options path = before ++ v :: after)
      (earlier : ∀ u ∈ before, u ∈ avoided ∨ u ∈ path)
      (closed : ∀ u ∈ avoided, ∀ x ∈ g.next u, x ∈ avoided ∨ x ∈ path)
      (fresh : v ∉ avoided) (new : v ∉ path) : Discovered g (v :: path) avoided

namespace Discovered

variable {g : OrderedGraph V} {path more : List V} {avoided : Set V} {v : V}

theorem simple (h : Discovered g path avoided) : SimplePath g path := by
  induction h with
  | nil => exact .nil
  | push _ _ options _ _ _ new ih =>
    refine .push ih ?_ new
    rw [options]
    exact List.mem_append_right _ List.mem_cons_self

theorem tail (h : Discovered g (v :: path) avoided) : ∃ old ⊆ avoided, Discovered g path old := by
  cases h with
  | push prior grows _ _ _ _ _ => exact ⟨_, grows, prior⟩

theorem of_append (h : Discovered g (more ++ path) avoided) :
    ∃ old ⊆ avoided, Discovered g path old := by
  induction more generalizing avoided with
  | nil => exact ⟨avoided, subset_rfl, h⟩
  | cons v more ih =>
    obtain ⟨old, hOld, hPrior⟩ := h.tail
    obtain ⟨older, hOlder, hPath⟩ := ih hPrior
    exact ⟨older, hOlder.trans hOld, hPath⟩

theorem head_notMem (h : Discovered g path avoided) (hHead : v ∈ path.head?) : v ∉ avoided := by
  cases h with
  | nil => cases hHead
  | push _ _ _ _ _ fresh _ =>
    obtain rfl : _ = v := Option.mem_some_iff.mp hHead
    exact fresh

/-- A simple path that has entered the avoided set stays there. -/
theorem stays {common : List V} {a : V}
    (hClosed : ∀ u ∈ avoided, ∀ x ∈ g.next u, x ∈ avoided ∨ x ∈ common) (hA : a ∈ avoided)
    (hPath : SimplePath g (more ++ a :: common)) :
    ∀ u ∈ (more ++ a :: common).head?, u ∈ avoided := by
  induction more with
  | nil =>
    intro u hU
    obtain rfl : a = u := Option.mem_some_iff.mp hU
    exact hA
  | cons x more ih =>
    intro u hU
    obtain rfl : x = u := Option.mem_some_iff.mp hU
    cases hPath with
    | push prior option fresh =>
      have hNotCommon : x ∉ common := fun hCommon =>
        fresh (List.mem_append_right _ (List.mem_cons_of_mem _ hCommon))
      change SimplePath g (more ++ a :: common) at prior
      change x ∈ g.options (more ++ a :: common) at option
      obtain ⟨last, rest, hLast⟩ : ∃ last rest, more ++ a :: common = last :: rest :=
        List.exists_cons_of_ne_nil (by simp)
      rw [hLast] at prior option ih
      have hIn : last ∈ avoided := ih prior last rfl
      exact (hClosed last hIn x option).resolve_right hNotCommon

variable [DecidableEq V]

/-- A discovered path is the first one to its end. -/
theorem isFirst (h : Discovered g path avoided) : IsFirst g path := by
  refine ⟨h.simple, ?_⟩
  rintro other hOther hHead ⟨common, a, b, more, rest, rfl, rfl, hEarlier⟩
  obtain ⟨old, hOld, hPart⟩ := h.of_append
  cases hPart with
  | push prior grows options earlier closed fresh new =>
    -- The other path takes an option that is avoided, and then never leaves the avoided set.
    rw [options] at hEarlier
    have hCommon : a ∉ common := (List.nodup_cons.mp hOther.of_append.nodup).1
    have hA : a ∈ old := (earlier a (mem_of_earlier hEarlier)).resolve_right hCommon
    obtain ⟨y, hY⟩ : ∃ y, (more ++ a :: common).head? = some y := by
      cases more <;> exact ⟨_, rfl⟩
    have hIn := stays closed hA hOther y hY
    exact h.head_notMem (hHead ▸ hY) (hOld hIn)

end Discovered

end FirstPath
