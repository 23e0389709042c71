import Mathlib.Data.List.Pairwise
import Mathlib.Order.Lattice

/-! Differences between two maps. A map is a function into `Option`, its entries carry their own
key, and two entries count as the same when a form computed from them agrees. `IsDiff` says of a
list of changes that it holds the difference at every key, in the order of the keys. Such a list
is a patch from the one map to the other, it is determined by the two maps, and its inverse is the
list for the other direction. -/
namespace KeyedDiff

/-- A change of the value under one key. -/
inductive Change (β : Type) where
  | added (current : β)
  | removed (previous : β)
  | updated (previous current : β)
  deriving DecidableEq

variable {κ β γ : Type} (key : β → κ) (form : β → γ)

namespace Change

def keyOf : Change β → κ
  | .added current => key current
  | .removed previous => key previous
  | .updated _ current => key current

/-- The change that takes a change back. -/
def inverse : Change β → Change β
  | .added current => .removed current
  | .removed previous => .added previous
  | .updated previous current => .updated current previous

def apply [DecidableEq κ] (map : κ → Option β) : Change β → κ → Option β
  | .added current => Function.update map (key current) (some current)
  | .removed previous => Function.update map (key previous) none
  | .updated _ current => Function.update map (key current) (some current)

/-- The value that a change leaves, if any. -/
def after : Change β → Option β
  | .added current => some current
  | .removed _ => none
  | .updated _ current => some current

theorem apply_eq_update [DecidableEq κ] (map : κ → Option β) (change : Change β) :
    change.apply key map = Function.update map (change.keyOf key) change.after := by
  cases change <;> rfl

end Change

def patch [DecidableEq κ] (map : κ → Option β) (changes : List (Change β)) : κ → Option β :=
  changes.foldl (fun map change => change.apply key map) map

/-- The change between two values under one key, compared by their form. -/
def between [DecidableEq γ] : Option β → Option β → Option (Change β)
  | none, none => none
  | none, some current => some (.added current)
  | some previous, none => some (.removed previous)
  | some previous, some current =>
    if form previous = form current then none else some (.updated previous current)

def Same (previous current : κ → Option β) : Prop :=
  ∀ k, (previous k).map form = (current k).map form

/-- Every value stands under its own key. -/
def Keyed (map : κ → Option β) : Prop :=
  ∀ k value, map k = some value → key value = k

/-- The changes are the differences between two maps, one for each key, in key order. -/
structure IsDiff [LinearOrder κ] [DecidableEq γ] (previous current : κ → Option β)
    (changes : List (Change β)) : Prop where
  ordered : changes.Pairwise fun a b => a.keyOf key < b.keyOf key
  mem_iff : ∀ change, change ∈ changes ↔
    between form (previous (change.keyOf key)) (current (change.keyOf key)) = some change

variable {change : Change β}

section AtOneKey

variable {key form} [DecidableEq γ]

theorem between_swap (previous current : Option β) :
    between form current previous = (between form previous current).map Change.inverse := by
  cases previous with
  | none => cases current <;> rfl
  | some previous =>
    cases current with
    | none => rfl
    | some current =>
      simp only [between, eq_comm (a := form current)]
      split <;> rfl

theorem between_eq_none_iff {previous current : Option β} :
    between form previous current = none ↔ previous.map form = current.map form := by
  cases previous <;> cases current <;> simp [between]

theorem after_of_between {previous current : Option β}
    (h : between form previous current = some change) : change.after = current := by
  rcases previous with _ | previous <;> rcases current with _ | current <;>
    simp only [between] at h
  · simp at h
  · rw [← Option.some.inj h, Change.after]
  · rw [← Option.some.inj h, Change.after]
  · split at h
    · simp at h
    · rw [← Option.some.inj h, Change.after]

theorem keyOf_of_between {previous current : κ → Option β} (hPrevious : Keyed key previous)
    (hCurrent : Keyed key current) {k : κ}
    (h : between form (previous k) (current k) = some change) : change.keyOf key = k := by
  rcases hOld : previous k with _ | old <;> rcases hNew : current k with _ | new <;>
    simp only [hOld, hNew, between] at h
  · simp at h
  · rw [← Option.some.inj h]
    exact hCurrent k new hNew
  · rw [← Option.some.inj h]
    exact hPrevious k old hOld
  · split at h
    · simp at h
    · rw [← Option.some.inj h]
      exact hCurrent k new hNew

theorem keyOf_inverse_of_between {previous current : κ → Option β} (hPrevious : Keyed key previous)
    (hCurrent : Keyed key current) {k : κ}
    (h : between form (previous k) (current k) = some change) :
    change.inverse.keyOf key = k := by
  have hSwap : between form (current k) (previous k) = some change.inverse := by
    rw [between_swap, h]
    rfl
  exact keyOf_of_between hCurrent hPrevious hSwap

end AtOneKey

section Patches

variable {key} [DecidableEq κ]

theorem patch_of_forall_ne {map : κ → Option β} {changes : List (Change β)} {k : κ}
    (h : ∀ change ∈ changes, change.keyOf key ≠ k) : patch key map changes k = map k := by
  induction changes generalizing map with
  | nil => rfl
  | cons change changes ih =>
    have hFirst : change.keyOf key ≠ k := h change List.mem_cons_self
    have hRest : patch key (change.apply key map) changes k = change.apply key map k :=
      ih fun other hOther => h other (List.mem_cons_of_mem _ hOther)
    rw [patch, List.foldl_cons, ← patch, hRest, Change.apply_eq_update,
      Function.update_of_ne hFirst.symm]

/-- Of changes about different keys each decides its own entry. -/
theorem patch_of_mem {map : κ → Option β} {changes : List (Change β)}
    (hDistinct : changes.Pairwise fun a b => a.keyOf key ≠ b.keyOf key)
    (hChange : change ∈ changes) : patch key map changes (change.keyOf key) = change.after := by
  induction changes generalizing map with
  | nil => simp at hChange
  | cons first changes ih =>
    obtain ⟨hFirst, hRest⟩ := List.pairwise_cons.mp hDistinct
    rw [patch, List.foldl_cons, ← patch]
    rcases List.mem_cons.mp hChange with rfl | hLater
    · rw [patch_of_forall_ne fun other hOther => (hFirst other hOther).symm,
        Change.apply_eq_update, Function.update_self]
    · exact ih hRest hLater

end Patches

namespace IsDiff

variable {key form} [LinearOrder κ] [DecidableEq γ] {previous current : κ → Option β}
  {changes others : List (Change β)}

theorem exists_mem (h : IsDiff key form previous current changes)
    (hPrevious : Keyed key previous) (hCurrent : Keyed key current) {k : κ}
    (hDiffer : (previous k).map form ≠ (current k).map form) :
    ∃ change ∈ changes, change.keyOf key = k := by
  rcases hBetween : between form (previous k) (current k) with _ | change
  · exact absurd (between_eq_none_iff.mp hBetween) hDiffer
  · have hKey := keyOf_of_between hPrevious hCurrent hBetween
    exact ⟨change, (h.mem_iff change).mpr (by rw [hKey, hBetween]), hKey⟩

/-- Patching the first map gives the second, up to the form of its values. -/
theorem same_patch (h : IsDiff key form previous current changes)
    (hPrevious : Keyed key previous) (hCurrent : Keyed key current) :
    Same form (patch key previous changes) current := by
  intro k
  by_cases hTouched : ∃ change ∈ changes, change.keyOf key = k
  · obtain ⟨change, hChange, rfl⟩ := hTouched
    have hDistinct := h.ordered.imp fun hLt => ne_of_lt hLt
    rw [patch_of_mem hDistinct hChange, after_of_between ((h.mem_iff change).mp hChange)]
  · have hSame : (previous k).map form = (current k).map form :=
      not_not.mp fun hDiffer => hTouched (h.exists_mem hPrevious hCurrent hDiffer)
    rw [patch_of_forall_ne fun change hChange hKey => hTouched ⟨change, hChange, hKey⟩, hSame]

theorem eq_nil_iff (h : IsDiff key form previous current changes)
    (hPrevious : Keyed key previous) (hCurrent : Keyed key current) :
    changes = [] ↔ Same form previous current := by
  constructor
  · rintro rfl
    exact h.same_patch hPrevious hCurrent
  · intro hSame
    refine List.eq_nil_iff_forall_not_mem.mpr fun change hChange => ?_
    have hBetween := (h.mem_iff change).mp hChange
    rw [between_eq_none_iff.mpr (hSame _)] at hBetween
    exact absurd hBetween (by simp)

/-- There is only one difference between two maps. -/
theorem unique (h : IsDiff key form previous current changes)
    (hOther : IsDiff key form previous current others) : changes = others := by
  have hNodup : ∀ list : List (Change β), list.Pairwise (fun a b => a.keyOf key < b.keyOf key) →
      list.Nodup := fun list hOrdered =>
    hOrdered.imp fun hLt hEq => absurd (hEq ▸ hLt) (lt_irrefl _)
  have hPerm : changes.Perm others :=
    (List.perm_ext_iff_of_nodup (hNodup _ h.ordered) (hNodup _ hOther.ordered)).mpr
      fun change => (h.mem_iff change).trans (hOther.mem_iff change).symm
  exact hPerm.eq_of_pairwise (fun a b _ _ hab hba => absurd (hab.trans hba) (lt_irrefl _))
    h.ordered hOther.ordered

/-- Inverting each change gives the difference the other way. -/
theorem inverse (h : IsDiff key form previous current changes)
    (hPrevious : Keyed key previous) (hCurrent : Keyed key current) :
    IsDiff key form current previous (changes.map Change.inverse) := by
  have hKeys : ∀ change ∈ changes, change.inverse.keyOf key = change.keyOf key :=
    fun change hChange =>
      keyOf_inverse_of_between hPrevious hCurrent ((h.mem_iff change).mp hChange)
  refine ⟨?_, fun change => ?_⟩
  · rw [List.pairwise_map]
    refine h.ordered.imp_of_mem fun {a b} hA hB hLt => ?_
    rwa [hKeys a hA, hKeys b hB]
  · rw [between_swap, Option.map_eq_some_iff, List.mem_map]
    constructor
    · rintro ⟨original, hOriginal, rfl⟩
      refine ⟨original, ?_, rfl⟩
      rw [hKeys original hOriginal]
      exact (h.mem_iff original).mp hOriginal
    · rintro ⟨original, hBetween, rfl⟩
      refine ⟨original, (h.mem_iff original).mpr ?_, rfl⟩
      rwa [keyOf_of_between hPrevious hCurrent hBetween]

end IsDiff

end KeyedDiff
