import Mathlib.Data.List.Basic

/-! Edits of a keyed store and of a copy of it. A history lists the edits, the newest
first. An edit of the store itself is to be found in the store; an edit of the copy may or
may not have reached it. -/
namespace EditHistory

inductive Edit (Item Key : Type*) where
  | put (item : Item)
  | take (target : Key)
  | putCopy (target : Key)
  | takeCopy (target : Key)
  deriving DecidableEq

variable {Item Key : Type*} (key : Item → Key)

def Edit.target : Edit Item Key → Key
  | put item => key item
  | take target | putCopy target | takeCopy target => target

def Edit.takes : Edit Item Key → Bool
  | put _ | putCopy _ => false
  | take _ | takeCopy _ => true

def Edit.ofCopy : Edit Item Key → Bool
  | put _ | take _ => false
  | putCopy _ | takeCopy _ => true

/-- A store has kept its edits: what was put is there unless an edit has since taken it out,
unchanged unless one was about its key; what was taken out is gone unless put back. -/
structure Kept (history : List (Edit Item Key)) (lookup : Key → Option Item) : Prop where
  present : ∀ later earlier item, history = later ++ .put item :: earlier →
    (∀ edit ∈ later, edit.takes → edit.target key ≠ key item) →
      (lookup (key item)).isSome
  unchanged : ∀ later earlier item, history = later ++ .put item :: earlier →
    (∀ edit ∈ later, edit.target key ≠ key item) → lookup (key item) = some item
  absent : ∀ later earlier target, history = later ++ .take target :: earlier →
    (∀ edit ∈ later, edit.takes = false → edit.target key ≠ target) → lookup target = none

/-- What an edit may make of a store at its key. An edit of a copy may have reached this store, or
not. -/
def Reflected (before after : Key → Option Item) : Edit Item Key → Prop
  | .put item => after (key item) = some item
  | .take target => after target = none
  | .putCopy target => (before target).isSome → (after target).isSome
  | .takeCopy target => before target = none → after target = none

variable {key}

theorem kept_nil (lookup : Key → Option Item) : Kept key [] lookup :=
  ⟨by simp, by simp, by simp⟩

/-- An edit that a store reflects at its own key is kept. -/
theorem Kept.cons {history : List (Edit Item Key)} {before after : Key → Option Item}
    {edit : Edit Item Key} (h : Kept key history before)
    (hHere : Reflected key before after edit)
    (hElsewhere : ∀ other, edit.target key ≠ other → after other = before other) :
    Kept key (edit :: history) after where
  present later earlier item hSplit hLater := by
    cases later with
    | nil =>
      obtain ⟨rfl, -⟩ := List.cons.inj hSplit
      exact hHere ▸ rfl
    | cons newest later =>
      obtain ⟨rfl, hRest⟩ := List.cons.inj hSplit
      have hBefore := h.present later earlier item hRest fun edit hEdit =>
        hLater edit (List.mem_cons_of_mem _ hEdit)
      by_cases hTarget : edit.target key = key item
      · cases edit with
        | put other =>
          rw [← hTarget]
          exact hHere ▸ rfl
        | putCopy target =>
          obtain rfl : target = key item := hTarget
          exact hHere hBefore
        | take target | takeCopy target =>
          exact absurd hTarget (hLater _ List.mem_cons_self rfl)
      · rwa [hElsewhere _ hTarget]
  unchanged later earlier item hSplit hLater := by
    cases later with
    | nil =>
      obtain ⟨rfl, -⟩ := List.cons.inj hSplit
      exact hHere
    | cons newest later =>
      obtain ⟨rfl, hRest⟩ := List.cons.inj hSplit
      rw [hElsewhere _ (hLater _ List.mem_cons_self)]
      exact h.unchanged later earlier item hRest fun edit hEdit =>
        hLater edit (List.mem_cons_of_mem _ hEdit)
  absent later earlier target hSplit hLater := by
    cases later with
    | nil =>
      obtain ⟨rfl, -⟩ := List.cons.inj hSplit
      exact hHere
    | cons newest later =>
      obtain ⟨rfl, hRest⟩ := List.cons.inj hSplit
      have hBefore := h.absent later earlier target hRest fun edit hEdit =>
        hLater edit (List.mem_cons_of_mem _ hEdit)
      by_cases hTarget : edit.target key = target
      · cases edit with
        | take other =>
          obtain rfl : other = target := hTarget
          exact hHere
        | takeCopy other =>
          obtain rfl : other = target := hTarget
          exact hHere hBefore
        | put _ | putCopy _ => exact absurd hTarget (hLater _ List.mem_cons_self rfl)
      · rw [hElsewhere _ hTarget, hBefore]

/-- Edits of a copy that have not reached a store do not disturb it. -/
theorem Kept.unseen {history edits : List (Edit Item Key)} {lookup : Key → Option Item}
    (h : Kept key history lookup) (hCopy : ∀ edit ∈ edits, edit.ofCopy) :
    Kept key (edits.reverse ++ history) lookup := by
  induction edits generalizing history with
  | nil => exact h
  | cons edit rest ih =>
    have hReflected : Reflected key lookup lookup edit := by
      cases edit with
      | putCopy target | takeCopy target => exact fun hSame => hSame
      | put _ | take _ => cases hCopy _ List.mem_cons_self
    have hCons : Kept key (edit :: history) lookup := h.cons hReflected fun _ _ => rfl
    simpa using ih hCons fun other hOther => hCopy other (List.mem_cons_of_mem _ hOther)

end EditHistory
