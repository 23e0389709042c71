import Mathlib.Data.List.Chain
import Mathlib.Logic.Relation

/-! Walks that are not continued from a node they have been at. Where an unguarded walk leads,
a guarded one does too: the part between two visits of a node can be left out. -/
namespace GuardedWalk

variable {V : Type*} {next : V → List V} {path : List V} {v x : V}

/-- What a traversal comes to from a node if it goes on only from nodes not on its path. -/
inductive Visits (next : V → List V) : List V → V → V → Prop where
  | here {path : List V} {v : V} : Visits next path v v
  | child {path : List V} {v u x : V} (fresh : v ∉ path) (step : u ∈ next v)
      (rest : Visits next (v :: path) u x) : Visits next path v x

theorem Visits.reachable (h : Visits next path v x) :
    Relation.ReflTransGen (fun a b => b ∈ next a) v x := by
  induction h with
  | here => exact .refl
  | child _ step _ ih => exact .head step ih

theorem visits_of_mem (h : v ∈ path) : Visits next path v x ↔ x = v := by
  constructor
  · intro hVisits
    cases hVisits with
    | here => rfl
    | child fresh _ _ => exact absurd h fresh
  · rintro rfl
    exact .here

theorem visits_of_notMem (h : v ∉ path) :
    Visits next path v x ↔ x = v ∨ ∃ u ∈ next v, Visits next (v :: path) u x := by
  constructor
  · intro hVisits
    cases hVisits with
    | here => exact .inl rfl
    | child _ step rest => exact .inr ⟨_, step, rest⟩
  · rintro (rfl | ⟨u, hStep, hRest⟩)
    · exact .here
    · exact .child h hStep hRest

/-- A walk that keeps off the path can be guarded. -/
theorem visits_of_isChain {walk : List V} (hWalk : (v :: walk).IsChain fun a b => b ∈ next a)
    (hLast : (v :: walk).getLast? = some x) (hOff : ∀ u ∈ v :: walk, u ∉ path) :
    Visits next path v x := by
  induction hLength : walk.length using Nat.strong_induction_on generalizing v walk path with
  | _ length ih =>
    subst hLength
    cases walk with
    | nil =>
      obtain rfl : v = x := Option.some.inj hLast
      exact .here
    | cons u walk =>
      by_cases hBack : v ∈ u :: walk
      · -- The walk comes back to `v`: what lies between is left out.
        obtain ⟨between, after, hSplit⟩ := List.append_of_mem hBack
        rw [hSplit, ← List.cons_append] at hWalk hLast hOff
        rw [hSplit] at ih
        rw [List.getLast?_append_cons] at hLast
        refine ih after.length ?_ hWalk.right_of_append hLast ?_ rfl
        · rw [List.length_append, List.length_cons]
          omega
        · exact fun w hW => hOff w (List.mem_append_right _ hW)
      · obtain ⟨hStep, hRest⟩ := List.isChain_cons_cons.mp hWalk
        rw [List.getLast?_cons_cons] at hLast
        refine .child (hOff v List.mem_cons_self) hStep ?_
        refine ih walk.length (Nat.lt_succ_self _) hRest hLast (fun w hW hPath => ?_) rfl
        rcases List.mem_cons.mp hPath with rfl | hOld
        · exact hBack hW
        · exact hOff w (List.mem_cons_of_mem v hW) hOld

theorem visits_iff_reachable :
    Visits next [] v x ↔ Relation.ReflTransGen (fun a b => b ∈ next a) v x := by
  refine ⟨Visits.reachable, fun h => ?_⟩
  obtain ⟨walk, hWalk, hLast⟩ := List.exists_isChain_cons_of_relationReflTransGen h
  refine visits_of_isChain hWalk ?_ fun _ _ => List.not_mem_nil
  rw [← hLast]
  exact List.getLast?_eq_some_getLast _

end GuardedWalk
