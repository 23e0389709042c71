import Mathlib.Data.List.Sort

/-! Places in a list that is sorted by a key. What is dropped from a list does not change the
order of the rest, and a key is among the first places exactly when few keys are smaller. -/
namespace Ranking

variable {α κ : Type*}

variable {items : List α}

section Relation

variable {r : α → α → Prop} [DecidableRel r] [IsTrans α r]

theorem filter_orderedInsert (p : α → Bool) (item : α) (h : items.Pairwise r) :
    (items.orderedInsert r item).filter p =
      if p item then (items.filter p).orderedInsert r item else items.filter p := by
  induction items with
  | nil => by_cases hItem : p item <;> simp [hItem]
  | cons first rest ih =>
    obtain ⟨hFirst, hRest⟩ := List.pairwise_cons.mp h
    rw [List.orderedInsert_cons]
    split
    · rename_i hLe
      by_cases hItem : p item
      · rw [List.filter_cons_of_pos hItem, if_pos hItem]
        -- nothing of the list comes before the inserted item
        cases hKept : (first :: rest).filter p with
        | nil => rfl
        | cons head tail =>
          have hHead : head ∈ first :: rest :=
            List.mem_of_mem_filter (hKept ▸ List.mem_cons_self ..)
          have hBefore : r item head := by
            rcases List.mem_cons.mp hHead with rfl | hMem
            · exact hLe
            · exact IsTrans.trans _ _ _ hLe (hFirst head hMem)
          rw [List.orderedInsert_cons_of_le r tail hBefore]
      · rw [List.filter_cons_of_neg hItem, if_neg hItem]
    · rename_i hLe
      by_cases hKeep : p first
      · simp only [List.filter_cons_of_pos hKeep, ih hRest, List.orderedInsert_cons, if_neg hLe]
        split <;> rfl
      · simp only [List.filter_cons_of_neg hKeep, ih hRest]

theorem filter_insertionSort [Std.Total r] (p : α → Bool) (items : List α) :
    (items.insertionSort r).filter p = (items.filter p).insertionSort r := by
  induction items with
  | nil => rfl
  | cons item rest ih =>
    rw [List.insertionSort_cons, filter_orderedInsert p item (List.pairwise_insertionSort r rest),
      ih]
    by_cases hItem : p item <;> simp [hItem]

end Relation

variable [LinearOrder κ] {key : α → κ}

/-- Items with different keys are strictly increasing once sorted. -/
theorem pairwise_lt_insertionSort (h : items.Pairwise fun left right => key left ≠ key right) :
    (items.insertionSort fun left right => key left ≤ key right).Pairwise
      fun left right => key left < key right := by
  have hTotal : Std.Total fun left right : α => key left ≤ key right :=
    ⟨fun left right => le_total (key left) (key right)⟩
  have hTrans : IsTrans α fun left right => key left ≤ key right := ⟨fun _ _ _ => LE.le.trans⟩
  have hLe := List.pairwise_insertionSort (fun left right => key left ≤ key right) items
  have hNe := (List.Perm.pairwise_iff (fun hNe => hNe.symm)
    (List.perm_insertionSort (fun left right => key left ≤ key right) items)).mpr h
  exact (hLe.and hNe).imp fun hPair => lt_of_le_of_ne hPair.1 hPair.2

/-- A key is in the first places of a sorted list exactly when fewer items have a smaller one. -/
theorem mem_map_take_iff (h : items.Pairwise fun left right => key left ≤ key right) {places : Nat}
    {x : κ} :
    x ∈ (items.take places).map key ↔
      x ∈ items.map key ∧ (items.countP fun item => key item < x) < places := by
  induction items generalizing places with
  | nil => simp
  | cons first rest ih =>
    obtain ⟨hFirst, hRest⟩ := List.pairwise_cons.mp h
    cases places with
    | zero => simp
    | succ places =>
      rw [List.take_succ_cons, List.map_cons, List.map_cons, List.mem_cons, List.mem_cons,
        ih hRest, List.countP_cons]
      by_cases hSame : x = key first
      · subst hSame
        have hNone : (rest.countP fun item => key item < key first) = 0 := by
          rw [List.countP_eq_zero]
          intro item hItem
          simpa using hFirst item hItem
        simp [hNone]
      · have hSmaller (hMem : x ∈ rest.map key) : key first < x := by
          obtain ⟨item, hItem, rfl⟩ := List.mem_map.mp hMem
          exact lt_of_le_of_ne (hFirst item hItem) (Ne.symm hSame)
        simp only [hSame, false_or]
        refine and_congr_right fun hMem => ?_
        simp [hSmaller hMem]

end Ranking
