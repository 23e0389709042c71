import Mathlib.Data.List.Nodup

/-! Queues with at most one item per key, in order of arrival. Putting an item
whose key is present replaces the old item where it stands. -/
namespace KeyedQueue

variable {Item Key : Type*} [DecidableEq Key]

/-- A queue and the fact that no two of its items share a key. -/
structure Queue (Item : Type*) {Key : Type*} (key : Item → Key) where
  items : List Item
  distinct : (items.map key).Nodup

variable {key : Item → Key}

instance [DecidableEq Item] : DecidableEq (Queue Item key) := fun left right =>
  decidable_of_iff (left.items = right.items) (by
    cases left
    cases right
    simp)

/-- Replace the item with the same key, or append. -/
def putItem (key : Item → Key) (item : Item) : List Item → List Item
  | [] => [item]
  | head :: rest => if key head = key item then item :: rest else head :: putItem key item rest

def removeKey (key : Item → Key) (target : Key) : List Item → List Item
  | [] => []
  | head :: rest => if key head = target then rest else head :: removeKey key target rest

theorem putItem_keys (item : Item) (items : List Item) :
    (putItem key item items).map key =
      if key item ∈ items.map key then items.map key else items.map key ++ [key item] := by
  induction items with
  | nil => simp [putItem]
  | cons head rest ih =>
    by_cases hHead : key head = key item
    · simp [putItem, hHead]
    · rw [putItem, if_neg hHead, List.map_cons, ih]
      simp only [List.map_cons, List.mem_cons, Ne.symm hHead, false_or]
      split <;> simp

theorem removeKey_sublist (target : Key) (items : List Item) :
    (removeKey key target items).Sublist items := by
  induction items with
  | nil => exact List.Sublist.refl _
  | cons head rest ih =>
    rw [removeKey]
    split
    · exact List.sublist_cons_self head rest
    · exact ih.cons_cons head

variable {target : Key} {item : Item} {items : List Item}

/-- With distinct keys, removing the first item of a key removes all. -/
theorem removeKey_eq_filter (h : (items.map key).Nodup) :
    removeKey key target items = items.filter fun item => key item ≠ target := by
  induction items with
  | nil => rfl
  | cons head rest ih =>
    rw [List.map_cons, List.nodup_cons] at h
    rw [removeKey]
    split
    · rename_i hHead
      rw [List.filter_cons_of_neg (by simp [hHead]), eq_comm, List.filter_eq_self]
      intro item hItem
      refine decide_eq_true fun hKey => h.1 ?_
      exact List.mem_map.mpr ⟨item, hItem, hKey.trans hHead.symm⟩
    · rename_i hHead
      rw [List.filter_cons_of_pos (by simp [hHead]), ih h.2]

namespace Queue

def empty : Queue Item key := ⟨[], List.nodup_nil⟩

def get (queue : Queue Item key) (target : Key) : Option Item :=
  queue.items.find? fun item => key item = target

def put (queue : Queue Item key) (item : Item) : Queue Item key where
  items := putItem key item queue.items
  distinct := by
    rw [putItem_keys]
    split
    · exact queue.distinct
    · rename_i hFresh
      rw [← List.concat_eq_append]
      exact queue.distinct.concat hFresh

def remove (queue : Queue Item key) (target : Key) : Queue Item key where
  items := removeKey key target queue.items
  distinct := queue.distinct.sublist ((removeKey_sublist target queue.items).map key)

theorem get_eq_some_iff {queue : Queue Item key} :
    queue.get target = some item ↔ item ∈ queue.items ∧ key item = target := by
  obtain ⟨items, distinct⟩ := queue
  simp only [get]
  induction items with
  | nil => simp
  | cons head rest ih =>
    rw [List.map_cons, List.nodup_cons] at distinct
    by_cases hHead : key head = target
    · rw [List.find?_cons_of_pos (by simpa using hHead), Option.some.injEq]
      constructor
      · rintro rfl
        exact ⟨List.mem_cons_self, hHead⟩
      · rintro ⟨hItem, hKey⟩
        rcases List.mem_cons.mp hItem with rfl | hRest
        · rfl
        · exact absurd (List.mem_map.mpr ⟨item, hRest, hKey.trans hHead.symm⟩) distinct.1
    · rw [List.find?_cons_of_neg (by simpa using hHead), ih distinct.2, List.mem_cons]
      constructor
      · rintro ⟨hItem, hKey⟩
        exact ⟨.inr hItem, hKey⟩
      · rintro ⟨rfl | hItem, hKey⟩
        · exact absurd hKey hHead
        · exact ⟨hItem, hKey⟩

/-- What is put is found, and other keys are as they were. -/
theorem get_put (queue : Queue Item key) (item : Item) (target : Key) :
    (queue.put item).get target = if key item = target then some item else queue.get target := by
  obtain ⟨items, distinct⟩ := queue
  simp only [get, put]
  clear distinct
  induction items with
  | nil => by_cases hItem : key item = target <;> simp [putItem, hItem]
  | cons head rest ih =>
    by_cases hHead : key head = key item
    · by_cases hItem : key item = target <;> simp [putItem, hHead, hItem]
    · rw [putItem, if_neg hHead]
      by_cases hTarget : key head = target
      · have hItem : key item ≠ target := fun h => hHead (hTarget.trans h.symm)
        simp [hTarget, hItem]
      · simp only [hTarget, decide_false, Bool.false_eq_true, not_false_eq_true,
          List.find?_cons_of_neg, ih]

/-- What is removed is gone, and other keys are as they were. -/
theorem get_remove (queue : Queue Item key) (removed target : Key) :
    (queue.remove removed).get target = if target = removed then none else queue.get target := by
  simp only [get, remove, removeKey_eq_filter queue.distinct, List.find?_filter]
  split
  · rename_i hTarget
    simp [hTarget]
  · rename_i hTarget
    congr 1
    funext item
    by_cases hKey : key item = target <;> simp [hKey, hTarget]

end Queue

section Filter

variable {keep : Item → Bool}

/-- Putting an item that is not kept changes no kept one unless it replaces one. -/
theorem filter_putItem_of_not (hItem : keep item = false)
    (hOld : ∀ old ∈ items, key old = key item → keep old = false) :
    (putItem key item items).filter keep = items.filter keep := by
  induction items with
  | nil => simp [putItem, hItem]
  | cons head rest ih =>
    rw [List.forall_mem_cons] at hOld
    rw [putItem]
    split
    · rename_i hKey
      rw [List.filter_cons_of_neg (by simp [hItem]),
        List.filter_cons_of_neg (by simp [hOld.1 hKey])]
    · rw [List.filter_cons, List.filter_cons, ih hOld.2]

theorem filter_putItem (hItem : keep item)
    (hOld : ∀ old ∈ items, key old = key item → keep old) :
    (putItem key item items).filter keep = putItem key item (items.filter keep) := by
  induction items with
  | nil => simp [putItem, hItem]
  | cons head rest ih =>
    rw [List.forall_mem_cons] at hOld
    rw [putItem]
    split
    · rename_i hKey
      rw [List.filter_cons_of_pos hItem, List.filter_cons_of_pos (hOld.1 hKey), putItem,
        if_pos hKey]
    · rename_i hKey
      rw [List.filter_cons, List.filter_cons, ih hOld.2]
      split
      · rw [putItem, if_neg hKey]
      · rfl

/-- Removing an item that is not kept changes no kept one. -/
theorem filter_removeKey_of_not (hDistinct : (items.map key).Nodup)
    (hOld : ∀ old ∈ items, key old = target → keep old = false) :
    (removeKey key target items).filter keep = items.filter keep := by
  rw [removeKey_eq_filter hDistinct, List.filter_filter]
  refine List.filter_congr fun item hItem => ?_
  by_cases hKey : key item = target
  · simp [hKey, hOld item hItem hKey]
  · simp [hKey]

theorem filter_removeKey (hDistinct : (items.map key).Nodup) :
    (removeKey key target items).filter keep = removeKey key target (items.filter keep) := by
  rw [removeKey_eq_filter hDistinct,
    removeKey_eq_filter (hDistinct.sublist (List.filter_sublist.map key)), List.filter_comm]

namespace Queue

def filter (queue : Queue Item key) (keep : Item → Bool) : Queue Item key where
  items := queue.items.filter keep
  distinct := queue.distinct.sublist (List.filter_sublist.map key)

theorem get_filter (queue : Queue Item key) (keep : Item → Bool)
    (h : ∀ item, queue.get target = some item → keep item) :
    (queue.filter keep).get target = queue.get target := by
  apply Option.ext
  intro item
  rw [get_eq_some_iff, get_eq_some_iff]
  simp only [filter, List.mem_filter]
  constructor
  · rintro ⟨⟨hItem, -⟩, hKey⟩
    exact ⟨hItem, hKey⟩
  · rintro ⟨hItem, hKey⟩
    exact ⟨⟨hItem, h item (get_eq_some_iff.mpr ⟨hItem, hKey⟩)⟩, hKey⟩

end Queue

end Filter

end KeyedQueue
