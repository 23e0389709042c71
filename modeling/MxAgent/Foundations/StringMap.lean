import Mathlib.Data.String.Basic
import Mathlib.Data.Finset.Card
import Mathlib.Data.Fintype.EquivFin
import Std.Data.ExtTreeMap.Lemmas

/-! Finite maps with string keys: the entries of a map determine it, and no
map uses up all strings. -/
namespace StringMap

open Std (ExtTreeMap)

variable {β : Type*}

/-- Rebuilding a map from its entries in key order gives the map back. -/
theorem ofList_toList (map : ExtTreeMap String β) : ExtTreeMap.ofList map.toList = map := by
  apply ExtTreeMap.ext_getElem?
  intro key
  cases h : map[key]? with
  | none =>
    apply ExtTreeMap.getElem?_ofList_of_contains_eq_false
    rw [ExtTreeMap.map_fst_toList_eq_keys, ← Bool.not_eq_true, List.contains_iff_mem,
      ExtTreeMap.mem_keys]
    simpa using h
  | some value =>
    exact ExtTreeMap.getElem?_ofList_of_mem Std.ReflCmp.compare_self
      ExtTreeMap.distinct_keys_toList
      (ExtTreeMap.mem_toList_iff_getElem?_eq_some.mpr h)

theorem getElem?_ofList_iff {entries : List (String × β)} (h : (entries.map Prod.fst).Nodup)
    {key : String} {value : β} :
    (ExtTreeMap.ofList entries)[key]? = some value ↔ (key, value) ∈ entries := by
  have hDistinct : entries.Pairwise fun a b => ¬ compare a.1 b.1 = .eq :=
    (List.pairwise_map.mp h).imp fun hNe hEq => hNe (Std.LawfulEqCmp.eq_of_compare hEq)
  constructor
  · intro hGet
    by_cases hKey : key ∈ entries.map Prod.fst
    · obtain ⟨⟨name, found⟩, hEntry, rfl⟩ := List.mem_map.mp hKey
      have hFound := ExtTreeMap.getElem?_ofList_of_mem Std.ReflCmp.compare_self hDistinct hEntry
      rw [hGet, Option.some.injEq] at hFound
      rwa [hFound]
    · have hNone : (ExtTreeMap.ofList entries)[key]? = none :=
        ExtTreeMap.getElem?_ofList_of_contains_eq_false (by simpa using hKey)
      rw [hGet] at hNone
      cases hNone
  · exact ExtTreeMap.getElem?_ofList_of_mem Std.ReflCmp.compare_self hDistinct

theorem mem_iff_exists {map : ExtTreeMap String β} {key : String} :
    key ∈ map ↔ ∃ value, map[key]? = some value := by
  rw [← ExtTreeMap.isSome_getElem?_iff_mem, Option.isSome_iff_exists]

theorem getElem?_eq_none_of_not_mem {map : ExtTreeMap String β} {key : String}
    (h : key ∉ map) : map[key]? = none := by
  rwa [← Option.not_isSome_iff_eq_none, ExtTreeMap.isSome_getElem?_iff_mem]

/-- There is always a key that a map does not use. -/
theorem exists_not_mem (map : ExtTreeMap String β) : ∃ key, key ∉ map := by
  obtain ⟨key, hKey⟩ := Infinite.exists_notMem_finset map.keys.toFinset
  rw [List.mem_toFinset, ExtTreeMap.mem_keys] at hKey
  exact ⟨key, hKey⟩

end StringMap
