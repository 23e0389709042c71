import MxAgent.Foundations.Ranking
import MxAgent.Foundations.Utf8Order
import MxAgent.Protocol.ParseJson

/-! The canonical text as a whole: it is refused for floats only, it is read back as the
value it was written for, it has no blanks between its tokens, it lists the keys of every
object in the order of their bytes, and it does not depend on the order of entries. -/
namespace MxAgent.Protocol

open Readable

/-- A value that `serde_json` can hold: integers of 64 bits, and no key twice in an object. -/
structure Held where
  value : Value
  machine : value.machine
  distinct : value.distinctKeys

section Reordering

/-- The values differ in the order of object entries only, at any depth. -/
inductive Reordered : Value → Value → Prop where
  | refl (value : Value) : Reordered value value
  | trans {first second third : Value} (left : Reordered first second)
      (right : Reordered second third) : Reordered first third
  | entries {fields others : List (String × Value)} (perm : fields.Perm others) :
      Reordered (.object fields) (.object others)
  | item {first second : Value} (before after : List Value) (inside : Reordered first second) :
      Reordered (.array (before ++ first :: after)) (.array (before ++ second :: after))
  | field {first second : Value} (before after : List (String × Value)) (key : String)
      (inside : Reordered first second) :
      Reordered (.object (before ++ (key, first) :: after))
        (.object (before ++ (key, second) :: after))

theorem Value.distinctKeys_array {items : List Value} :
    (array items).distinctKeys ↔ ∀ item ∈ items, item.distinctKeys := by
  simp [distinctKeys, all, keysNodup, allItems_iff]

/-- Reordering keeps keys distinct and does not change the sorted form. -/
theorem Reordered.sorted_eq {first second : Value} (h : Reordered first second)
    (hDistinct : first.distinctKeys) :
    second.distinctKeys ∧ second.sorted = first.sorted := by
  induction h with
  | refl value => exact ⟨hDistinct, rfl⟩
  | trans _ _ ihLeft ihRight =>
    obtain ⟨hSecond, hLeft⟩ := ihLeft hDistinct
    obtain ⟨hThird, hRight⟩ := ihRight hSecond
    exact ⟨hThird, hRight.trans hLeft⟩
  | entries perm =>
    rw [Value.distinctKeys_object] at hDistinct ⊢
    refine ⟨⟨(perm.map Prod.fst).nodup_iff.mp hDistinct.1, fun field hField =>
      hDistinct.2 field (perm.mem_iff.mpr hField)⟩, ?_⟩
    rw [Value.sorted, Value.sorted, Value.sortedFields_eq, Value.sortedFields_eq]
    refine congrArg Value.object (insertionSort_eq_of_perm ?_ (perm.map _)).symm
    rw [List.map_map]
    exact hDistinct.1
  | item before after _ ih =>
    rw [Value.distinctKeys_array, List.forall_mem_append, List.forall_mem_cons] at hDistinct ⊢
    obtain ⟨hInside, hSorted⟩ := ih hDistinct.2.1
    refine ⟨⟨hDistinct.1, hInside, hDistinct.2.2⟩, ?_⟩
    simp only [Value.sorted, Value.sortedItems_eq, List.map_append, List.map_cons, hSorted]
  | field before after key _ ih =>
    rw [Value.distinctKeys_object, List.forall_mem_append, List.forall_mem_cons] at hDistinct ⊢
    obtain ⟨hInside, hSorted⟩ := ih hDistinct.2.2.1
    refine ⟨⟨?_, hDistinct.2.1, hInside, hDistinct.2.2.2⟩, ?_⟩
    · simpa only [List.map_append, List.map_cons] using hDistinct.1
    · simp only [Value.sorted, Value.sortedFields_eq, List.map_append, List.map_cons, hSorted]

theorem Reordered.items {items : List Value} {change : Value → Value}
    (h : ∀ item ∈ items, Reordered item (change item)) (before : List Value) :
    Reordered (.array (before ++ items)) (.array (before ++ items.map change)) := by
  induction items generalizing before with
  | nil => exact .refl _
  | cons item items ih =>
    rw [List.forall_mem_cons] at h
    have hRest := ih h.2 (before ++ [change item])
    rw [List.append_assoc, List.append_assoc] at hRest
    exact .trans (.item before items h.1) hRest

theorem Reordered.fields {fields : List (String × Value)} {change : Value → Value}
    (h : ∀ field ∈ fields, Reordered field.2 (change field.2)) (before : List (String × Value)) :
    Reordered (.object (before ++ fields))
      (.object (before ++ fields.map fun field => (field.1, change field.2))) := by
  induction fields generalizing before with
  | nil => exact .refl _
  | cons field fields ih =>
    rw [List.forall_mem_cons] at h
    have hRest := ih h.2 (before ++ [(field.1, change field.2)])
    rw [List.append_assoc, List.append_assoc] at hRest
    exact .trans (.field before fields field.1 h.1) hRest

/-- The sorted form is the value with its entries in another order. -/
theorem reordered_sorted (value : Value) : Reordered value value.sorted := by
  induction value using Value.nested with
  | array items ih =>
    rw [Value.sorted, Value.sortedItems_eq]
    exact Reordered.items ih []
  | object fields ih =>
    rw [Value.sorted, Value.sortedFields_eq]
    exact .trans (Reordered.fields ih []) (.entries (List.perm_insertionSort _ _).symm)
  | _ => exact .refl _

/-- The result does not depend on the order of entries. -/
theorem Reordered.toCanonicalString_eq {first second : Value} (h : Reordered first second)
    (hDistinct : first.distinctKeys) :
    second.toCanonicalString = first.toCanonicalString := by
  obtain ⟨-, hSorted⟩ := h.sorted_eq hDistinct
  have hFree : second.floatFree = first.floatFree := by
    rw [← Value.floatFree_sorted, hSorted, Value.floatFree_sorted]
  by_cases hFloat : first.floatFree
  · rw [Protocol.toCanonicalString_eq hFloat, Protocol.toCanonicalString_eq (hFree.trans hFloat),
      hSorted]
  · rw [Bool.not_eq_true] at hFloat
    rw [toCanonicalString_error hFloat, toCanonicalString_error (hFree.trans hFloat)]

end Reordering

section KeyOrder

/-- The keys of an object ascend in their bytes, none twice. -/
def Value.keysAscending : Value → Bool
  | .object fields => decide ((fields.map Prod.fst).Pairwise fun a b =>
    Utf8Order.bytes a < Utf8Order.bytes b)
  | _ => true

/-- Sorted entries with distinct keys have strictly increasing keys. -/
theorem insertionSort_ascending {fields : List (String × Value)}
    (h : (fields.map Prod.fst).Nodup) :
    ((fields.insertionSort fun a b => a.1 ≤ b.1).map Prod.fst).Pairwise (· < ·) := by
  rw [List.nodup_iff_pairwise_ne, List.pairwise_map] at h
  rw [List.pairwise_map]
  exact Ranking.pairwise_lt_insertionSort h

theorem sorted_keys {fields : List (String × Value)} (h : (fields.map Prod.fst).Nodup) :
    (((Value.sortedFields fields).insertionSort fun a b => a.1 ≤ b.1).map Prod.fst).Pairwise
      (· < ·) := by
  apply insertionSort_ascending
  rw [Value.sortedFields_eq, List.map_map]
  exact h

theorem keysAscending_sorted {value : Value} (h : value.distinctKeys) :
    value.sorted.all Value.keysAscending := by
  induction value using Value.nested with
  | array items ih =>
    rw [Value.distinctKeys_array] at h
    have hArray (items : List Value) : (Value.array items).keysAscending := rfl
    rw [Value.sorted, Value.sortedItems_eq, Value.all, hArray, Bool.true_and,
      Value.allItems_iff, List.forall_mem_map]
    exact fun item hItem => ih item hItem (h item hItem)
  | object fields ih =>
    rw [Value.distinctKeys_object] at h
    rw [Value.sorted, Value.all, Bool.and_eq_true, Value.keysAscending, decide_eq_true_iff,
      Value.allFields_iff]
    refine ⟨(sorted_keys h.1).imp Utf8Order.bytes_lt_bytes, ?_⟩
    rw [Value.sortedFields_eq]
    simp only [List.mem_insertionSort, List.forall_mem_map]
    exact fun field hField => ih field hField (h.2 field hField)
  | _ => rfl

theorem collectedItems_eq (items : List Value) :
    Value.collectedItems items = items.map Value.collected := by
  induction items with
  | nil => rfl
  | cons item rest ih => rw [Value.collectedItems, ih, List.map_cons]

theorem collectedFields_eq (fields : List (String × Value)) :
    Value.collectedFields fields = fields.map fun field => (field.1, field.2.collected) := by
  induction fields with
  | nil => rfl
  | cons field rest ih => rw [Value.collectedFields, ih, List.map_cons]

/-- Entries in key order are those of their map. -/
theorem ofObject_ofList {fields : List (String × Value)}
    (h : (fields.map Prod.fst).Pairwise (· < ·)) :
    Value.ofObject (.ofList fields) = .object fields := by
  have hNodup : (fields.map Prod.fst).Nodup := h.imp ne_of_lt
  have hListed : fields.Pairwise fun a b => a.1 ≤ b.1 := (List.pairwise_map.mp h).imp le_of_lt
  have hMap : (Std.ExtTreeMap.ofList fields : Object).toList.Pairwise fun a b => a.1 ≤ b.1 :=
    Std.ExtTreeMap.ordered_keys_toList.imp le_of_compare_lt
  rw [Value.ofObject, ← hMap.insertionSort_eq,
    ← insertionSort_eq_of_perm hNodup (perm_toList_ofList hNodup), hListed.insertionSort_eq]

theorem collected_sorted {value : Value} (h : value.distinctKeys) :
    value.sorted.collected = value.sorted := by
  induction value using Value.nested with
  | array items ih =>
    rw [Value.distinctKeys_array] at h
    rw [Value.sorted, Value.sortedItems_eq, Value.collected, collectedItems_eq, List.map_map]
    refine congrArg Value.array (List.map_congr_left fun item hItem => ?_)
    exact ih item hItem (h item hItem)
  | object fields ih =>
    rw [Value.distinctKeys_object] at h
    have hFields : ∀ field ∈ (Value.sortedFields fields).insertionSort fun a b => a.1 ≤ b.1,
        (field.1, field.2.collected) = field := by
      rw [Value.sortedFields_eq]
      simp only [List.mem_insertionSort, List.forall_mem_map]
      exact fun field hField => by rw [ih field hField (h.2 field hField)]
    rw [Value.sorted, Value.collected, collectedFields_eq, List.map_congr_left hFields,
      List.map_id', ofObject_ofList (sorted_keys h.1)]
  | _ => rfl

end KeyOrder

variable {text : List Char}

section Blanks

/-- Where a scanner stands in a text. -/
inductive Scan where
  | outside | inside | escaped

/-- The characters outside string literals, the quotes among them. -/
def outsideLiterals : Scan → List Char → List Char
  | _, [] => []
  | .outside, c :: rest => c :: outsideLiterals (if c = '"' then .inside else .outside) rest
  | .inside, c :: rest =>
    if c = '"' then c :: outsideLiterals .outside rest
    else outsideLiterals (if c = '\\' then .escaped else .inside) rest
  | .escaped, _ :: rest => outsideLiterals .inside rest

def Graphic (c : Char) : Prop := 32 < c.toNat ∧ c.toNat < 127

instance (c : Char) : Decidable (Graphic c) := inferInstanceAs (Decidable (_ ∧ _))

/-- Outside its literals the text is graphic, and it ends outside of them. -/
def Tight (text : List Char) : Prop :=
  ∃ shown, (∀ c ∈ shown, Graphic c) ∧
    ∀ rest, outsideLiterals .outside (text ++ rest) = shown ++ outsideLiterals .outside rest

namespace Tight

theorem nil : Tight [] := ⟨[], by simp, fun _ => rfl⟩

theorem append {first second : List Char} (hFirst : Tight first) (hSecond : Tight second) :
    Tight (first ++ second) := by
  obtain ⟨shown, hShown, hScan⟩ := hFirst
  obtain ⟨other, hOther, hNext⟩ := hSecond
  refine ⟨shown ++ other, ?_, fun rest => ?_⟩
  · rw [List.forall_mem_append]
    exact ⟨hShown, hOther⟩
  · rw [List.append_assoc, hScan, hNext, List.append_assoc]

theorem cons {c : Char} (hGraphic : Graphic c) (hQuote : c ≠ '"')
    (hText : Tight text) : Tight (c :: text) := by
  obtain ⟨shown, hShown, hScan⟩ := hText
  refine ⟨c :: shown, List.forall_mem_cons.mpr ⟨hGraphic, hShown⟩, fun rest => ?_⟩
  rw [List.cons_append, outsideLiterals, if_neg hQuote, hScan, List.cons_append]

theorem of_forall (h : ∀ c ∈ text, Graphic c ∧ c ≠ '"') : Tight text := by
  induction text with
  | nil => exact nil
  | cons c text ih =>
    rw [List.forall_mem_cons] at h
    exact cons h.1.1 h.1.2 (ih h.2)

theorem afterEach {α : Type} {write : α → List Char} {items : List α}
    (h : ∀ item ∈ items, Tight (write item)) : Tight (afterEach ',' write items) := by
  induction items with
  | nil => exact nil
  | cons item items ih =>
    rw [List.forall_mem_cons] at h
    exact cons (by decide) (by decide) (h.1.append (ih h.2))

theorem bracketed {α : Type} {write : α → List Char} {items : List α} {left right : Char}
    (hLeft : Graphic left ∧ left ≠ '"') (hRight : Graphic right ∧ right ≠ '"')
    (h : ∀ item ∈ items, Tight (write item)) :
    Tight (left :: ([','].intercalate (items.map write) ++ [right])) := by
  refine cons hLeft.1 hLeft.2 (append ?_ (cons hRight.1 hRight.2 nil))
  cases items with
  | nil => exact nil
  | cons item items =>
    rw [intercalate_cons]
    rw [List.forall_mem_cons] at h
    exact h.1.append (afterEach h.2)

end Tight

theorem outsideLiterals_escapeChar (c : Char) (rest : List Char) :
    outsideLiterals .inside (escapeChar c ++ rest) = outsideLiterals .inside rest := by
  induction c using escapeChar_cases with
  | control n h => interval_cases n <;> rfl
  | quote => rfl
  | slash => rfl
  | plain c _ hQuote hSlash =>
    rw [List.singleton_append, outsideLiterals, if_neg hQuote, if_neg hSlash]

theorem outsideLiterals_escaped (chars rest : List Char) :
    outsideLiterals .inside (chars.flatMap escapeChar ++ rest) =
      outsideLiterals .inside rest := by
  induction chars with
  | nil => rfl
  | cons c chars ih =>
    rw [List.flatMap_cons, List.append_assoc, outsideLiterals_escapeChar, ih]

theorem tight_stringText (s : String) : Tight (stringText s) := by
  refine ⟨['"', '"'], by simp [Graphic], fun rest => ?_⟩
  rw [stringText, List.cons_append, outsideLiterals, if_pos rfl, List.append_assoc,
    outsideLiterals_escaped]
  rfl

theorem tight_digits (n : Nat) : Tight (Nat.toDigits 10 n) := by
  apply Tight.of_forall
  intro c hMem
  have hDigit := isDigit_of_mem_digits c hMem
  refine ⟨?_, fun hQuote => absurd (hQuote ▸ hDigit) (by decide)⟩
  simp only [Char.isDigit, Bool.and_eq_true, decide_eq_true_eq, ge_iff_le,
    UInt32.le_iff_toNat_le] at hDigit
  exact ⟨lt_of_lt_of_le (by decide) hDigit.1, lt_of_le_of_lt hDigit.2 (by decide)⟩

theorem tight_text (value : Value) : Tight value.text := by
  induction value using Value.nested with
  | null => exact Tight.of_forall (by simp [Value.text, Graphic])
  | bool value => cases value <;> exact Tight.of_forall (by simp [Value.text, Graphic])
  | number n =>
    cases n with
    | posInt value => exact tight_digits value
    | negInt value _ => exact .cons (by decide) (by decide) (tight_digits _)
    | float bits => exact .cons (by decide) (by decide) (tight_digits _)
  | string s => exact tight_stringText s
  | array items ih =>
    rw [Value.text, itemTexts_eq]
    exact .bracketed (by decide) (by decide) ih
  | object fields ih =>
    rw [Value.text, fieldTexts_eq]
    refine .bracketed (by decide) (by decide) fun field hField => ?_
    exact (tight_stringText field.1).append (.cons (by decide) (by decide) (ih field hField))

theorem Tight.graphic (h : Tight text) : ∀ c ∈ outsideLiterals .outside text, Graphic c := by
  obtain ⟨shown, hShown, hScan⟩ := h
  have hText := hScan []
  rw [List.append_nil] at hText
  rw [hText, outsideLiterals, List.append_nil]
  exact hShown

end Blanks

/-- Canonical JSON. The result is an error exactly for a value with a float in it and does not
depend on the order of entries; a text that is given is read back as the value in key order, lists
all keys in increasing byte order, and has only graphic characters outside its string literals. -/
theorem canonical_round_trip (readFloat : List Char → Option UInt64) (held : Held) :
    ((∃ error, held.value.toCanonicalString = .error error) ↔ held.value.floatFree = false) ∧
      (∀ other, Reordered held.value other →
        other.toCanonicalString = held.value.toCanonicalString) ∧
      ∀ text, held.value.toCanonicalString = .ok text →
        (∃ back, fromStr readFloat text = some back ∧ Reordered held.value back) ∧
        (∃ listed, parse readFloat text = some listed ∧ listed.all Value.keysAscending) ∧
        ∀ c ∈ outsideLiterals .outside text.toList, Graphic c := by
  obtain ⟨value, hMachine, hDistinct⟩ := held
  refine ⟨⟨?_, fun h => ⟨_, toCanonicalString_error h⟩⟩,
    fun other h => h.toCanonicalString_eq hDistinct, ?_⟩
  · rintro ⟨error, hError⟩
    by_contra hFloat
    rw [toCanonicalString_eq (by simpa using hFloat)] at hError
    cases hError
  · intro text hText
    have hFloat : value.floatFree := by
      by_contra hFloat
      rw [toCanonicalString_error (by simpa using hFloat)] at hText
      cases hText
    rw [toCanonicalString_eq hFloat, Except.ok.injEq] at hText
    have hParse : parse readFloat text = some value.sorted := by
      rw [← hText]
      apply parse_text
      · exact (Value.all_sorted (fun _ => rfl) (fun _ => rfl) value).trans hMachine
      · rw [Value.floatFree_sorted, hFloat]
    refine ⟨⟨value.sorted, ?_, reordered_sorted value⟩, ⟨_, hParse, keysAscending_sorted hDistinct⟩,
      ?_⟩
    · rw [fromStr, hParse, Option.map_some, collected_sorted hDistinct]
    · rw [← hText, String.toList_ofList]
      exact (tight_text value.sorted).graphic

def unorderedPair : Held where
  value := .object [("z", .number (.posInt 1)), ("a", .string "x y")]
  machine := by decide
  distinct := by decide +kernel

theorem unorderedPair_round_trip :
    (Value.object [("a", .string "x y"), ("z", .number (.posInt 1))]).toCanonicalString =
        unorderedPair.value.toCanonicalString ∧
      ∃ back, fromStr (fun _ => none) "\x7b\"a\":\"x y\",\"z\":1\x7d" = some back ∧
        Reordered unorderedPair.value back :=
  have hPair := canonical_round_trip (fun _ => none) unorderedPair
  ⟨hPair.2.1 _ (.entries (.swap _ _ _)), (hPair.2.2 _ (by decide +kernel)).1⟩

end MxAgent.Protocol
