import Mathlib.Tactic.IntervalCases
import MxAgent.Foundations.Readable
import MxAgent.Protocol.Value

/-! What the canonical text of a value determines. The text refuses floats; on
every other value it can be read back up to the order of object keys, because
strings are escaped, numbers end where their digits end and every bracket has a
closing mark that starts no value. -/
namespace MxAgent.Protocol

open Readable

variable {check : Value → Bool} {items : List Value} {fields : List (String × Value)}
  {rest : List Char} {first second : Value}

namespace Value

/-- Induction with the hypothesis for all items and field values. -/
@[elab_as_elim]
theorem nested {motive : Value → Prop} (null : motive .null)
    (bool : ∀ value, motive (.bool value)) (number : ∀ value, motive (.number value))
    (string : ∀ value, motive (.string value))
    (array : ∀ items, (∀ item ∈ items, motive item) → motive (.array items))
    (object : ∀ fields, (∀ field ∈ fields, motive field.2) → motive (.object fields))
    (value : Value) : motive value := by
  refine @Value.rec motive (fun items => ∀ item ∈ items, motive item)
    (fun fields => ∀ field ∈ fields, motive field.2) (fun field => motive field.2)
    null bool number string array object ?_ ?_ ?_ ?_ ?_ value
  · exact fun item hItem => absurd hItem List.not_mem_nil
  · exact fun first rest hFirst hRest => List.forall_mem_cons.mpr ⟨hFirst, hRest⟩
  · exact fun field hField => absurd hField List.not_mem_nil
  · exact fun first rest hFirst hRest => List.forall_mem_cons.mpr ⟨hFirst, hRest⟩
  · exact fun key value hValue => hValue

mutual

def all (check : Value → Bool) : Value → Bool
  | .null => check .null
  | .bool value => check (.bool value)
  | .number value => check (.number value)
  | .string value => check (.string value)
  | .array items => check (.array items) && allItems check items
  | .object fields => check (.object fields) && allFields check fields

def allItems (check : Value → Bool) : List Value → Bool
  | [] => true
  | item :: rest => item.all check && allItems check rest

def allFields (check : Value → Bool) : List (String × Value) → Bool
  | [] => true
  | (_, value) :: rest => value.all check && allFields check rest

end

theorem allItems_iff : allItems check items ↔ ∀ item ∈ items, item.all check := by
  induction items with
  | nil => simp [allItems]
  | cons item rest ih => simp [allItems, ih]

theorem allFields_iff : allFields check fields ↔ ∀ field ∈ fields, field.2.all check := by
  induction fields with
  | nil => simp [allFields]
  | cons field rest ih => simp [allFields, ih]

def isFloat : Value → Bool
  | .number (.float _) => true
  | _ => false

def floatFree (value : Value) : Bool := value.all fun part => !part.isFloat

def keysNodup : Value → Bool
  | .object fields => decide (fields.map Prod.fst).Nodup
  | _ => true

/-- No object has two entries for one key, as in `serde_json`. -/
def distinctKeys (value : Value) : Bool := value.all keysNodup

theorem floatFree_array : (array items).floatFree ↔ ∀ item ∈ items, item.floatFree := by
  simp [floatFree, all, isFloat, allItems_iff]

theorem floatFree_object : (object fields).floatFree ↔ ∀ field ∈ fields, field.2.floatFree := by
  simp [floatFree, all, isFloat, allFields_iff]

theorem distinctKeys_object :
    (object fields).distinctKeys ↔
      (fields.map Prod.fst).Nodup ∧ ∀ field ∈ fields, field.2.distinctKeys := by
  simp [distinctKeys, all, keysNodup, allFields_iff]

mutual

/-- The value with the entries of every object in key order. -/
def sorted : Value → Value
  | .null => .null
  | .bool value => .bool value
  | .number value => .number value
  | .string value => .string value
  | .array items => .array (sortedItems items)
  | .object fields => .object ((sortedFields fields).insertionSort fun a b => a.1 ≤ b.1)

def sortedItems : List Value → List Value
  | [] => []
  | item :: rest => item.sorted :: sortedItems rest

def sortedFields : List (String × Value) → List (String × Value)
  | [] => []
  | (key, value) :: rest => (key, value.sorted) :: sortedFields rest

end

theorem sortedItems_eq (items : List Value) : sortedItems items = items.map sorted := by
  induction items with
  | nil => rfl
  | cons item rest ih => rw [sortedItems, ih, List.map_cons]

theorem sortedFields_eq (fields : List (String × Value)) :
    sortedFields fields = fields.map fun field => (field.1, field.2.sorted) := by
  induction fields with
  | nil => rfl
  | cons field rest ih => rw [sortedFields, ih, List.map_cons]

/-- Sorting changes no check that looks at the leaves of a value only. -/
theorem all_sorted (hArray : ∀ items, check (.array items))
    (hObject : ∀ fields, check (.object fields)) (value : Value) :
    value.sorted.all check = value.all check := by
  induction value using nested with
  | array items ih =>
    rw [sorted, sortedItems_eq, all, all, hArray, hArray, Bool.true_and, Bool.true_and,
      Bool.eq_iff_iff, allItems_iff, allItems_iff, List.forall_mem_map]
    exact forall₂_congr fun item hItem => by rw [ih item hItem]
  | object fields ih =>
    rw [sorted, sortedFields_eq, all, all, hObject, hObject, Bool.true_and, Bool.true_and,
      Bool.eq_iff_iff, allFields_iff, allFields_iff]
    simp only [List.mem_insertionSort, List.forall_mem_map]
    exact forall₂_congr fun field hField => by rw [ih field hField]
  | _ => rfl

theorem floatFree_sorted (value : Value) : value.sorted.floatFree = value.floatFree :=
  all_sorted (fun _ => rfl) (fun _ => rfl) value

end Value

section Text

def numberText : Number → List Char
  | .posInt value => Nat.toDigits 10 value
  | .negInt value _ => '-' :: Nat.toDigits 10 value.natAbs
  | .float bits => '#' :: Nat.toDigits 10 bits.toNat

def stringText (s : String) : List Char := '"' :: (s.toList.flatMap escapeChar ++ ['"'])

mutual

/-- The text of a value as it stands. Floats, which the canonical text refuses, get a mark of their
own. -/
def Value.text : Value → List Char
  | .null => ['n', 'u', 'l', 'l']
  | .bool true => ['t', 'r', 'u', 'e']
  | .bool false => ['f', 'a', 'l', 's', 'e']
  | .number value => numberText value
  | .string value => stringText value
  | .array items => '[' :: ([','].intercalate (itemTexts items) ++ [']'])
  | .object fields => '\x7b' :: ([','].intercalate (fieldTexts fields) ++ ['\x7d'])

def itemTexts : List Value → List (List Char)
  | [] => []
  | item :: rest => item.text :: itemTexts rest

def fieldTexts : List (String × Value) → List (List Char)
  | [] => []
  | (key, value) :: rest => (stringText key ++ ':' :: value.text) :: fieldTexts rest

end

def fieldText (field : String × Value) : List Char := stringText field.1 ++ ':' :: field.2.text

theorem itemTexts_eq (items : List Value) : itemTexts items = items.map Value.text := by
  induction items with
  | nil => rfl
  | cons item rest ih => rw [itemTexts, ih, List.map_cons]

theorem fieldTexts_eq (fields : List (String × Value)) :
    fieldTexts fields = fields.map fieldText := by
  induction fields with
  | nil => rfl
  | cons field rest ih =>
    rw [fieldTexts, ih, List.map_cons]
    rfl

theorem writeString_eq (s : String) : writeString s = String.ofList (stringText s) := by
  apply String.ext
  simp [writeString, stringText]

theorem writeNumber_eq {n : Number} (h : (Value.number n).floatFree) :
    writeNumber n = .ok (String.ofList (numberText n)) := by
  cases n with
  | posInt value => rw [writeNumber, numberText, Nat.toString_eq_ofList_toDigits]
  | negInt value negative =>
    obtain ⟨n, rfl⟩ := Int.eq_negSucc_of_lt_zero negative
    rw [writeNumber, numberText]
    congr 1
    apply String.ext
    simp [toString, Int.repr, Nat.repr_eq_ofList_toDigits]
  | float bits => cases h

theorem canonicalItems_eq
    (h : ∀ item ∈ items, item.toCanonicalString = .ok (String.ofList item.sorted.text)) :
    canonicalItems items = .ok (items.map fun item => String.ofList item.sorted.text) := by
  induction items with
  | nil => rfl
  | cons item rest ih =>
    rw [List.forall_mem_cons] at h
    rw [canonicalItems, h.1, ih h.2]
    rfl

theorem canonicalFields_eq (h : ∀ field ∈ fields,
      field.2.toCanonicalString = .ok (String.ofList field.2.sorted.text)) :
    canonicalFields fields =
      .ok (fields.map fun field => (field.1, String.ofList field.2.sorted.text)) := by
  induction fields with
  | nil => rfl
  | cons field rest ih =>
    rw [List.forall_mem_cons] at h
    rw [canonicalFields, h.1, ih h.2]
    rfl

/-- Sorting the written entries is writing the sorted ones. -/
theorem writeEntries_eq (fields : List (String × Value)) :
    writeEntries (fields.map fun field => (field.1, String.ofList field.2.text)) =
      String.ofList ([','].intercalate
        ((fields.insertionSort fun a b => a.1 ≤ b.1).map fieldText)) := by
  have hField : fieldText = fun field => stringText field.1 ++ ':' :: field.2.text := rfl
  rw [writeEntries, ← List.map_insertionSort (fun a b : String × Value => a.1 ≤ b.1)]
  · apply String.ext
    simp [String.toList_intercalate, hField, writeString_eq, Function.comp_def]
  · simp

/-- The canonical text of a value without floats is the text of its sorted form. -/
theorem toCanonicalString_eq {value : Value} (h : value.floatFree) :
    value.toCanonicalString = .ok (String.ofList value.sorted.text) := by
  induction value using Value.nested with
  | null => rfl
  | bool value => cases value <;> rfl
  | number value => exact writeNumber_eq h
  | string value => exact congrArg Except.ok (writeString_eq value)
  | array items ih =>
    have hItems := canonicalItems_eq fun item hItem =>
      ih item hItem (Value.floatFree_array.mp h item hItem)
    rw [Value.toCanonicalString, hItems, Value.sorted, Value.text, itemTexts_eq,
      Value.sortedItems_eq]
    refine congrArg Except.ok (String.ext ?_)
    simp [String.toList_intercalate, Function.comp_def]
  | object fields ih =>
    have hFields := canonicalFields_eq fun field hField =>
      ih field hField (Value.floatFree_object.mp h field hField)
    have hEntries := writeEntries_eq (Value.sortedFields fields)
    rw [Value.sortedFields_eq, List.map_map] at hEntries
    rw [Value.toCanonicalString, hFields, Value.sorted, Value.text, fieldTexts_eq,
      Value.sortedFields_eq]
    refine congrArg Except.ok (String.ext ?_)
    simp only [Function.comp_def] at hEntries
    simp [hEntries]

theorem canonicalItems_error {item : Value} (hItem : item ∈ items)
    (h : item.toCanonicalString = .error .nonIntegerNumber) :
    canonicalItems items = .error .nonIntegerNumber := by
  induction items with
  | nil => cases hItem
  | cons first rest ih =>
    rw [canonicalItems]
    rcases List.mem_cons.mp hItem with rfl | hRest
    · rw [h]
      rfl
    · rw [ih hRest]
      rcases first.toCanonicalString with (_ | _) | _ <;> rfl

theorem canonicalFields_error {field : String × Value} (hField : field ∈ fields)
    (h : field.2.toCanonicalString = .error .nonIntegerNumber) :
    canonicalFields fields = .error .nonIntegerNumber := by
  induction fields with
  | nil => cases hField
  | cons first rest ih =>
    rw [canonicalFields]
    rcases List.mem_cons.mp hField with rfl | hRest
    · rw [h]
      rfl
    · rw [ih hRest]
      rcases first.2.toCanonicalString with (_ | _) | _ <;> rfl

/-- A float anywhere in a value is an error. -/
theorem toCanonicalString_error {value : Value} (h : value.floatFree = false) :
    value.toCanonicalString = .error .nonIntegerNumber := by
  induction value using Value.nested with
  | null => cases h
  | bool value => cases h
  | number value =>
    cases value with
    | float bits => rfl
    | _ => cases h
  | string value => cases h
  | array items ih =>
    obtain ⟨item, hItem, hFloat⟩ : ∃ item ∈ items, item.floatFree = false := by
      by_contra hNone
      push Not at hNone
      rw [Value.floatFree_array.mpr fun item hItem => by simpa using hNone item hItem] at h
      cases h
    rw [Value.toCanonicalString, canonicalItems_error hItem (ih item hItem hFloat)]
    rfl
  | object fields ih =>
    obtain ⟨field, hField, hFloat⟩ : ∃ field ∈ fields, field.2.floatFree = false := by
      by_contra hNone
      push Not at hNone
      rw [Value.floatFree_object.mpr fun field hField => by simpa using hNone field hField] at h
      cases h
    rw [Value.toCanonicalString, canonicalFields_error hField (ih field hField hFloat)]
    rfl

end Text

section Reading

def hexDigit? (c : Char) : Option Nat :=
  if c.isDigit then some (c.toNat - 48)
  else if 'a' ≤ c ∧ c ≤ 'f' then some (c.toNat - 87)
  else if 'A' ≤ c ∧ c ≤ 'F' then some (c.toNat - 55)
  else none

def parseHex : List Char → Option (Nat × List Char)
  | a :: b :: c :: d :: rest => do
      let a ← hexDigit? a
      let b ← hexDigit? b
      let c ← hexDigit? c
      let d ← hexDigit? d
      some (((a * 16 + b) * 16 + c) * 16 + d, rest)
  | _ => none

/-- A unicode escape. A high surrogate needs a low one after it. -/
def parseUnicode (text : List Char) : Option (Char × List Char) := do
  let (high, rest) ← parseHex text
  if 0xD800 ≤ high ∧ high < 0xDC00 then
    match rest with
    | '\\' :: 'u' :: rest => do
        let (low, rest) ← parseHex rest
        if 0xDC00 ≤ low ∧ low < 0xE000 then
          some (Char.ofNat (0x10000 + (high - 0xD800) * 1024 + (low - 0xDC00)), rest)
        else none
    | _ => none
  else if 0xDC00 ≤ high ∧ high < 0xE000 then none
  else some (Char.ofNat high, rest)

def unescape (c : Char) : Option Char :=
  match c with
  | '"' => some '"'
  | '\\' => some '\\'
  | '/' => some '/'
  | 'b' => some (Char.ofNat 8)
  | 'f' => some (Char.ofNat 12)
  | 'n' => some (Char.ofNat 10)
  | 'r' => some (Char.ofNat 13)
  | 't' => some (Char.ofNat 9)
  | _ => none

/-- One character of a string literal. Control characters have to be escaped. -/
def parseChar : List Char → Option (Char × List Char)
  | [] => none
  | c :: rest =>
    if c = '\\' then
      match rest with
      | [] => none
      | mark :: rest =>
        if mark = 'u' then parseUnicode rest else (unescape mark).map fun c => (c, rest)
    else if c.toNat < 32 then none
    else some (c, rest)

theorem toDigits_injective {m n : Nat} (h : Nat.toDigits 10 m = Nat.toDigits 10 n) : m = n := by
  calc
    m = Nat.ofDigitChars 10 (Nat.toDigits 10 m) 0 := Nat.ofDigitChars_ten_toDigits.symm
    _ = n := by rw [h, Nat.ofDigitChars_ten_toDigits]

theorem isDigit_of_mem_digits {n : Nat} : ∀ c ∈ Nat.toDigits 10 n, c.isDigit :=
  fun _ hMem => Nat.isDigit_of_mem_toDigits (by decide) (by decide) hMem

/-- What may follow a value inside a canonical text: nothing, or the end of an item. -/
def Ends (rest : List Char) : Prop := ∀ c ∈ rest.head?, c = ',' ∨ c = ']' ∨ c = '\x7d'

theorem Ends.not_digit (h : Ends rest) : ∀ c ∈ rest.head?, ¬ c.isDigit := by
  intro c hMem
  rcases h c hMem with rfl | rfl | rfl <;> decide

theorem digits_readable (n : Nat) : ReadableBefore Ends (Nat.toDigits 10) n := by
  intro m rest tail hRest hTail h
  obtain ⟨hDigits, hEnd⟩ := append_inj_of_class isDigit_of_mem_digits isDigit_of_mem_digits
    hRest.not_digit hTail.not_digit h
  exact ⟨toDigits_injective hDigits, hEnd⟩

theorem escapeChar_plain {c : Char} (hControl : ¬ c.toNat < 32) (hQuote : c.toNat ≠ 34)
    (hSlash : c.toNat ≠ 92) : escapeChar c = [c] := by
  unfold escapeChar
  split <;> first | omega | exact if_neg hControl

/-- A control character, a quote or a backslash is written with an escape, any other as itself. -/
@[elab_as_elim]
theorem escapeChar_cases {motive : Char → List Char → Prop}
    (control : ∀ n < 32, motive (Char.ofNat n) (escapeChar (Char.ofNat n)))
    (quote : motive '"' ['\\', '"']) (slash : motive '\\' ['\\', '\\'])
    (plain : ∀ c : Char, ¬ c.toNat < 32 → c ≠ '"' → c ≠ '\\' → motive c [c]) (c : Char) :
    motive c (escapeChar c) := by
  have hChar : Char.ofNat c.toNat = c := Char.ofNat_toNat c
  by_cases hControl : c.toNat < 32
  · rw [← hChar]
    exact control c.toNat hControl
  · by_cases hQuote : c.toNat = 34
    · rw [← hChar, hQuote]
      exact quote
    · by_cases hSlash : c.toNat = 92
      · rw [← hChar, hSlash]
        exact slash
      · rw [escapeChar_plain hControl hQuote hSlash]
        exact plain c hControl (fun hEq => hQuote (by rw [hEq]; rfl))
          (fun hEq => hSlash (by rw [hEq]; rfl))

theorem parseChar_control {n : Nat} (h : n < 32) (rest : List Char) :
    parseChar (escapeChar (Char.ofNat n) ++ rest) = some (Char.ofNat n, rest) := by
  interval_cases n <;> rfl

theorem parseChar_escapeChar (c : Char) (rest : List Char) :
    parseChar (escapeChar c ++ rest) = some (c, rest) := by
  induction c using escapeChar_cases with
  | control n h => exact parseChar_control h rest
  | quote => rfl
  | slash => rfl
  | plain c hControl _ hSlash =>
    rw [List.singleton_append, parseChar.eq_def]
    simp only [if_neg hSlash, if_neg hControl]

theorem escapeChar_not_quote (c : Char) (rest : List Char) :
    ¬ StartsWith '"' (escapeChar c ++ rest) := by
  rintro ⟨after, h⟩
  have hRead := parseChar_escapeChar c rest
  rw [h] at hRead
  obtain rfl : '"' = c := congrArg Prod.fst (Option.some.inj hRead)
  simp [escapeChar] at h

theorem stringText_readable (s : String) : ReadableBefore (fun _ => True) stringText s := by
  intro t rest tail _ _ h
  rw [stringText, stringText, List.cons_append, List.cons_append, List.cons.injEq,
    List.append_assoc, List.append_assoc] at h
  obtain ⟨hChars, hEnd⟩ := flatMap_readable (readable_of_read parseChar_escapeChar)
    escapeChar_not_quote s.toList t.toList _ _ ⟨_, rfl⟩ ⟨_, rfl⟩ h.2
  exact ⟨String.ext hChars, (List.cons.inj hEnd).2⟩

/-- What the first letter of a text says about the value. -/
inductive Lead where
  | null | true | false | string | array | object | negative | float | digit | none
  deriving DecidableEq

def leadOf (c : Char) : Lead :=
  if c = 'n' then .null else if c = 't' then .true else if c = 'f' then .false
  else if c = '"' then .string else if c = '[' then .array else if c = '\x7b' then .object
  else if c = '-' then .negative else if c = '#' then .float
  else if c.isDigit then .digit else .none

def Value.lead : Value → Lead
  | .null => .null
  | .bool true => .true
  | .bool false => .false
  | .string _ => .string
  | .array _ => .array
  | .object _ => .object
  | .number (.negInt _ _) => .negative
  | .number (.float _) => .float
  | .number (.posInt _) => .digit

theorem lead_ne_none (value : Value) : value.lead ≠ .none := by
  unfold Value.lead
  split <;> decide

theorem leadOf_digit {c : Char} (h : c.isDigit) : leadOf c = .digit := by
  unfold leadOf
  split_ifs
  all_goals first | rfl | (subst c; revert h; decide)

theorem text_lead (value : Value) : ∃ c rest, value.text = c :: rest ∧ leadOf c = value.lead := by
  rcases value with _ | (_ | _) | (n | ⟨n, hn⟩ | bits) | s | items | fields
  case number.posInt =>
    obtain ⟨c, rest, hDigits⟩ := List.exists_cons_of_ne_nil (Nat.toDigits_ne_nil (b := 10) (n := n))
    have hMem : c ∈ Nat.toDigits 10 n := by simp [hDigits]
    exact ⟨c, rest, hDigits, leadOf_digit (isDigit_of_mem_digits c hMem)⟩
  all_goals exact ⟨_, _, rfl, rfl⟩

theorem lead_eq {tail : List Char}
    (h : first.text ++ rest = second.text ++ tail) : first.lead = second.lead := by
  obtain ⟨c, restFirst, hFirst, hLeadFirst⟩ := text_lead first
  obtain ⟨d, restSecond, hSecond, hLeadSecond⟩ := text_lead second
  rw [hFirst, hSecond, List.cons_append, List.cons_append, List.cons.injEq] at h
  rw [← hLeadFirst, ← hLeadSecond, h.1]

theorem text_not_close (value : Value) (rest : List Char) :
    ¬ StartsWith ']' (value.text ++ rest) := by
  rintro ⟨after, h⟩
  obtain ⟨c, body, hText, hLead⟩ := text_lead value
  rw [hText, List.cons_append, List.cons.injEq] at h
  rw [h.1] at hLead
  exact lead_ne_none value hLead.symm

theorem fieldText_not_close (field : String × Value) (rest : List Char) :
    ¬ StartsWith '\x7d' (fieldText field ++ rest) := by
  rintro ⟨after, h⟩
  exact absurd (List.cons.inj h).1 (by decide)

theorem ends_item (h : Follows ',' ']' rest) : Ends rest := by
  rcases h with ⟨after, rfl⟩ | ⟨after, rfl⟩ <;> simp [Ends]

theorem ends_field (h : Follows ',' '\x7d' rest) : Ends rest := by
  rcases h with ⟨after, rfl⟩ | ⟨after, rfl⟩ <;> simp [Ends]

theorem numberText_readable (n : Number) : ReadableBefore Ends Value.text (.number n) := by
  intro other rest tail hRest hTail h
  have hLead := lead_eq h
  cases n with
  | posInt value =>
    rcases other with _ | (_ | _) | (m | ⟨m, hm⟩ | bits) | s | items | fields <;>
      simp only [Value.lead, reduceCtorEq] at hLead
    obtain ⟨rfl, rfl⟩ := digits_readable value m rest tail hRest hTail h
    exact ⟨rfl, rfl⟩
  | negInt value hv =>
    rcases other with _ | (_ | _) | (m | ⟨m, hm⟩ | bits) | s | items | fields <;>
      simp only [Value.lead, reduceCtorEq] at hLead
    obtain ⟨hAbs, rfl⟩ := digits_readable _ m.natAbs rest tail hRest hTail (List.cons.inj h).2
    obtain rfl : value = m := by omega
    exact ⟨rfl, rfl⟩
  | float bits =>
    rcases other with _ | (_ | _) | (m | ⟨m, hm⟩ | others) | s | items | fields <;>
      simp only [Value.lead, reduceCtorEq] at hLead
    obtain ⟨hBits, rfl⟩ := digits_readable _ others.toNat rest tail hRest hTail
      (List.cons.inj h).2
    rw [UInt64.toNat_inj.mp hBits]
    exact ⟨rfl, rfl⟩

/-- A value can be read back from its text, up to its end. -/
theorem text_readable (value : Value) : ReadableBefore Ends Value.text value := by
  induction value using Value.nested with
  | null =>
    intro other rest tail hRest hTail h
    have hLead := lead_eq h
    rcases other with _ | (_ | _) | (m | ⟨m, hm⟩ | bits) | s | items | fields <;>
      simp only [Value.lead, reduceCtorEq] at hLead
    exact ⟨rfl, List.append_cancel_left h⟩
  | bool value =>
    intro other rest tail hRest hTail h
    have hLead := lead_eq h
    cases value <;>
      rcases other with _ | (_ | _) | (m | ⟨m, hm⟩ | bits) | s | items | fields <;>
      simp only [Value.lead, reduceCtorEq] at hLead <;>
      exact ⟨rfl, List.append_cancel_left h⟩
  | number n => exact numberText_readable n
  | string s =>
    intro other rest tail hRest hTail h
    have hLead := lead_eq h
    rcases other with _ | (_ | _) | (m | ⟨m, hm⟩ | bits) | t | items | fields <;>
      simp only [Value.lead, reduceCtorEq] at hLead
    obtain ⟨rfl, rfl⟩ := stringText_readable s t rest tail trivial trivial h
    exact ⟨rfl, rfl⟩
  | array items ih =>
    intro other rest tail hRest hTail h
    have hLead := lead_eq h
    rcases other with _ | (_ | _) | (m | ⟨m, hm⟩ | bits) | t | others | fields <;>
      simp only [Value.lead, reduceCtorEq] at hLead
    rw [Value.text, Value.text, itemTexts_eq, itemTexts_eq, List.cons_append, List.cons_append,
      List.cons.injEq, List.append_assoc, List.append_assoc] at h
    have hItems : ∀ item ∈ items, ReadableBefore (Follows ',' ']') Value.text item :=
      fun item hItem => (ih item hItem).mono fun _ => ends_item
    obtain ⟨rfl, hEnd⟩ := intercalate_readable (by decide) text_not_close hItems others _ _
      ⟨_, rfl⟩ ⟨_, rfl⟩ h.2
    exact ⟨rfl, (List.cons.inj hEnd).2⟩
  | object fields ih =>
    intro other rest tail hRest hTail h
    have hLead := lead_eq h
    rcases other with _ | (_ | _) | (m | ⟨m, hm⟩ | bits) | t | items | others <;>
      simp only [Value.lead, reduceCtorEq] at hLead
    rw [Value.text, Value.text, fieldTexts_eq, fieldTexts_eq, List.cons_append,
      List.cons_append, List.cons.injEq, List.append_assoc, List.append_assoc] at h
    have hFields : ∀ field ∈ fields, ReadableBefore (Follows ',' '\x7d') fieldText field :=
      fun field hField => pair_readable ((stringText_readable field.1).mono fun _ _ => trivial)
        ((ih field hField).mono fun _ => ends_field)
    obtain ⟨rfl, hEnd⟩ := intercalate_readable (by decide) fieldText_not_close hFields others _ _
      ⟨_, rfl⟩ ⟨_, rfl⟩ h.2
    exact ⟨rfl, (List.cons.inj hEnd).2⟩

theorem text_injective (h : first.text = second.text) : first = second := by
  have hEnds : Ends [] := by simp [Ends]
  exact (text_readable first second [] [] hEnds hEnds (by rw [h])).1

/-- Two values without floats have one canonical text exactly when they are the same up to the order
of object keys. -/
theorem toCanonicalString_inj (hFirst : first.floatFree)
    (hSecond : second.floatFree) :
    first.toCanonicalString = second.toCanonicalString ↔ first.sorted = second.sorted := by
  rw [toCanonicalString_eq hFirst, toCanonicalString_eq hSecond, Except.ok.injEq]
  constructor
  · intro h
    have hText := congrArg String.toList h
    rw [String.toList_ofList, String.toList_ofList] at hText
    exact text_injective hText
  · intro h
    rw [h]

end Reading

section Objects

open Std

theorem le_of_compare_lt {a b : String} (h : compare a b = .lt) : a ≤ b :=
  (compare_lt_iff_lt.mp h).le

/-- A map lists its entries in key order, so only values are sorted. -/
theorem sorted_ofObject (fields : Object) :
    (Value.ofObject fields).sorted = .ofObject (fields.map fun _ value => value.sorted) := by
  have hOrdered : (fields.map fun _ value => value.sorted).toList.Pairwise
      fun a b => a.1 ≤ b.1 :=
    ExtTreeMap.ordered_keys_toList.imp le_of_compare_lt
  rw [Value.ofObject, Value.sorted, Value.sortedFields_eq, Value.ofObject,
    ← hOrdered.insertionSort_eq, ExtTreeMap.toList_map]

/-- Maps are the same up to key order when each name has the same value. -/
theorem sorted_ofObject_inj {first second : Object} :
    (Value.ofObject first).sorted = (Value.ofObject second).sorted ↔
      ∀ name : String, first[name]?.map Value.sorted = second[name]?.map Value.sorted := by
  rw [sorted_ofObject, sorted_ofObject]
  constructor
  · intro h name
    have hMaps := congrArg Value.asObject h
    rw [Value.asObject_ofObject, Value.asObject_ofObject, Option.some.injEq] at hMaps
    have hName := congrArg (fun map : Object => map[name]?) hMaps
    rwa [ExtTreeMap.getElem?_map, ExtTreeMap.getElem?_map] at hName
  · intro h
    congr 1
    apply ExtTreeMap.ext_getElem?
    intro name
    rw [ExtTreeMap.getElem?_map, ExtTreeMap.getElem?_map]
    exact h name

/-- Entries without repeated keys have one sorted order. -/
theorem insertionSort_eq_of_perm {entries others : List (String × Value)}
    (h : (entries.map Prod.fst).Nodup) (hPerm : entries.Perm others) :
    entries.insertionSort (fun a b => a.1 ≤ b.1) = others.insertionSort (fun a b => a.1 ≤ b.1) := by
  have hTotal : Std.Total fun a b : String × Value => a.1 ≤ b.1 := ⟨fun a b => le_total a.1 b.1⟩
  have hTrans : IsTrans (String × Value) fun a b => a.1 ≤ b.1 := ⟨fun _ _ _ => LE.le.trans⟩
  apply List.Perm.eq_of_pairwise _ (List.pairwise_insertionSort _ _)
    (List.pairwise_insertionSort _ _)
  · exact (List.perm_insertionSort _ _).trans (hPerm.trans (List.perm_insertionSort _ _).symm)
  · intro a b hA hB hLe hGe
    rw [List.mem_insertionSort] at hA hB
    exact List.inj_on_of_nodup_map h hA (hPerm.mem_iff.mpr hB) (hLe.antisymm hGe)

theorem perm_toList_ofList (h : (fields.map Prod.fst).Nodup) :
    fields.Perm (ExtTreeMap.ofList fields : Object).toList := by
  have hKeys : ((ExtTreeMap.ofList fields : Object).toList.map Prod.fst).Nodup := by
    rw [ExtTreeMap.map_fst_toList_eq_keys]
    exact ExtTreeMap.nodup_keys
  rw [List.perm_ext_iff_of_nodup (List.Nodup.of_map _ h) (List.Nodup.of_map _ hKeys)]
  rintro ⟨name, value⟩
  rw [ExtTreeMap.mem_toList_iff_getElem?_eq_some, StringMap.getElem?_ofList_iff h]

/-- The entries of an object in any order are those of its map. -/
theorem sorted_object (h : (fields.map Prod.fst).Nodup) :
    (Value.object fields).sorted = (Value.ofObject (.ofList fields)).sorted := by
  rw [Value.ofObject, Value.sorted, Value.sorted, Value.sortedFields_eq, Value.sortedFields_eq]
  refine congrArg Value.object (insertionSort_eq_of_perm ?_ ((perm_toList_ofList h).map _))
  rwa [List.map_map]

theorem floatFree_ofObject {fields : Object} :
    (Value.ofObject fields).floatFree ↔
      ∀ (name : String) (value : Value), fields[name]? = some value → value.floatFree := by
  rw [Value.ofObject, Value.floatFree_object]
  constructor
  · intro h name value hValue
    exact h (name, value) (ExtTreeMap.mem_toList_iff_getElem?_eq_some.mpr hValue)
  · rintro h ⟨name, value⟩ hEntry
    exact h name value (ExtTreeMap.mem_toList_iff_getElem?_eq_some.mp hEntry)

def Value.field? (value : Value) (name : String) : Option Value :=
  value.asObject.bind fun fields => fields[name]?

def Value.at? : List String → Value → Option Value
  | [], value => some value
  | name :: path, value => (value.field? name).bind (at? path)

theorem distinctKeys_field? {value part : Value} {name : String}
    (h : value.distinctKeys) (hPart : value.field? name = some part) :
    part.distinctKeys := by
  cases value with
  | object fields =>
    rw [Value.distinctKeys_object] at h
    exact h.2 (name, part) ((StringMap.getElem?_ofList_iff h.1).mp hPart)
  | _ => cases hPart

theorem sorted_field? (hFirst : first.distinctKeys) (hSecond : second.distinctKeys)
    (h : first.sorted = second.sorted) (name : String) :
    (first.field? name).map Value.sorted = (second.field? name).map Value.sorted := by
  cases first with
  | object fields =>
    cases second with
    | object others =>
      rw [sorted_object (Value.distinctKeys_object.mp hFirst).1,
        sorted_object (Value.distinctKeys_object.mp hSecond).1, sorted_ofObject_inj] at h
      exact h name
    | _ => simp [Value.sorted] at h
  | _ =>
    cases second with
    | object others => simp [Value.sorted] at h
    | _ => rfl

theorem sorted_at? (path : List String) (hFirst : first.distinctKeys)
    (hSecond : second.distinctKeys) (h : first.sorted = second.sorted) :
    (first.at? path).map Value.sorted = (second.at? path).map Value.sorted := by
  induction path generalizing first second with
  | nil => exact congrArg some h
  | cons name path ih =>
    have hField := sorted_field? hFirst hSecond h name
    simp only [Value.at?]
    cases hPart : first.field? name with
    | none =>
      rw [hPart, Option.map_none, eq_comm, Option.map_eq_none_iff] at hField
      rw [hField]
    | some part =>
      rw [hPart, Option.map_some, eq_comm, Option.map_eq_some_iff] at hField
      obtain ⟨other, hOther, hSorted⟩ := hField
      rw [hOther]
      exact ih (distinctKeys_field? hFirst hPart) (distinctKeys_field? hSecond hOther)
        hSorted.symm

end Objects

end MxAgent.Protocol
