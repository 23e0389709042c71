import MxAgent.Protocol.CanonicalJson

/-! Reading JSON. `parse` is the grammar with all that a canonical text never uses: blanks
between tokens, every escape, fractions and exponents. It gives the entries of an object as
they are listed; `fromStr` then collects them into maps as `serde_json` does. Its limit on
nesting is no part of the grammar and is left out. -/
namespace MxAgent.Protocol

open Readable

section Tokens

def isSpace (c : Char) : Bool := c = ' ' || c = '\n' || c = '\t' || c = '\r'

def skipSpace (text : List Char) : List Char := text.dropWhile isSpace

def parseChars : Nat → List Char → Option (List Char × List Char)
  | 0, _ => none
  | fuel + 1, text =>
    if text.head? = some '"' then some ([], text.tail)
    else do
      let (c, text) ← parseChar text
      let (chars, text) ← parseChars fuel text
      some (c :: chars, text)

def parseString (text : List Char) : Option (String × List Char) := do
  let (chars, rest) ← parseChars text.length text
  some (String.ofList chars, rest)

def parseFraction (text : List Char) : Option (List Char × List Char) :=
  match text with
  | '.' :: rest =>
    if rest.takeWhile Char.isDigit = [] then none
    else some ('.' :: rest.takeWhile Char.isDigit, rest.dropWhile Char.isDigit)
  | _ => some ([], text)

def parseExponent (text : List Char) : Option (List Char × List Char) :=
  match text with
  | [] => some ([], [])
  | mark :: rest =>
    if mark = 'e' ∨ mark = 'E' then
      let sign := rest.take (if rest.head? = some '+' ∨ rest.head? = some '-' then 1 else 0)
      let rest := rest.drop sign.length
      if rest.takeWhile Char.isDigit = [] then none
      else some (mark :: sign ++ rest.takeWhile Char.isDigit, rest.dropWhile Char.isDigit)
    else some ([], text)

def machineInteger (negative : Bool) (value : Nat) : Option Number :=
  if negative then
    if h : 0 < value ∧ value ≤ 2 ^ 63 then some (.negInt (-value) (by omega)) else none
  else if value < 2 ^ 64 then some (.posInt value)
  else none

/-- A number. What is no integer of 64 bits is left to `readFloat`: a float's bits or an error. -/
def parseNumber (readFloat : List Char → Option UInt64) (text : List Char) :
    Option (Number × List Char) :=
  let sign := text.take (if text.head? = some '-' then 1 else 0)
  let digits := (text.drop sign.length).takeWhile Char.isDigit
  let rest := (text.drop sign.length).dropWhile Char.isDigit
  if digits = [] ∨ digits.head? = some '0' ∧ digits ≠ ['0'] then none
  else do
    let (fraction, rest) ← parseFraction rest
    let (exponent, rest) ← parseExponent rest
    let integer :=
      if fraction ++ exponent = [] then
        machineInteger (decide (sign ≠ [])) (Nat.ofDigitChars 10 digits 0)
      else none
    match integer with
    | some number => some (number, rest)
    | none => do
        let bits ← readFloat (sign ++ digits ++ fraction ++ exponent)
        some (.float bits, rest)

end Tokens

section Values

variable (readFloat : List Char → Option UInt64)

def parseKeyword (value : Value) (word text : List Char) : Option (Value × List Char) :=
  if word.isPrefixOf text then some (value, text.drop word.length) else none

mutual

def parseValue : Nat → List Char → Option (Value × List Char)
  | 0, _ => none
  | fuel + 1, text =>
    match skipSpace text with
    | [] => none
    | c :: rest =>
      if c = 'n' then parseKeyword .null ['u', 'l', 'l'] rest
      else if c = 't' then parseKeyword (.bool true) ['r', 'u', 'e'] rest
      else if c = 'f' then parseKeyword (.bool false) ['a', 'l', 's', 'e'] rest
      else if c = '"' then do
        let (s, rest) ← parseString rest
        some (.string s, rest)
      else if c = '[' then
        if (skipSpace rest).head? = some ']' then some (.array [], (skipSpace rest).tail)
        else do
          let (items, rest) ← parseItems fuel rest
          some (.array items, rest)
      else if c = '\x7b' then
        if (skipSpace rest).head? = some '\x7d' then some (.object [], (skipSpace rest).tail)
        else do
          let (fields, rest) ← parseFields fuel rest
          some (.object fields, rest)
      else do
        let (number, rest) ← parseNumber readFloat (c :: rest)
        some (.number number, rest)

def parseItems : Nat → List Char → Option (List Value × List Char)
  | 0, _ => none
  | fuel + 1, text => do
      let (item, text) ← parseValue fuel text
      match skipSpace text with
      | [] => none
      | c :: rest =>
        if c = ',' then do
          let (items, rest) ← parseItems fuel rest
          some (item :: items, rest)
        else if c = ']' then some ([item], rest)
        else none

def parseFields : Nat → List Char → Option (List (String × Value) × List Char)
  | 0, _ => none
  | fuel + 1, text =>
    if (skipSpace text).head? ≠ some '"' then none
    else do
      let (key, text) ← parseString (skipSpace text).tail
      if (skipSpace text).head? ≠ some ':' then none
      else do
        let (value, text) ← parseValue fuel (skipSpace text).tail
        match skipSpace text with
        | [] => none
        | c :: rest =>
          if c = ',' then do
            let (fields, rest) ← parseFields fuel rest
            some ((key, value) :: fields, rest)
          else if c = '\x7d' then some ([(key, value)], rest)
          else none

end

/-- The whole text as one value. Each value takes a character at least. -/
def parse (text : String) : Option Value := do
  let (value, rest) ← parseValue readFloat text.toList.length text.toList
  if skipSpace rest = [] then some value else none

end Values

namespace Value

mutual

/-- Every object as the map of its entries. The last entry of a key counts. -/
def collected : Value → Value
  | .null => .null
  | .bool value => .bool value
  | .number value => .number value
  | .string value => .string value
  | .array items => .array (collectedItems items)
  | .object fields => .ofObject (.ofList (collectedFields fields))

def collectedItems : List Value → List Value
  | [] => []
  | item :: rest => item.collected :: collectedItems rest

def collectedFields : List (String × Value) → List (String × Value)
  | [] => []
  | (key, value) :: rest => (key, value.collected) :: collectedFields rest

end

end Value

def fromStr (readFloat : List Char → Option UInt64) (text : String) : Option Value :=
  (parse readFloat text).map Value.collected

example : parse (fun _ => none) " [ 1 , -2, \"a\\u00e9\\ud83d\\ude00\" ,[] ] " =
    some (.array [.number (.posInt 1), .number (.negInt (-2) (by decide)), .string "aé😀",
      .array []]) := by
  decide +kernel

variable {rest : List Char} {items : List Value} {fields : List (String × Value)}

section Written

theorem skipSpace_cons {c : Char} (h : isSpace c = false) (rest : List Char) :
    skipSpace (c :: rest) = c :: rest := by
  rw [skipSpace, List.dropWhile_cons_of_neg (by simp [h])]

theorem parseChars_escaped (chars rest : List Char) {fuel : Nat} (h : chars.length < fuel) :
    parseChars fuel (chars.flatMap escapeChar ++ '"' :: rest) = some (chars, rest) := by
  induction chars generalizing fuel with
  | nil =>
    obtain ⟨fuel, rfl⟩ := Nat.exists_eq_add_of_lt h
    rfl
  | cons c chars ih =>
    obtain ⟨fuel, rfl⟩ : ∃ n, fuel = n + 1 := ⟨fuel - 1, by omega⟩
    have hOpen : ((c :: chars).flatMap escapeChar ++ '"' :: rest).head? ≠ some '"' := by
      intro hHead
      obtain ⟨tail, hTail⟩ := List.head?_eq_some_iff.mp hHead
      rw [List.flatMap_cons, List.append_assoc] at hTail
      exact escapeChar_not_quote c _ ⟨tail, hTail⟩
    rw [parseChars, if_neg hOpen, List.flatMap_cons, List.append_assoc, parseChar_escapeChar]
    simp only [Option.bind_eq_bind, Option.bind_some]
    rw [ih (by simpa using h)]
    rfl

theorem length_le_flatMap_escapeChar (chars : List Char) :
    chars.length ≤ (chars.flatMap escapeChar).length := by
  induction chars with
  | nil => exact Nat.le_refl 0
  | cons c chars ih =>
    have hPos : 0 < (escapeChar c).length := by
      rw [List.length_pos_iff]
      intro hNil
      have hRead := parseChar_escapeChar c []
      rw [hNil] at hRead
      cases hRead
    rw [List.flatMap_cons, List.length_append, List.length_cons]
    omega

theorem parseString_stringText (s : String) (rest : List Char) :
    parseString ((stringText s).tail ++ rest) = some (s, rest) := by
  have hTail : (stringText s).tail ++ rest = s.toList.flatMap escapeChar ++ '"' :: rest := by
    simp [stringText]
  have hLength := length_le_flatMap_escapeChar s.toList
  have hFuel : s.toList.length < (s.toList.flatMap escapeChar ++ '"' :: rest).length := by
    rw [List.length_append, List.length_cons]
    omega
  rw [parseString, hTail, parseChars_escaped _ _ hFuel]
  simp

theorem head_toDigits {n : Nat} (h : n ≠ 0) : (Nat.toDigits 10 n).head? ≠ some '0' := by
  induction n using Nat.strongRecOn with
  | ind n ih =>
    by_cases hSmall : n < 10
    · rw [Nat.toDigits_of_lt_base hSmall]
      interval_cases n
      · exact absurd rfl h
      all_goals decide
    · rw [Nat.toDigits_of_base_le (by decide) (by omega), List.head?_append_of_ne_nil _
        Nat.toDigits_ne_nil]
      exact ih (n / 10) (by omega) (by omega)

/-- Digits are written without a leading zero. -/
theorem toDigits_wellFormed (n : Nat) : ¬ (Nat.toDigits 10 n = [] ∨
    (Nat.toDigits 10 n).head? = some '0' ∧ Nat.toDigits 10 n ≠ ['0']) := by
  rintro (hNil | ⟨hZero, hNe⟩)
  · exact Nat.toDigits_ne_nil hNil
  · by_cases hN : n = 0
    · exact hNe (by rw [hN]; rfl)
    · exact head_toDigits hN hZero

theorem takeWhile_digits (n : Nat) (h : Ends rest) :
    (Nat.toDigits 10 n ++ rest).takeWhile Char.isDigit = Nat.toDigits 10 n := by
  rw [List.takeWhile_append_of_pos isDigit_of_mem_digits]
  cases rest with
  | nil => simp
  | cons c rest =>
    rw [List.takeWhile_cons_of_neg (h.not_digit c rfl), List.append_nil]

theorem dropWhile_digits (n : Nat) (h : Ends rest) :
    (Nat.toDigits 10 n ++ rest).dropWhile Char.isDigit = rest := by
  rw [List.dropWhile_append_of_pos isDigit_of_mem_digits]
  cases rest with
  | nil => rfl
  | cons c rest => exact List.dropWhile_cons_of_neg (h.not_digit c rfl)

/-- What ends a value starts neither a fraction nor an exponent. -/
theorem parseFraction_of_ends (h : Ends rest) : parseFraction rest = some ([], rest) := by
  cases rest with
  | nil => rfl
  | cons c rest => rcases h c rfl with rfl | rfl | rfl <;> rfl

theorem parseExponent_of_ends (h : Ends rest) : parseExponent rest = some ([], rest) := by
  cases rest with
  | nil => rfl
  | cons c rest => rcases h c rfl with rfl | rfl | rfl <;> rfl

/-- An integer literal that fits into 64 bits is read as that integer. -/
theorem parseNumber_digits (readFloat : List Char → Option UInt64) {sign : List Char} {n : Nat}
    {number : Number} (hSign : sign = [] ∨ sign = ['-']) (hRest : Ends rest)
    (hInteger : machineInteger (decide (sign ≠ [])) n = some number) :
    parseNumber readFloat (sign ++ (Nat.toDigits 10 n ++ rest)) = some (number, rest) := by
  have hTake : (sign ++ (Nat.toDigits 10 n ++ rest)).take
      (if (sign ++ (Nat.toDigits 10 n ++ rest)).head? = some '-' then 1 else 0) = sign := by
    rcases hSign with rfl | rfl
    · obtain ⟨c, digits, hDigits⟩ :=
        List.exists_cons_of_ne_nil (Nat.toDigits_ne_nil (b := 10) (n := n))
      have hDigit : c.isDigit := isDigit_of_mem_digits c (by rw [hDigits]; simp)
      have hNe : c ≠ '-' := by
        rintro rfl
        revert hDigit
        decide
      simp [hDigits, hNe]
    · rfl
  simp only [parseNumber, hTake, List.drop_left, takeWhile_digits n hRest, dropWhile_digits n hRest,
    if_neg (toDigits_wellFormed n), parseFraction_of_ends hRest, parseExponent_of_ends hRest,
    Nat.ofDigitChars_ten_toDigits, Option.bind_eq_bind, Option.bind_some, List.append_nil, if_true,
    hInteger]

/-- An integer of a `serde_json` number has 64 bits. -/
def Number.machine : Number → Bool
  | .posInt value => value < 2 ^ 64
  | .negInt value _ => -2 ^ 63 ≤ value
  | .float _ => true

def Value.machineNumber : Value → Bool
  | .number value => value.machine
  | _ => true

/-- All numbers in the value are ones that `serde_json` can hold. -/
def Value.machine (value : Value) : Bool := value.all machineNumber

theorem Value.machine_array : (array items).machine ↔ ∀ item ∈ items, item.machine := by
  simp [machine, all, machineNumber, allItems_iff]

theorem Value.machine_object : (object fields).machine ↔ ∀ field ∈ fields, field.2.machine := by
  simp [machine, all, machineNumber, allFields_iff]

variable {readFloat : List Char → Option UInt64}

theorem parseNumber_numberText {n : Number} (hMachine : n.machine)
    (hFloat : (Value.number n).floatFree) (hRest : Ends rest) :
    parseNumber readFloat (numberText n ++ rest) = some (n, rest) := by
  cases n with
  | posInt value =>
    exact parseNumber_digits readFloat (.inl rfl) hRest (if_pos (decide_eq_true_iff.mp hMachine))
  | negInt value negative =>
    have hLow : -2 ^ 63 ≤ value := decide_eq_true_iff.mp hMachine
    have hRange : 0 < value.natAbs ∧ value.natAbs ≤ 2 ^ 63 := by omega
    have hInteger : machineInteger true value.natAbs = some (.negInt value negative) := by
      rw [machineInteger, if_pos rfl, dif_pos hRange]
      congr 2
      omega
    exact parseNumber_digits readFloat (.inr rfl) hRest hInteger
  | float bits => cases hFloat

theorem leadOf_space {c : Char} (h : isSpace c) : leadOf c = .none := by
  simp only [isSpace, Bool.or_eq_true, decide_eq_true_eq] at h
  rcases h with ((rfl | rfl) | rfl) | rfl <;> decide

theorem skipSpace_text (value : Value) (rest : List Char) :
    skipSpace (value.text ++ rest) = value.text ++ rest := by
  obtain ⟨c, body, hText, hLead⟩ := text_lead value
  rw [hText, List.cons_append, skipSpace_cons]
  by_contra hSpace
  rw [leadOf_space (by simpa using hSpace)] at hLead
  exact lead_ne_none value hLead.symm

/-- A value is taken off the front of every text that starts with its own. -/
def Read (readFloat : List Char → Option UInt64) (value : Value) : Prop :=
  ∀ fuel rest, value.text.length ≤ fuel → Ends rest →
    parseValue readFloat fuel (value.text ++ rest) = some (value, rest)

theorem text_pos (value : Value) : 0 < value.text.length := by
  obtain ⟨c, body, hText, -⟩ := text_lead value
  simp [hText]

theorem parseItems_texts {item : Value} (hItem : Read readFloat item)
    (hItems : ∀ item ∈ items, Read readFloat item) {fuel : Nat}
    (hFuel : (item.text ++ afterEach ',' Value.text items).length < fuel) (rest : List Char) :
    parseItems readFloat fuel (item.text ++ (afterEach ',' Value.text items ++ ']' :: rest)) =
      some (item :: items, rest) := by
  induction items generalizing item fuel with
  | nil =>
    obtain ⟨fuel, rfl⟩ : ∃ n, fuel = n + 1 := ⟨fuel - 1, by omega⟩
    rw [parseItems,
      hItem fuel _ (by simp [afterEach] at hFuel; omega) (by simp [afterEach, Ends])]
    rfl
  | cons next items ih =>
    obtain ⟨fuel, rfl⟩ : ∃ n, fuel = n + 1 := ⟨fuel - 1, by omega⟩
    have hPos := text_pos item
    have hEach : afterEach ',' Value.text (next :: items) =
        ',' :: (next.text ++ afterEach ',' Value.text items) := rfl
    rw [hEach, List.length_append, List.length_cons] at hFuel
    rw [List.forall_mem_cons] at hItems
    rw [parseItems, hItem fuel _ (by omega) (by simp [hEach, Ends]), hEach, List.cons_append,
      List.append_assoc]
    simp only [Option.bind_eq_bind, Option.bind_some,
      skipSpace_cons (show isSpace ',' = false from rfl), if_true]
    rw [ih hItems.1 hItems.2 (by omega)]
    rfl

theorem parseFields_fieldText (field : String × Value) (fuel : Nat) (rest : List Char) :
    parseFields readFloat (fuel + 1) (fieldText field ++ rest) = (do
      let (value, text) ← parseValue readFloat fuel (field.2.text ++ rest)
      match skipSpace text with
      | [] => none
      | c :: rest =>
        if c = ',' then do
          let (fields, rest) ← parseFields readFloat fuel rest
          some ((field.1, value) :: fields, rest)
        else if c = '\x7d' then some ([(field.1, value)], rest)
        else none) := by
  have hText : fieldText field ++ rest =
      '"' :: ((stringText field.1).tail ++ (':' :: (field.2.text ++ rest))) := by
    simp [fieldText, stringText]
  rw [hText, parseFields, skipSpace_cons rfl, if_neg (by simp), List.tail_cons,
    parseString_stringText]
  simp only [Option.bind_eq_bind, Option.bind_some]
  rw [skipSpace_cons rfl, if_neg (by simp), List.tail_cons]

theorem parseFields_texts {field : String × Value} (hField : Read readFloat field.2)
    (hFields : ∀ field ∈ fields, Read readFloat field.2) {fuel : Nat}
    (hFuel : (fieldText field ++ afterEach ',' fieldText fields).length < fuel) (rest : List Char) :
    parseFields readFloat fuel
        (fieldText field ++ (afterEach ',' fieldText fields ++ '\x7d' :: rest)) =
      some (field :: fields, rest) := by
  induction fields generalizing field fuel with
  | nil =>
    obtain ⟨fuel, rfl⟩ : ∃ n, fuel = n + 1 := ⟨fuel - 1, by omega⟩
    have hLength : field.2.text.length ≤ fuel := by
      simp only [fieldText, List.length_append, List.length_cons] at hFuel
      omega
    rw [parseFields_fieldText]
    rw [hField fuel _ hLength (by simp [afterEach, Ends])]
    rfl
  | cons next fields ih =>
    obtain ⟨fuel, rfl⟩ : ∃ n, fuel = n + 1 := ⟨fuel - 1, by omega⟩
    have hEach : afterEach ',' fieldText (next :: fields) =
        ',' :: (fieldText next ++ afterEach ',' fieldText fields) := rfl
    rw [hEach, List.length_append, List.length_cons] at hFuel
    have hLength : field.2.text.length ≤ fuel := by
      simp only [fieldText, List.length_append, List.length_cons] at hFuel
      omega
    have hPos : 0 < (fieldText field).length := by simp [fieldText, stringText]
    rw [List.forall_mem_cons] at hFields
    rw [parseFields_fieldText, hField fuel _ hLength (by simp [hEach, Ends]), hEach,
      List.cons_append, List.append_assoc]
    simp only [Option.bind_eq_bind, Option.bind_some,
      skipSpace_cons (show isSpace ',' = false from rfl), if_true]
    rw [ih hFields.1 hFields.2 (by omega)]
    rfl

theorem read_of_succ {value : Value} (h : ∀ fuel rest, value.text.length ≤ fuel + 1 → Ends rest →
    parseValue readFloat (fuel + 1) (value.text ++ rest) = some (value, rest)) :
    Read readFloat value := by
  intro fuel rest hFuel hRest
  cases fuel with
  | zero => exact absurd hFuel (Nat.not_le.mpr (text_pos value))
  | succ fuel => exact h fuel rest hFuel hRest

theorem parseValue_number {c : Char} (h : leadOf c = .digit ∨ leadOf c = .negative) (fuel : Nat)
    (body : List Char) :
    parseValue readFloat (fuel + 1) (c :: body) = (do
      let (number, rest) ← parseNumber readFloat (c :: body)
      some (.number number, rest)) := by
  have hSpace : isSpace c = false := by
    by_contra hSpace
    rw [leadOf_space (by simpa using hSpace)] at h
    rcases h with h | h <;> cases h
  have hNe (d : Char) (hDigit : leadOf d ≠ .digit) (hNegative : leadOf d ≠ .negative) : c ≠ d := by
    rintro rfl
    exact h.elim hDigit hNegative
  rw [parseValue, skipSpace_cons hSpace]
  simp only [if_neg (hNe 'n' (by decide) (by decide)), if_neg (hNe 't' (by decide) (by decide)),
    if_neg (hNe 'f' (by decide) (by decide)), if_neg (hNe '"' (by decide) (by decide)),
    if_neg (hNe '[' (by decide) (by decide)), if_neg (hNe '\x7b' (by decide) (by decide))]

theorem read_number {n : Number} (hMachine : n.machine)
    (hFloat : (Value.number n).floatFree) : Read readFloat (.number n) := by
  apply read_of_succ
  intro fuel rest _ hRest
  obtain ⟨c, body, hText, hLead⟩ := text_lead (.number n)
  have hStart : leadOf c = .digit ∨ leadOf c = .negative := by
    rw [hLead]
    cases n with
    | posInt value => exact .inl rfl
    | negInt value negative => exact .inr rfl
    | float bits => cases hFloat
  have hNumber : parseNumber readFloat (numberText n ++ rest) = some (n, rest) :=
    parseNumber_numberText hMachine hFloat hRest
  rw [← Value.text, hText, List.cons_append] at hNumber
  rw [hText, List.cons_append, parseValue_number hStart, hNumber]
  rfl

theorem read_array (hItems : ∀ item ∈ items, Read readFloat item) :
    Read readFloat (.array items) := by
  apply read_of_succ
  intro fuel rest hFuel _
  cases items with
  | nil => rfl
  | cons item items =>
    rw [List.forall_mem_cons] at hItems
    have hText : (Value.array (item :: items)).text ++ rest =
        '[' :: (item.text ++ (afterEach ',' Value.text items ++ ']' :: rest)) := by
      rw [Value.text, itemTexts_eq, intercalate_cons]
      simp
    have hOpen : (item.text ++ (afterEach ',' Value.text items ++ ']' :: rest)).head? ≠
        some ']' := by
      intro hHead
      obtain ⟨tail, hTail⟩ := List.head?_eq_some_iff.mp hHead
      exact text_not_close item _ ⟨tail, hTail⟩
    rw [Value.text, itemTexts_eq, intercalate_cons, List.length_cons, List.length_append,
      List.length_singleton] at hFuel
    rw [hText, parseValue, skipSpace_cons rfl]
    simp only [Char.reduceEq, if_false, if_true, skipSpace_text, if_neg hOpen]
    rw [parseItems_texts hItems.1 hItems.2 (by omega)]
    rfl

theorem read_object
    (hFields : ∀ field ∈ fields, Read readFloat field.2) : Read readFloat (.object fields) := by
  apply read_of_succ
  intro fuel rest hFuel _
  cases fields with
  | nil => rfl
  | cons field fields =>
    rw [List.forall_mem_cons] at hFields
    have hText : (Value.object (field :: fields)).text ++ rest =
        '\x7b' :: (fieldText field ++ (afterEach ',' fieldText fields ++ '\x7d' :: rest)) := by
      rw [Value.text, fieldTexts_eq, intercalate_cons]
      simp
    have hSkip (tail : List Char) :
        skipSpace (fieldText field ++ tail) = fieldText field ++ tail := skipSpace_cons rfl _
    have hOpen : (fieldText field ++ (afterEach ',' fieldText fields ++ '\x7d' :: rest)).head? ≠
        some '\x7d' := by
      intro hHead
      obtain ⟨tail, hTail⟩ := List.head?_eq_some_iff.mp hHead
      exact fieldText_not_close field _ ⟨tail, hTail⟩
    rw [Value.text, fieldTexts_eq, intercalate_cons, List.length_cons, List.length_append,
      List.length_singleton] at hFuel
    rw [hText, parseValue, skipSpace_cons rfl]
    simp only [Char.reduceEq, if_false, if_true, hSkip, if_neg hOpen]
    rw [parseFields_texts hFields.1 hFields.2 (by omega)]
    rfl

/-- The text of a value without floats parses to the value. -/
theorem read_text {value : Value} (hMachine : value.machine)
    (hFloat : value.floatFree) : Read readFloat value := by
  induction value using Value.nested with
  | null => exact read_of_succ fun _ _ _ _ => rfl
  | bool value => cases value <;> exact read_of_succ fun _ _ _ _ => rfl
  | number n => exact read_number hMachine hFloat
  | string s =>
    apply read_of_succ
    intro fuel rest _ _
    have hText : (Value.string s).text ++ rest = '"' :: ((stringText s).tail ++ rest) := by
      simp [Value.text, stringText]
    rw [hText, parseValue, skipSpace_cons rfl]
    simp only [Char.reduceEq, if_false, if_true, parseString_stringText]
    rfl
  | array items ih =>
    rw [Value.machine_array] at hMachine
    rw [Value.floatFree_array] at hFloat
    exact read_array fun item hItem => ih item hItem (hMachine item hItem) (hFloat item hItem)
  | object fields ih =>
    rw [Value.machine_object] at hMachine
    rw [Value.floatFree_object] at hFloat
    exact read_object fun field hField =>
      ih field hField (hMachine field hField) (hFloat field hField)

theorem parse_text {value : Value} (hMachine : value.machine)
    (hFloat : value.floatFree) :
    parse readFloat (String.ofList value.text) = some value := by
  have hRead : parseValue readFloat value.text.length (value.text ++ []) = some (value, []) :=
    read_text hMachine hFloat value.text.length [] le_rfl (by simp [Ends])
  rw [List.append_nil] at hRead
  rw [parse, String.toList_ofList, hRead]
  rfl

end Written

end MxAgent.Protocol
