import MxAgent.Adw.Js
import MxAgent.Foundations.GlobalReplace

/-! The substitution of arguments in prompt templates, by the TypeScript driver and by the Python
pipeline it was ported from. Both make four passes over the text: `$ARGUMENTS`, `$@`, the slices
and the single arguments. -/
namespace MxAgent.Adw

open GlobalReplace

def joinArgs (args : List String) : List Char := [' '].intercalate (args.map String.toList)

theorem joinArgs_cons_cons (first second : String) (rest : List String) :
    joinArgs (first :: second :: rest) = first.toList ++ ' ' :: joinArgs (second :: rest) := by
  simp [joinArgs, List.intercalate]

theorem mem_joinArgs {args : List String} {c : Char} (h : c ∈ joinArgs args) :
    c = ' ' ∨ ∃ arg ∈ args, c ∈ arg.toList := by
  induction args with
  | nil => simp [joinArgs] at h
  | cons first rest ih =>
    cases rest with
    | nil => exact .inr ⟨first, List.mem_singleton_self first, by simpa [joinArgs] using h⟩
    | cons second rest =>
      rw [joinArgs_cons_cons, List.mem_append, List.mem_cons] at h
      rcases h with hFirst | hSpace | hRest
      · exact .inr ⟨first, List.mem_cons_self, hFirst⟩
      · exact .inl hSpace
      · exact (ih hRest).imp_right fun ⟨arg, hArg, hMem⟩ =>
          ⟨arg, List.mem_cons_of_mem first hArg, hMem⟩

/-! ## Patterns -/

def literalAt (pattern : List Char) : Finder Char Unit := fun text =>
  if pattern.isPrefixOf text then some ((), pattern.length) else none

def argumentsPattern : List Char := "$ARGUMENTS".toList

def atPattern : List Char := "$@".toList

/-- A nonempty run of digits, as `\d+` takes it, and what follows it. -/
def digitRun (isDecimal : Char → Bool) (text : List Char) : Option (List Char × List Char) :=
  let digits := text.takeWhile isDecimal
  if digits.isEmpty then none else some (digits, text.dropWhile isDecimal)

/-- A slice: `$`, `{@:`, digits, then maybe a colon and digits, then `}`. -/
def sliceAt (isDecimal : Char → Bool) : Finder Char (List Char × Option (List Char))
  | '$' :: '\x7b' :: '@' :: ':' :: text => do
    let (start, after) ← digitRun isDecimal text
    match after with
    | '\x7d' :: _ => some ((start, none), start.length + 5)
    | ':' :: after => do
      let (length, after) ← digitRun isDecimal after
      match after with
      | '\x7d' :: _ => some ((start, some length), start.length + length.length + 6)
      | _ => none
    | _ => none
  | _ => none

def positionalAt (isDecimal : Char → Bool) : Finder Char (List Char)
  | '$' :: text => (digitRun isDecimal text).map fun (number, _) => (number, number.length + 1)
  | _ => none

def sliceMark (start : List Char) (length : Option (List Char)) : List Char :=
  '$' :: '\x7b' :: '@' :: ':' ::
    (start ++ ((length.elim [] fun digits => ':' :: digits) ++ ['\x7d']))

section Patterns

variable {isDecimal : Char → Bool}

/-- A run of digits that cannot be longer. -/
theorem digitRun_eq_some_iff {text digits after : List Char} :
    digitRun isDecimal text = some (digits, after) ↔
      text = digits ++ after ∧ digits ≠ [] ∧ digits.all isDecimal ∧
        ∀ c ∈ after.head?, isDecimal c = false := by
  unfold digitRun
  constructor
  · intro h
    dsimp only at h
    split at h
    · cases h
    · rename_i hNonempty
      cases h
      refine ⟨List.takeWhile_append_dropWhile.symm, by simpa using hNonempty,
        List.all_takeWhile, ?_⟩
      intro c hHead
      have hStop := List.head?_dropWhile_not isDecimal text
      rwa [hHead] at hStop
  · rintro ⟨rfl, hNonempty, hDigits, hAfter⟩
    have hDigit := List.all_eq_true.mp hDigits
    have hStop : after.takeWhile isDecimal = [] ∧ after.dropWhile isDecimal = after := by
      cases after with
      | nil => exact ⟨rfl, rfl⟩
      | cons c after => simp [hAfter c rfl]
    simp [List.takeWhile_append_of_pos hDigit, List.dropWhile_append_of_pos hDigit, hStop,
      hNonempty]

theorem positionalAt_eq_some_iff {text number : List Char} {covered : Nat} :
    positionalAt isDecimal text = some (number, covered) ↔
      ∃ after, text = '$' :: (number ++ after) ∧ number ≠ [] ∧ number.all isDecimal ∧
        (∀ c ∈ after.head?, isDecimal c = false) ∧ covered = number.length + 1 := by
  unfold positionalAt
  constructor
  · intro h
    split at h
    · rename_i text
      obtain ⟨⟨digits, after⟩, hRun, hPair⟩ := Option.map_eq_some_iff.mp h
      cases hPair
      obtain ⟨rfl, hNonempty, hDigits, hAfter⟩ := digitRun_eq_some_iff.mp hRun
      exact ⟨after, rfl, hNonempty, hDigits, hAfter, rfl⟩
    · cases h
  · rintro ⟨after, rfl, hNonempty, hDigits, hAfter, rfl⟩
    have hRun := digitRun_eq_some_iff.mpr ⟨rfl, hNonempty, hDigits, hAfter⟩
    simp only [hRun, Option.map_some]

theorem sliceAt_eq_some_iff (hColon : isDecimal ':' = false) (hBrace : isDecimal '\x7d' = false)
    {text start : List Char} {length : Option (List Char)} {covered : Nat} :
    sliceAt isDecimal text = some ((start, length), covered) ↔
      ∃ after, text = sliceMark start length ++ after ∧
        (start ≠ [] ∧ start.all isDecimal) ∧
        (∀ digits ∈ length, digits ≠ [] ∧ digits.all isDecimal) ∧
        covered = (sliceMark start length).length := by
  constructor
  · intro h
    unfold sliceAt at h
    split at h
    · rename_i text
      obtain ⟨⟨digits, after⟩, hRun, hRest⟩ := Option.bind_eq_some_iff.mp h
      obtain ⟨rfl, hNonempty, hDigits, -⟩ := digitRun_eq_some_iff.mp hRun
      dsimp only at hRest
      split at hRest
      · rename_i after
        cases hRest
        exact ⟨after, by simp [sliceMark], ⟨hNonempty, hDigits⟩, by simp, by simp [sliceMark]⟩
      · rename_i text
        obtain ⟨⟨digits', after'⟩, hRun', hEnd⟩ := Option.bind_eq_some_iff.mp hRest
        obtain ⟨rfl, hNonempty', hDigits', -⟩ := digitRun_eq_some_iff.mp hRun'
        dsimp only at hEnd
        split at hEnd
        · rename_i after'
          cases hEnd
          refine ⟨after', by simp [sliceMark], ⟨hNonempty, hDigits⟩, ?_, ?_⟩
          · rintro _ ⟨rfl⟩
            exact ⟨hNonempty', hDigits'⟩
          · simp [sliceMark]
            omega
        · cases hEnd
      · cases hRest
    · cases h
  · rintro ⟨after, rfl, ⟨hNonempty, hDigits⟩, hLength, rfl⟩
    cases length with
    | none =>
      have hRun : digitRun isDecimal (start ++ '\x7d' :: after) = some (start, '\x7d' :: after) :=
        digitRun_eq_some_iff.mpr ⟨rfl, hNonempty, hDigits, by simpa using hBrace⟩
      simp [sliceMark, sliceAt, hRun]
    | some digits =>
      obtain ⟨hNonempty', hDigits'⟩ := hLength digits rfl
      have hRun : digitRun isDecimal (start ++ ':' :: (digits ++ '\x7d' :: after)) =
          some (start, ':' :: (digits ++ '\x7d' :: after)) :=
        digitRun_eq_some_iff.mpr ⟨rfl, hNonempty, hDigits, by simpa using hColon⟩
      have hRun' : digitRun isDecimal (digits ++ '\x7d' :: after) =
          some (digits, '\x7d' :: after) :=
        digitRun_eq_some_iff.mpr ⟨rfl, hNonempty', hDigits', by simpa using hBrace⟩
      simp [sliceMark, sliceAt, hRun, hRun']
      omega

end Patterns

/-! ## TypeScript -/

/-- What a replacement text of `replaceAll` says at a `$` before `c`. -/
def replacementPattern (matched before after : List Char) (c : Char) : Option (List Char) :=
  if c = '$' then some ['$']
  else if c = '&' then some matched
  else if c.toNat = 96 then some before
  else if c.toNat = 39 then some after
  else none

/-- `GetSubstitution`, for a search text without groups. -/
def getSubstitution (matched before after : List Char) : List Char → List Char
  | [] => []
  | [c] => [c]
  | c :: d :: rest =>
    match if c = '$' then replacementPattern matched before after d else none with
    | some inserted => inserted ++ getSubstitution matched before after rest
    | none => c :: getSubstitution matched before after (d :: rest)

/-- Some `$` is the start of a replacement pattern. -/
def hasReplacementPattern : List Char → Bool
  | c :: d :: rest =>
    (c == '$' && (replacementPattern [] [] [] d).isSome) || hasReplacementPattern (d :: rest)
  | _ => false

theorem isSome_replacementPattern (matched before after : List Char) (c : Char) :
    (replacementPattern matched before after c).isSome =
      (replacementPattern [] [] [] c).isSome := by
  unfold replacementPattern
  split_ifs <;> rfl

/-- Without a pattern the replacement is inserted as it is. -/
theorem getSubstitution_eq_self {matched before after : List Char} : ∀ {replacement : List Char},
    hasReplacementPattern replacement = false →
      getSubstitution matched before after replacement = replacement
  | [], _ => rfl
  | [_], _ => rfl
  | c :: d :: rest, h => by
    obtain ⟨hHere, hRest⟩ := Bool.or_eq_false_iff.mp h
    have hNone : (if c = '$' then replacementPattern matched before after d else none) = none := by
      by_cases hDollar : c = '$'
      · rw [if_pos hDollar, ← Option.isNone_iff_eq_none, ← Option.not_isSome,
          isSome_replacementPattern]
        simpa [hDollar] using hHere
      · rw [if_neg hDollar]
    rw [getSubstitution, hNone]
    exact congrArg (c :: ·) (getSubstitution_eq_self hRest)

/-- `text.replaceAll(pattern, replacement)` with texts. -/
def replaceAllText (pattern replacement : List Char) (text : List Char) :
    Except String (List Char) :=
  replaceAll (literalAt pattern)
    (fun _ before after => .ok (getSubstitution pattern before after replacement)) text

/-- `sliceArgs`. Slices count from 1. -/
def sliceArgs (args : List String) (start : List Char) (length : Option (List Char)) :
    Except String (List Char) :=
  if digitsValue start = 0 then .error "argument slices are 1-indexed"
  else
    let selected := args.drop (digitsValue start - 1)
    match length with
    | none => .ok (joinArgs selected)
    | some digits => .ok (joinArgs (selected.take (digitsValue digits)))

/-- The text of a single argument; empty where there is none. -/
def positionalArg (args : List String) (number : Nat) : List Char :=
  if number = 0 then [] else ((args[number - 1]?).map String.toList).getD []

def substitute (args : List String) (text : List Char) : Except String (List Char) := do
  let text ← replaceAllText argumentsPattern (joinArgs args) text
  let text ← replaceAllText atPattern (joinArgs args) text
  let text ← replaceAll (sliceAt Char.isDigit)
    (fun (start, length) _ _ => sliceArgs args start length) text
  replaceAll (positionalAt Char.isDigit)
    (fun number _ _ => .ok (positionalArg args (digitsValue number))) text

def substituteArgs (text : String) (args : List String) : Except String String :=
  (substitute args text.toList).map String.ofList

/-! ## Python -/

/-- What an interpreter brings: its decimal characters with their values, and how many digits `int`
converts, where 0 is no limit. -/
structure Python where
  isDecimal : Char → Bool
  decimalValue : Char → Nat
  maxStrDigits : Nat
  isDecimal_ascii : ∀ c, c.toNat < 128 → isDecimal c = c.isDigit
  decimalValue_digit : ∀ c, c.isDigit → decimalValue c = c.toNat - '0'.toNat

inductive PythonError where
  | adwError (message : String)
  | valueError
  deriving DecidableEq, Repr

namespace Python

variable (python : Python)

def int (digits : List Char) : Except PythonError Nat :=
  if python.maxStrDigits ≠ 0 ∧ python.maxStrDigits < digits.length then .error .valueError
  else .ok (digits.foldl (fun value digit => 10 * value + python.decimalValue digit) 0)

/-- `text.replace(pattern, replacement)`. -/
def replaceText (pattern replacement : List Char) (text : List Char) :
    Except PythonError (List Char) :=
  replaceAll (literalAt pattern) (fun _ _ _ => .ok replacement) text

def sliceArgs (args : List String) (start : List Char) (length : Option (List Char)) :
    Except PythonError (List Char) := do
  let first ← python.int start
  if first = 0 then .error (.adwError "argument slices are 1-indexed")
  else
    let selected := args.drop (first - 1)
    match length with
    | none => .ok (joinArgs selected)
    | some digits => do
      let count ← python.int digits
      .ok (joinArgs (selected.take count))

def substitute (args : List String) (text : List Char) : Except PythonError (List Char) := do
  let text ← replaceText argumentsPattern (joinArgs args) text
  let text ← replaceText atPattern (joinArgs args) text
  let text ← replaceAll (sliceAt python.isDecimal)
    (fun (start, length) _ _ => python.sliceArgs args start length) text
  replaceAll (positionalAt python.isDecimal)
    (fun number _ _ => do
      let index ← python.int number
      .ok (positionalArg args index)) text

def substituteArgs (text : String) (args : List String) : Except PythonError String :=
  (python.substitute args text.toList).map String.ofList

end Python

end MxAgent.Adw
