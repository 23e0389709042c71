import MxAgent.Adw.Templates

/-! The two template engines side by side. Their passes differ in three respects: `replaceAll`
reads replacement patterns in the arguments where `str.replace` does not, `\d` covers more than
the ASCII digits in Python, and Python's `int` gives up on long numbers. -/
namespace MxAgent.System.PromptEngines

open Adw GlobalReplace

/-- The template with the joined arguments in the place of `$ARGUMENTS` and `$@`. -/
def expand (args : List String) (text : List Char) : Except PythonError (List Char) := do
  let text ← Python.replaceText argumentsPattern (joinArgs args) text
  Python.replaceText atPattern (joinArgs args) text

/-- Python's pass over the slices. -/
def slicePass (python : Python) (args : List String) (text : List Char) :
    Except PythonError (List Char) :=
  replaceAll (sliceAt python.isDecimal)
    (fun (start, length) _ _ => python.sliceArgs args start length) text

/-- `int` reads the digits as `parseInt`: ASCII, and not too many. -/
def Reads (python : Python) (digits : List Char) : Prop :=
  digits.all Char.isDigit ∧
    (python.maxStrDigits = 0 ∨ digits.length ≤ python.maxStrDigits)

instance (python : Python) (digits : List Char) : Decidable (Reads python digits) :=
  inferInstanceAs (Decidable (_ ∧ _))

/-- After the expansion there is a slice from 0, at which both engines raise, or Python reads every
number it finds as TypeScript does, in the slices and then in the single arguments. -/
def NumbersAlike (python : Python) (args : List String) (text : List Char) : Prop :=
  ∃ expanded, expand args text = .ok expanded ∧
    ((∃ slice ∈ found (sliceAt Char.isDigit) expanded, digitsValue slice.1 = 0) ∨
      (∀ slice ∈ found (sliceAt python.isDecimal) expanded,
        Reads python slice.1 ∧ ∀ digits ∈ slice.2, Reads python digits) ∧
      ∀ sliced, slicePass python args expanded = .ok sliced →
        ∀ number ∈ found (positionalAt python.isDecimal) sliced, Reads python number)

/-! ## Replacement texts -/

variable {pattern text replacement out digits start inserted : List Char}
  {length : Option (List Char)} {python : Python} {isDecimal : Char → Bool} {args : List String}

theorem literalAt_eq_none (h : ¬ pattern <:+: text) {suffix : List Char}
    (hSuffix : suffix <:+ text) : literalAt pattern suffix = none := by
  rw [literalAt, if_neg]
  intro hPrefix
  exact h ((List.isPrefixOf_iff_prefix.mp hPrefix).isInfix.trans hSuffix.isInfix)

theorem exists_replaceText (pattern replacement text : List Char) :
    ∃ out, Python.replaceText pattern replacement text = .ok out := by
  rw [Python.replaceText, replaceAll, replaceFrom_eq_fill, exists_fill_eq_ok_iff]
  exact fun _ _ _ => ⟨replacement, rfl⟩

theorem replaceText_of_nowhere (hNowhere : ¬ pattern <:+: text)
    (h : Python.replaceText pattern replacement text = .ok out) : out = text := by
  rw [Python.replaceText, replaceAll,
    replaceFrom_of_no_match fun _ hSuffix => literalAt_eq_none hNowhere hSuffix] at h
  exact (Except.ok.inj h).symm

/-- `replaceAll` inserts the text as it is, without a pattern. -/
theorem replaceAllText_of_replaceText
    (hPlain : ¬ pattern <:+: text ∨ hasReplacementPattern replacement = false)
    (h : Python.replaceText pattern replacement text = .ok out) :
    replaceAllText pattern replacement text = .ok out := by
  rcases hPlain with hNowhere | hPlain
  · rw [replaceText_of_nowhere hNowhere h, replaceAllText, replaceAll,
      replaceFrom_of_no_match fun _ hSuffix => literalAt_eq_none hNowhere hSuffix]
  · simp only [replaceAllText, getSubstitution_eq_self hPlain]
    rw [Python.replaceText, replaceAll, replaceFrom_eq_fill, ← Fallible.toOption_eq_some] at h
    rw [replaceAll, replaceFrom_eq_fill, ← Fallible.toOption_eq_some, ← h]
    exact toOption_fill_congr fun _ _ _ => rfl

/-! ## Digits -/

section Digits

/-- On ASCII the decimal characters are the usual digits. -/
def AsciiDecimal (isDecimal : Char → Bool) : Prop :=
  ∀ c, c.toNat < 128 → isDecimal c = c.isDigit

theorem asciiDecimal_isDigit : AsciiDecimal Char.isDigit := fun _ _ => rfl

theorem ascii_of_isDigit {c : Char} (h : c.isDigit) : c.toNat < 128 := by
  simp only [Char.isDigit, Bool.and_eq_true, decide_eq_true_iff, UInt32.le_iff_toNat_le] at h
  have hHigh : c.toNat ≤ 57 := h.2
  omega

theorem isDecimal_of_isDigit (python : Python) {c : Char} (h : c.isDigit) : python.isDecimal c := by
  rw [python.isDecimal_ascii c (ascii_of_isDigit h), h]

theorem Reads.int_eq (h : Reads python digits) : python.int digits = .ok (digitsValue digits) := by
  obtain ⟨hDigits, hFits⟩ := h
  have hValue (start : Nat) :
      digits.foldl (fun value digit => 10 * value + python.decimalValue digit) start =
        digits.foldl (fun value digit => 10 * value + (digit.toNat - '0'.toNat)) start := by
    refine List.foldl_ext _ _ _ fun value digit hMem => ?_
    rw [python.decimalValue_digit digit (List.all_eq_true.mp hDigits digit hMem)]
  rw [Python.int, if_neg (by omega), hValue]
  rfl

theorem reads_of_int {value : Nat} (hDigits : digits.all Char.isDigit)
    (hInt : python.int digits = .ok value) : Reads python digits := by
  unfold Python.int at hInt
  split at hInt
  · cases hInt
  · exact ⟨hDigits, by omega⟩

theorem sliceAt_iff (hDecimal : AsciiDecimal isDecimal) {covered : Nat} :
    sliceAt isDecimal text = some ((start, length), covered) ↔
      ∃ after, text = sliceMark start length ++ after ∧
        (start ≠ [] ∧ start.all isDecimal) ∧
        (∀ digits ∈ length, digits ≠ [] ∧ digits.all isDecimal) ∧
        covered = (sliceMark start length).length :=
  sliceAt_eq_some_iff (hDecimal ':' (by decide)) (hDecimal '\x7d' (by decide))

theorem all_isDecimal (python : Python) (h : digits.all Char.isDigit) :
    digits.all python.isDecimal :=
  List.all_eq_true.mpr fun c hMem => isDecimal_of_isDigit python (List.all_eq_true.mp h c hMem)

/-- Python finds every slice that TypeScript finds. -/
theorem sliceAt_decimal_of_digit {slice : (List Char × Option (List Char)) × Nat}
    (h : sliceAt Char.isDigit text = some slice) : sliceAt python.isDecimal text = some slice := by
  obtain ⟨⟨start, length⟩, covered⟩ := slice
  obtain ⟨after, hText, hStart, hLength, hCovered⟩ := (sliceAt_iff asciiDecimal_isDigit).mp h
  exact (sliceAt_iff python.isDecimal_ascii).mpr
    ⟨after, hText, hStart.imp_right (all_isDecimal python),
      fun digits hDigits => (hLength digits hDigits).imp_right (all_isDecimal python), hCovered⟩

theorem sliceAt_digit_of_reads {covered : Nat}
    (h : sliceAt python.isDecimal text = some ((start, length), covered))
    (hReads : Reads python start ∧ ∀ digits ∈ length, Reads python digits) :
    sliceAt Char.isDigit text = some ((start, length), covered) := by
  obtain ⟨after, hText, ⟨hNonempty, -⟩, hLength, hCovered⟩ :=
    (sliceAt_iff python.isDecimal_ascii).mp h
  exact (sliceAt_iff asciiDecimal_isDigit).mpr ⟨after, hText, ⟨hNonempty, hReads.1.1⟩,
    fun digits hDigits => ⟨(hLength digits hDigits).1, (hReads.2 digits hDigits).1⟩, hCovered⟩

/-- Where TypeScript finds a number, Python finds it or a longer one. -/
theorem positionalAt_digit_of_none (h : positionalAt python.isDecimal text = none) :
    positionalAt Char.isDigit text = none := by
  cases hFound : positionalAt Char.isDigit text with
  | none => rfl
  | some hit =>
    obtain ⟨number, covered⟩ := hit
    obtain ⟨after, rfl, hNonempty, hDigits, -, -⟩ := positionalAt_eq_some_iff.mp hFound
    obtain ⟨c, number, rfl⟩ := List.exists_cons_of_ne_nil hNonempty
    have hDecimal := isDecimal_of_isDigit python (List.all_eq_true.mp hDigits c List.mem_cons_self)
    simp [positionalAt, digitRun, hDecimal] at h

theorem positionalAt_digit_of_reads {number : List Char} {covered : Nat}
    (h : positionalAt python.isDecimal text = some (number, covered))
    (hReads : Reads python number) :
    positionalAt Char.isDigit text = some (number, covered) := by
  obtain ⟨after, hText, hNonempty, -, hAfter, hCovered⟩ := positionalAt_eq_some_iff.mp h
  refine positionalAt_eq_some_iff.mpr ⟨after, hText, hNonempty, hReads.1, ?_, hCovered⟩
  intro c hHead
  by_contra hDigit
  have hDecimal := isDecimal_of_isDigit python (Bool.not_eq_false _ ▸ hDigit)
  exact Bool.false_ne_true ((hAfter c hHead).symm.trans hDecimal)

theorem covers_sliceAt (hDecimal : AsciiDecimal isDecimal) : Covers (sliceAt isDecimal) := by
  rintro text ⟨start, length⟩ covered hFound
  obtain ⟨after, rfl, -, -, rfl⟩ := (sliceAt_iff hDecimal).mp hFound
  rw [List.length_append]
  exact ⟨Nat.succ_pos _, Nat.le_add_right _ _⟩

theorem covers_positionalAt (isDecimal : Char → Bool) : Covers (positionalAt isDecimal) := by
  rintro text number covered hFound
  obtain ⟨after, rfl, -, -, -, rfl⟩ := positionalAt_eq_some_iff.mp hFound
  rw [List.length_cons, List.length_append]
  exact ⟨Nat.succ_pos _, by omega⟩

/-- The mark of a slice that a pass finds is the slice as it is written. -/
theorem mark_of_mem_slices (hDecimal : AsciiDecimal isDecimal) {mark : List Char}
    (h : .hole (start, length) mark ∈ piecesFrom (sliceAt isDecimal) 0 text) :
    mark = sliceMark start length ∧ start.all isDecimal ∧
      ∀ digits ∈ length, digits.all isDecimal := by
  obtain ⟨suffix, covered, -, hFound, rfl⟩ := suffix_of_mem_piecesFrom h
  obtain ⟨after, rfl, ⟨-, hStart⟩, hLength, rfl⟩ := (sliceAt_iff hDecimal).mp hFound
  exact ⟨List.take_left, hStart, fun digits hDigits => (hLength digits hDigits).2⟩

theorem mark_of_mem_positionals {number mark : List Char}
    (h : .hole number mark ∈ piecesFrom (positionalAt isDecimal) 0 text) :
    mark = '$' :: number ∧ number.all isDecimal := by
  obtain ⟨suffix, covered, -, hFound, rfl⟩ := suffix_of_mem_piecesFrom h
  obtain ⟨after, rfl, -, hDigits, -, rfl⟩ := positionalAt_eq_some_iff.mp hFound
  exact ⟨by simp, hDigits⟩

/-- A slice begins with a `$` and has no other one. -/
theorem dollar_notMem_tail_sliceMark (hStart : start.all python.isDecimal)
    (hLength : ∀ digits ∈ length, digits.all python.isDecimal) :
    '$' ∉ (sliceMark start length).tail := by
  have hDigits {digits : List Char} (h : digits.all python.isDecimal) : '$' ∉ digits := by
    intro hMem
    have hDecimal := List.all_eq_true.mp h '$' hMem
    rw [python.isDecimal_ascii '$' (by decide)] at hDecimal
    revert hDecimal
    decide
  cases length with
  | none => simp [sliceMark, hDigits hStart]
  | some digits => simp [sliceMark, hDigits hStart, hDigits (hLength digits rfl)]

end Digits

/-! ## Characters beyond ASCII

The arguments have none, so a pass can only take them away, with the numbers they stand in. -/

section Foreign

def isForeign (c : Char) : Bool := 128 ≤ c.toNat

theorem countP_isForeign_eq_zero : text.countP isForeign = 0 ↔ ∀ c ∈ text, c.toNat < 128 := by
  simp [List.countP_eq_zero, isForeign]

variable (hAscii : ∀ arg ∈ args, ∀ c ∈ arg.toList, c.toNat < 128)

include hAscii

theorem joinArgs_ascii : ∀ c ∈ joinArgs args, c.toNat < 128 := by
  intro c hMem
  rcases mem_joinArgs hMem with rfl | ⟨arg, hArg, hChar⟩
  · decide
  · exact hAscii arg hArg c hChar

theorem countP_joinArgs {selected : List String} (hSelected : selected ⊆ args) :
    (joinArgs selected).countP isForeign = 0 :=
  countP_isForeign_eq_zero.mpr (joinArgs_ascii fun arg hArg => hAscii arg (hSelected hArg))

theorem countP_drop_take (first count : Nat) :
    (joinArgs (args.drop first)).countP isForeign = 0 ∧
      (joinArgs ((args.drop first).take count)).countP isForeign = 0 :=
  ⟨countP_joinArgs hAscii (List.drop_subset _ _),
    countP_joinArgs hAscii ((List.take_sublist _ _).trans (List.drop_sublist _ _)).subset⟩

theorem countP_pythonSlice (h : python.sliceArgs args start length = .ok inserted) :
    inserted.countP isForeign = 0 := by
  obtain ⟨first, -, hRest⟩ := Fallible.bind_eq_ok.mp h
  split at hRest
  · cases hRest
  · cases length with
    | none =>
      cases hRest
      exact (countP_drop_take hAscii _ 0).1
    | some digits =>
      obtain ⟨count, -, hLast⟩ := Fallible.bind_eq_ok.mp hRest
      cases hLast
      exact (countP_drop_take hAscii _ _).2

theorem countP_slice (h : sliceArgs args start length = .ok inserted) :
    inserted.countP isForeign = 0 := by
  unfold sliceArgs at h
  split at h
  · cases h
  · cases length with
    | none =>
      cases h
      exact (countP_drop_take hAscii _ 0).1
    | some digits =>
      cases h
      exact (countP_drop_take hAscii _ _).2

theorem countP_positionalArg (number : Nat) : (positionalArg args number).countP isForeign = 0 := by
  unfold positionalArg
  split
  · rfl
  · cases hArg : args[number - 1]? with
    | none => rfl
    | some arg =>
      exact countP_isForeign_eq_zero.mpr (hAscii arg (List.mem_of_getElem? hArg))

omit hAscii

/-- A decimal character that is not foreign is a digit. -/
theorem all_isDigit (hDecimal : digits.all python.isDecimal)
    (hAscii : ∀ c ∈ digits, c.toNat < 128) : digits.all Char.isDigit := by
  rw [List.all_eq_true] at hDecimal ⊢
  intro c hMem
  rw [← python.isDecimal_ascii c (hAscii c hMem)]
  exact hDecimal c hMem

theorem ascii_of_all_isDigit (h : digits.all Char.isDigit) : ∀ c ∈ digits, c.toNat < 128 :=
  fun c hMem => ascii_of_isDigit (List.all_eq_true.mp h c hMem)

theorem sliceMark_ascii (hStart : start.all Char.isDigit)
    (hLength : ∀ digits ∈ length, digits.all Char.isDigit) :
    ∀ c ∈ sliceMark start length, c.toNat < 128 := by
  have hMore : ∀ c ∈ length.elim [] fun digits => ':' :: digits, c.toNat < 128 := by
    cases length with
    | none => exact List.forall_mem_nil _
    | some digits =>
      exact List.forall_mem_cons.mpr ⟨by decide, ascii_of_all_isDigit (hLength digits rfl)⟩
  simp only [sliceMark, List.forall_mem_cons, List.forall_mem_append]
  exact ⟨by decide, by decide, by decide, by decide, ascii_of_all_isDigit hStart, hMore, by decide,
    List.forall_mem_nil _⟩

/-- TypeScript takes no foreign character away with its slices. -/
theorem countP_marks_slices :
    (marks (piecesFrom (sliceAt Char.isDigit) 0 text)).countP isForeign = 0 := by
  rw [countP_isForeign_eq_zero]
  intro c hMem
  obtain ⟨⟨start, length⟩, mark, hHole, hMark⟩ := mem_marks.mp hMem
  obtain ⟨rfl, hStart, hLength⟩ := mark_of_mem_slices asciiDecimal_isDigit hHole
  exact sliceMark_ascii hStart hLength c hMark

theorem countP_marks_positionals :
    (marks (piecesFrom (positionalAt Char.isDigit) 0 text)).countP isForeign = 0 := by
  rw [countP_isForeign_eq_zero]
  intro c hMem
  obtain ⟨number, mark, hHole, hMark⟩ := mem_marks.mp hMem
  obtain ⟨rfl, hDigits⟩ := mark_of_mem_positionals hHole
  rcases List.mem_cons.mp hMark with rfl | hNumber
  · decide
  · exact ascii_of_all_isDigit hDigits c hNumber

end Foreign

/-! ## The passes that read numbers -/

section Passes

def numberPasses (args : List String) (text : List Char) : Except String (List Char) := do
  let text ← replaceAll (sliceAt Char.isDigit)
    (fun (start, length) _ _ => sliceArgs args start length) text
  replaceAll (positionalAt Char.isDigit)
    (fun number _ _ => .ok (positionalArg args (digitsValue number))) text

def pythonPasses (python : Python) (args : List String) (text : List Char) :
    Except PythonError (List Char) := do
  let text ← slicePass python args text
  replaceAll (positionalAt python.isDecimal)
    (fun number _ _ => do
      let index ← python.int number
      .ok (positionalArg args index)) text

theorem slicePass_eq_fill (python : Python) (args : List String) (text : List Char) :
    slicePass python args text =
      fill (fun slice => python.sliceArgs args slice.1 slice.2)
        (piecesFrom (sliceAt python.isDecimal) 0 text) :=
  replaceFrom_eq_fill 0 [] text

theorem pythonPasses_eq (python : Python) (args : List String) (text : List Char) :
    pythonPasses python args text = (slicePass python args text >>= fun sliced =>
      fill (fun number => do
          let index ← python.int number
          .ok (positionalArg args index))
        (piecesFrom (positionalAt python.isDecimal) 0 sliced)) :=
  congrArg _ (funext fun sliced => replaceFrom_eq_fill 0 [] sliced)

theorem numberPasses_eq (args : List String) (text : List Char) :
    numberPasses args text =
      (fill (fun slice => sliceArgs args slice.1 slice.2)
          (piecesFrom (sliceAt Char.isDigit) 0 text) >>= fun sliced =>
        fill (fun number => .ok (positionalArg args (digitsValue number)))
          (piecesFrom (positionalAt Char.isDigit) 0 sliced)) :=
  congrArg₂ _ (replaceFrom_eq_fill 0 [] text)
    (funext fun sliced => replaceFrom_eq_fill 0 [] sliced)

/-- Where no replacement pattern is read, both engines expand the template alike. -/
theorem substitute_expanded (python : Python) (hPatterns :
      (¬ argumentsPattern <:+: text ∧ ¬ atPattern <:+: text) ∨
        hasReplacementPattern (joinArgs args) = false) :
    ∃ expanded, expand args text = .ok expanded ∧
      substitute args text = numberPasses args expanded ∧
      python.substitute args text = pythonPasses python args expanded := by
  obtain ⟨text₁, h₁⟩ := exists_replaceText argumentsPattern (joinArgs args) text
  obtain ⟨text₂, h₂⟩ := exists_replaceText atPattern (joinArgs args) text₁
  have hJs₁ := replaceAllText_of_replaceText (hPatterns.imp_left And.left) h₁
  have hNowhere : ¬ atPattern <:+: text₁ ∨ hasReplacementPattern (joinArgs args) = false := by
    refine hPatterns.imp_left fun ⟨hNoArguments, hNoAt⟩ => ?_
    rwa [replaceText_of_nowhere hNoArguments h₁]
  have hJs₂ := replaceAllText_of_replaceText hNowhere h₂
  refine ⟨text₂, ?_, ?_, ?_⟩
  · rw [expand, h₁]
    exact h₂
  · rw [substitute, hJs₁]
    change (replaceAllText atPattern (joinArgs args) text₁ >>= _) = _
    rw [hJs₂]
    rfl
  · rw [Python.substitute, h₁]
    change (Python.replaceText atPattern (joinArgs args) text₁ >>= _) = _
    rw [h₂]
    rfl

/-- Slices are taken alike where the numbers are short enough. -/
theorem toOption_sliceArgs (hStart : python.int start = .ok (digitsValue start))
    (hLength : ∀ digits ∈ length, python.int digits = .ok (digitsValue digits)) :
    (python.sliceArgs args start length).toOption = (sliceArgs args start length).toOption := by
  rw [Python.sliceArgs, hStart, sliceArgs]
  by_cases hZero : digitsValue start = 0
  · simp [bind, Except.bind, hZero, Except.toOption]
  · cases length with
    | none => simp [bind, Except.bind, hZero, Except.toOption]
    | some digits => simp [bind, Except.bind, hZero, hLength digits rfl, Except.toOption]

/-- TypeScript returns what Python does only if no foreign character is lost. -/
theorem numbers_ascii_of_eq_ok (hAscii : ∀ arg ∈ args, ∀ c ∈ arg.toList, c.toNat < 128)
    (hJs : numberPasses args text = .ok out) {sliced : List Char}
    (hSliced : slicePass python args text = .ok sliced)
    (hOut : fill (fun number => do
        let index ← python.int number
        .ok (positionalArg args index))
      (piecesFrom (positionalAt python.isDecimal) 0 sliced) = .ok out) :
    (∀ c ∈ marks (piecesFrom (sliceAt python.isDecimal) 0 text), c.toNat < 128) ∧
      ∀ c ∈ marks (piecesFrom (positionalAt python.isDecimal) 0 sliced), c.toNat < 128 := by
  rw [numberPasses_eq] at hJs
  rw [slicePass_eq_fill] at hSliced
  obtain ⟨jsSliced, hJsSliced, hJsOut⟩ := Fallible.bind_eq_ok.mp hJs
  have hFirst := countP_fill hSliced fun slice inserted hRender =>
    countP_pythonSlice hAscii hRender
  have hSecond := countP_fill hOut fun number inserted hRender => by
    obtain ⟨index, -, hInserted⟩ := Fallible.bind_eq_ok.mp hRender
    cases hInserted
    exact countP_positionalArg hAscii index
  have hJsFirst := countP_fill hJsSliced fun slice inserted hRender => countP_slice hAscii hRender
  have hJsSecond := countP_fill hJsOut fun number inserted hRender => by
    cases hRender
    exact countP_positionalArg hAscii _
  rw [spell_piecesFrom (covers_sliceAt python.isDecimal_ascii), List.drop_zero] at hFirst
  rw [spell_piecesFrom (covers_positionalAt _), List.drop_zero] at hSecond
  rw [spell_piecesFrom (covers_sliceAt asciiDecimal_isDigit), List.drop_zero,
    countP_marks_slices] at hJsFirst
  rw [spell_piecesFrom (covers_positionalAt _), List.drop_zero, countP_marks_positionals]
    at hJsSecond
  rw [← countP_isForeign_eq_zero, ← countP_isForeign_eq_zero]
  omega

/-- A slice that Python returned the text of has numbers that `int` reads. -/
theorem int_of_sliceArgs (h : python.sliceArgs args start length = .ok inserted) :
    (∃ value, python.int start = .ok value) ∧
      ∀ digits ∈ length, ∃ value, python.int digits = .ok value := by
  obtain ⟨first, hFirst, hRest⟩ := Fallible.bind_eq_ok.mp h
  refine ⟨⟨first, hFirst⟩, ?_⟩
  rintro digits ⟨rfl⟩
  split at hRest
  · cases hRest
  · obtain ⟨count, hCount, -⟩ := Fallible.bind_eq_ok.mp hRest
    exact ⟨count, hCount⟩

theorem reads_of_same (hAscii : ∀ arg ∈ args, ∀ c ∈ arg.toList, c.toNat < 128)
    (hJs : numberPasses args text = .ok out) (hPython : pythonPasses python args text = .ok out) :
    (∀ slice ∈ found (sliceAt python.isDecimal) text,
        Reads python slice.1 ∧ ∀ digits ∈ slice.2, Reads python digits) ∧
      ∀ sliced, slicePass python args text = .ok sliced →
        ∀ number ∈ found (positionalAt python.isDecimal) sliced, Reads python number := by
  rw [pythonPasses_eq] at hPython
  obtain ⟨sliced, hSliced, hOut⟩ := Fallible.bind_eq_ok.mp hPython
  obtain ⟨hSlices, hNumbers⟩ := numbers_ascii_of_eq_ok hAscii hJs hSliced hOut
  have hFill := (slicePass_eq_fill python args text).symm.trans hSliced
  constructor
  · rintro ⟨start, length⟩ hMem
    obtain ⟨mark, hHole⟩ := mem_found.mp hMem
    obtain ⟨inserted, hInserted⟩ := exists_fill_eq_ok_iff.mp ⟨sliced, hFill⟩ _ mark hHole
    obtain ⟨⟨value, hStart⟩, hLength⟩ := int_of_sliceArgs hInserted
    obtain ⟨rfl, hDecimal, hDecimals⟩ := mark_of_mem_slices python.isDecimal_ascii hHole
    have hMark (c : Char) (hChar : c ∈ sliceMark start length) : c.toNat < 128 :=
      hSlices c (mem_marks.mpr ⟨_, _, hHole, hChar⟩)
    refine ⟨reads_of_int (all_isDigit hDecimal fun c hChar => hMark c ?_) hStart, ?_⟩
    · simp [sliceMark, hChar]
    · rintro digits ⟨rfl⟩
      obtain ⟨value, hValue⟩ := hLength digits rfl
      refine reads_of_int (all_isDigit (hDecimals digits rfl) fun c hChar => hMark c ?_) hValue
      simp [sliceMark, hChar]
  · intro sliced' hSliced' number hMem
    rw [hSliced] at hSliced'
    cases hSliced'
    obtain ⟨mark, hHole⟩ := mem_found.mp hMem
    obtain ⟨inserted, hInserted⟩ := exists_fill_eq_ok_iff.mp ⟨out, hOut⟩ number mark hHole
    obtain ⟨value, hValue, -⟩ := Fallible.bind_eq_ok.mp hInserted
    obtain ⟨rfl, hDecimal⟩ := mark_of_mem_positionals hHole
    refine reads_of_int (all_isDigit hDecimal fun c hChar => ?_) hValue
    exact hNumbers c (mem_marks.mpr ⟨_, _, hHole, List.mem_cons_of_mem _ hChar⟩)

/-- At a slice from 0 TypeScript raises, and nowhere else. -/
theorem exists_numberPasses_iff :
    (∃ out, numberPasses args text = .ok out) ↔
      ∀ slice ∈ found (sliceAt Char.isDigit) text, digitsValue slice.1 ≠ 0 := by
  have hSlices : (∃ sliced, fill (fun slice => sliceArgs args slice.1 slice.2)
      (piecesFrom (sliceAt Char.isDigit) 0 text) = .ok sliced) ↔
        ∀ slice ∈ found (sliceAt Char.isDigit) text, digitsValue slice.1 ≠ 0 := by
    rw [exists_fill_eq_ok_iff]
    constructor
    · intro hOk slice hMem hZero
      obtain ⟨mark, hHole⟩ := mem_found.mp hMem
      obtain ⟨inserted, hInserted⟩ := hOk slice mark hHole
      rw [sliceArgs, if_pos hZero] at hInserted
      cases hInserted
    · intro hNonzero slice mark hHole
      rw [sliceArgs, if_neg (hNonzero slice (mem_found.mpr ⟨mark, hHole⟩))]
      cases slice.2 <;> exact ⟨_, rfl⟩
  rw [← hSlices, numberPasses_eq]
  constructor
  · rintro ⟨out, hOut⟩
    obtain ⟨sliced, hSliced, -⟩ := Fallible.bind_eq_ok.mp hOut
    exact ⟨sliced, hSliced⟩
  · rintro ⟨sliced, hSliced⟩
    obtain ⟨out, hOut⟩ := exists_fill_eq_ok_iff.mpr fun number mark _ =>
      ⟨positionalArg args (digitsValue number), rfl⟩
    exact ⟨out, Fallible.bind_eq_ok.mpr ⟨sliced, hSliced, hOut⟩⟩

/-- The slices that TypeScript's pass finds, Python's pass finds as well. -/
theorem found_slices_subset :
    found (sliceAt Char.isDigit) text ⊆ found (sliceAt python.isDecimal) text := by
  rintro ⟨start, length⟩ hFound
  obtain ⟨mark, hHole⟩ := mem_found.mp hFound
  obtain ⟨suffix, covered, hSuffix, hAt, -⟩ := suffix_of_mem_piecesFrom hHole
  have hPython : sliceAt python.isDecimal suffix = some ((start, length), covered) :=
    sliceAt_decimal_of_digit hAt
  refine mem_found.mpr (mem_piecesFrom_of_suffix '$' ?_ ?_ hSuffix ?_ hPython (by simp))
  · intro c rest hSome
    obtain ⟨⟨⟨start', length'⟩, covered'⟩, hHit⟩ := Option.isSome_iff_exists.mp hSome
    obtain ⟨after, hText, -⟩ := (sliceAt_iff python.isDecimal_ascii).mp hHit
    exact (List.cons.inj hText).1
  · rintro text' ⟨start', length'⟩ covered' hHit
    obtain ⟨after, rfl, ⟨-, hDecimal⟩, hDecimals, rfl⟩ :=
      (sliceAt_iff python.isDecimal_ascii).mp hHit
    rw [List.take_left]
    exact dollar_notMem_tail_sliceMark hDecimal fun digits hDigits => (hDecimals digits hDigits).2
  · rintro rfl
    cases hAt

/-- Python raises there too: it finds the slice, and `int` gives up or gives 0. -/
theorem pythonPasses_ne_ok {slice : List Char × Option (List Char)}
    (hFound : slice ∈ found (sliceAt Char.isDigit) text) (hZero : digitsValue slice.1 = 0) :
    pythonPasses python args text ≠ .ok out := by
  intro hOut
  obtain ⟨sliced, hSliced, -⟩ := Fallible.bind_eq_ok.mp hOut
  rw [slicePass_eq_fill] at hSliced
  obtain ⟨start, length⟩ := slice
  obtain ⟨mark, hHole⟩ := mem_found.mp hFound
  obtain ⟨-, hStart, -⟩ := mark_of_mem_slices asciiDecimal_isDigit hHole
  obtain ⟨mark', hHole'⟩ := mem_found.mp (found_slices_subset hFound)
  obtain ⟨inserted, hInserted⟩ := exists_fill_eq_ok_iff.mp ⟨sliced, hSliced⟩ _ mark' hHole'
  obtain ⟨⟨value, hInt⟩, -⟩ := int_of_sliceArgs hInserted
  rw [Python.sliceArgs, (reads_of_int hStart hInt).int_eq] at hInserted
  simp [bind, Except.bind, hZero] at hInserted

/-- Where Python reads every number, the engines cut the same slices out of a text. -/
theorem piecesFrom_slices (h : ∀ slice ∈ found (sliceAt python.isDecimal) text,
      Reads python slice.1 ∧ ∀ digits ∈ slice.2, Reads python digits) :
    piecesFrom (sliceAt Char.isDigit) 0 text = piecesFrom (sliceAt python.isDecimal) 0 text := by
  refine piecesFrom_congr (fun slice : List Char × Option (List Char) =>
    Reads python slice.1 ∧ ∀ digits ∈ slice.2, Reads python digits) ?_ ?_
    fun slice mark hHole => h slice (mem_found.mpr ⟨mark, hHole⟩)
  · intro text hNone
    by_contra hSome
    obtain ⟨slice, hSlice⟩ := Option.ne_none_iff_exists'.mp hSome
    rw [sliceAt_decimal_of_digit hSlice] at hNone
    cases hNone
  · rintro text ⟨start, length⟩ covered hAt hReads
    exact sliceAt_digit_of_reads hAt hReads

theorem toOption_passes
    (hSlices : ∀ slice ∈ found (sliceAt python.isDecimal) text,
      Reads python slice.1 ∧ ∀ digits ∈ slice.2, Reads python digits)
    (hNumbers : ∀ sliced, slicePass python args text = .ok sliced →
      ∀ number ∈ found (positionalAt python.isDecimal) sliced, Reads python number) :
    (pythonPasses python args text).toOption = (numberPasses args text).toOption := by
  rw [pythonPasses_eq, numberPasses_eq, slicePass_eq_fill, piecesFrom_slices hSlices]
  refine Fallible.toOption_bind_congr (toOption_fill_congr fun slice mark hHole => ?_) ?_
  · obtain ⟨hStart, hLength⟩ := hSlices slice (mem_found.mpr ⟨mark, hHole⟩)
    exact toOption_sliceArgs hStart.int_eq fun digits hDigits => (hLength digits hDigits).int_eq
  · intro sliced hSliced
    have hNumberHoles (number mark : List Char)
        (hHole : .hole number mark ∈ piecesFrom (positionalAt python.isDecimal) 0 sliced) :=
      hNumbers sliced ((slicePass_eq_fill python args text).trans hSliced) number
        (mem_found.mpr ⟨mark, hHole⟩)
    have hPositionals : piecesFrom (positionalAt Char.isDigit) 0 sliced =
        piecesFrom (positionalAt python.isDecimal) 0 sliced :=
      piecesFrom_congr (Reads python) (fun _ hNone => positionalAt_digit_of_none hNone)
        (fun _ _ _ hAt hReads => positionalAt_digit_of_reads hAt hReads) hNumberHoles
    rw [hPositionals]
    refine toOption_fill_congr fun number mark hHole => ?_
    rw [(hNumberHoles number mark hHole).int_eq]
    rfl

end Passes

/-- For ASCII arguments, and if the template has no `$ARGUMENTS` and no `$@` or the joined arguments
have no replacement pattern, the engines return the same text or both raise exactly if there is a
slice from 0 or Python reads the same numbers. -/
theorem engines_agree_iff (python : Python) {text : String} {args : List String}
    (hAscii : ∀ arg ∈ args, ∀ c ∈ arg.toList, c.toNat < 128)
    (hPatterns : (¬ argumentsPattern <:+: text.toList ∧ ¬ atPattern <:+: text.toList) ∨
      hasReplacementPattern (joinArgs args) = false) :
    (substituteArgs text args).toOption = (python.substituteArgs text args).toOption ↔
      NumbersAlike python args text.toList := by
  obtain ⟨expanded, hExpanded, hJs, hPython⟩ := substitute_expanded python hPatterns
  rw [substituteArgs, Python.substituteArgs, hJs, hPython, Fallible.toOption_map,
    Fallible.toOption_map, (Option.map_injective fun _ _ => String.ofList_injective).eq_iff]
  constructor
  · intro hSame
    refine ⟨expanded, hExpanded, or_iff_not_imp_left.mpr fun hNoZero => ?_⟩
    obtain ⟨out, hOut⟩ := exists_numberPasses_iff.mpr fun slice hMem hZero =>
      hNoZero ⟨slice, hMem, hZero⟩
    rw [hOut] at hSame
    exact reads_of_same hAscii hOut (Fallible.toOption_eq_some.mp hSame.symm)
  · rintro ⟨expanded', hExpanded', hNumbers⟩
    rw [hExpanded] at hExpanded'
    cases hExpanded'
    rcases hNumbers with ⟨slice, hFound, hZero⟩ | ⟨hSlices, hNumbers⟩
    · have hJsNone : ∀ out, numberPasses args expanded ≠ .ok out := fun out hOut =>
        exists_numberPasses_iff.mp ⟨out, hOut⟩ slice hFound hZero
      rw [Fallible.toOption_eq_none hJsNone,
        Fallible.toOption_eq_none fun out => pythonPasses_ne_ok hFound hZero]
    · exact (toOption_passes hSlices hNumbers).symm

/-- An interpreter that knows the ASCII digits and the Arabic-Indic ones. -/
def twoScripts : Python where
  isDecimal c := c.isDigit || (0x660 ≤ c.toNat && c.toNat ≤ 0x669)
  decimalValue c := if c.isDigit then c.toNat - '0'.toNat else c.toNat - 0x660
  maxStrDigits := 4300
  isDecimal_ascii c hAscii := by
    have hLow : decide (0x660 ≤ c.toNat) = false := decide_eq_false (by omega)
    rw [hLow, Bool.false_and, Bool.or_false]
  decimalValue_digit c hDigit := if_pos hDigit

theorem classify_rendered_alike :
    (substituteArgs "issue $1: $\x7b@:2\x7d" ["12", "fix $HOME"]).toOption =
        (twoScripts.substituteArgs "issue $1: $\x7b@:2\x7d" ["12", "fix $HOME"]).toOption ∧
      (substituteArgs "issue $1: $\x7b@:2\x7d" ["12", "fix $HOME"]).toOption =
        some "issue 12: fix $HOME" := by
  refine ⟨(engines_agree_iff twoScripts ?_ (.inr ?_)).mpr
    ⟨"issue $1: $\x7b@:2\x7d".toList, ?_, .inr ⟨?_, ?_⟩⟩, ?_⟩
  · simp
  · simp [joinArgs, hasReplacementPattern, replacementPattern, List.intercalate]
  · decide +kernel
  · decide +kernel
  · intro sliced hSliced
    have hText : slicePass twoScripts ["12", "fix $HOME"] "issue $1: $\x7b@:2\x7d".toList =
        .ok "issue $1: fix $HOME".toList := by decide +kernel
    rw [hText] at hSliced
    cases hSliced
    decide +kernel
  · decide +kernel

/-- Two dollar signs in an argument become one in TypeScript only; an Arabic digit is a number in
Python only. -/
theorem engines_differ :
    (substituteArgs "$ARGUMENTS" ["$$"]).toOption = some "$" ∧
      (twoScripts.substituteArgs "$ARGUMENTS" ["$$"]).toOption = some "$$" ∧
      (substituteArgs "$\u0661" ["one"]).toOption = some "$\u0661" ∧
      (twoScripts.substituteArgs "$\u0661" ["one"]).toOption = some "one" := by
  decide +kernel

end MxAgent.System.PromptEngines
