import MxAgent.Adw.Templates

/-! What prompt templates are for: each placeholder of the template stands for arguments, and all
are replaced at once. `substituteArgs` makes four passes instead, and a later pass reads what an
earlier one inserted. Its result is the simultaneous one if the passes find the placeholders of
the template and nothing else. -/
namespace MxAgent.System.PromptArguments

open Adw GlobalReplace

inductive Placeholder where
  | arguments
  | all
  | slice (start : List Char) (length : Option (List Char))
  | positional (number : List Char)
  deriving DecidableEq, Repr

namespace Placeholder

def rank : Placeholder → Nat
  | .arguments => 0
  | .all => 1
  | .slice _ _ => 2
  | .positional _ => 3

def mark : Placeholder → List Char
  | .arguments => argumentsPattern
  | .all => atPattern
  | .slice start length => sliceMark start length
  | .positional number => '$' :: number

def content (args : List String) : Placeholder → List Char
  | .arguments | .all => joinArgs args
  | .slice start none => joinArgs (args.drop (digitsValue start - 1))
  | .slice start (some length) =>
    joinArgs ((args.drop (digitsValue start - 1)).take (digitsValue length))
  | .positional number => positionalArg args (digitsValue number)

end Placeholder

def placeholderAt : Finder Char Placeholder := fun text =>
  if argumentsPattern.isPrefixOf text then some (.arguments, argumentsPattern.length)
  else if atPattern.isPrefixOf text then some (.all, atPattern.length)
  else
    match sliceAt Char.isDigit text with
    | some ((start, length), covered) => some (.slice start length, covered)
    | none =>
      (positionalAt Char.isDigit text).map fun (number, covered) => (.positional number, covered)

abbrev Pieces := List (Piece Char Placeholder)

def pieces (text : String) : Pieces := piecesFrom placeholderAt 0 text.toList

def textBefore (args : List String) (stage : Nat) (template : Pieces) : List Char :=
  stageText Placeholder.rank (Placeholder.content args) stage template

def simultaneous (text : String) (args : List String) : String :=
  String.ofList (textBefore args 4 (pieces text))

def isFoundAt : Nat → List Char → Bool
  | 0, text => (literalAt argumentsPattern text).isSome
  | 1, text => (literalAt atPattern text).isSome
  | 2, text => (sliceAt Char.isDigit text).isSome
  | 3, text => (positionalAt Char.isDigit text).isSome
  | _, _ => false

/-- No pass after `rank` finds anything in front of the rest. -/
def isQuiet (args : List String) (rank : Nat) : List Char → Pieces → Bool
  | [], _ => true
  | c :: text, rest =>
    [1, 2, 3].all (fun pass =>
      pass ≤ rank || !isFoundAt pass (c :: (text ++ textBefore args pass rest))) &&
      isQuiet args rank text rest

/-- The pass of a placeholder inserts its content: the arguments are no replacement pattern, and a
single argument's number ends where it does in the template. -/
def isRead (args : List String) : Placeholder → Pieces → Bool
  | .arguments, _ | .all, _ => !hasReplacementPattern (joinArgs args)
  | .slice _ _, _ => true
  | .positional _, rest => (textBefore args 3 rest).head?.all fun c => !c.isDigit

/-- Nothing but the placeholders of the template is read. -/
def isInert (args : List String) : Pieces → Bool
  | [] => true
  | .literal c :: rest => isQuiet args 0 [c] rest && isInert args rest
  | .hole placeholder _ :: rest =>
    isRead args placeholder rest &&
      isQuiet args placeholder.rank (placeholder.content args) rest && isInert args rest

def startsAtZero : Piece Char Placeholder → Bool
  | .hole (.slice start _) _ => digitsValue start == 0
  | _ => false

/-! ## Placeholders -/

def Placeholder.WellFormed : Placeholder → Prop
  | .arguments | .all => True
  | .slice start length => (start ≠ [] ∧ start.all Char.isDigit) ∧
      ∀ digits ∈ length, digits ≠ [] ∧ digits.all Char.isDigit
  | .positional number => number ≠ [] ∧ number.all Char.isDigit

variable {text : List Char} {placeholder : Placeholder} {pass : Nat}

theorem exists_mark_of_placeholderAt {covered : Nat}
    (h : placeholderAt text = some (placeholder, covered)) :
    placeholder.WellFormed ∧ covered = placeholder.mark.length ∧
      ∃ after, text = placeholder.mark ++ after ∧
        (placeholder.rank = 3 → ∀ c ∈ after.head?, c.isDigit = false) := by
  unfold placeholderAt at h
  split at h
  · rename_i hPrefix
    cases h
    obtain ⟨after, rfl⟩ := List.isPrefixOf_iff_prefix.mp hPrefix
    exact ⟨trivial, rfl, after, rfl, nofun⟩
  · split at h
    · rename_i hPrefix
      cases h
      obtain ⟨after, rfl⟩ := List.isPrefixOf_iff_prefix.mp hPrefix
      exact ⟨trivial, rfl, after, rfl, nofun⟩
    · split at h
      · rename_i start length covered hSlice
        cases h
        obtain ⟨after, hText, hStart, hLength, hCovered⟩ :=
          (sliceAt_eq_some_iff (by decide) (by decide)).mp hSlice
        exact ⟨⟨hStart, hLength⟩, hCovered, after, hText, nofun⟩
      · obtain ⟨⟨number, length⟩, hNumber, hPair⟩ := Option.map_eq_some_iff.mp h
        cases hPair
        obtain ⟨after, hText, hNonempty, hDigits, hAfter, hCovered⟩ :=
          positionalAt_eq_some_iff.mp hNumber
        exact ⟨⟨hNonempty, hDigits⟩, hCovered, after, hText, fun _ => hAfter⟩

theorem mark_ne_nil (placeholder : Placeholder) : placeholder.mark ≠ [] := by
  cases placeholder <;> exact List.cons_ne_nil _ _

theorem covers_placeholderAt : Covers placeholderAt := by
  intro text placeholder covered h
  obtain ⟨-, rfl, after, rfl, -⟩ := exists_mark_of_placeholderAt h
  refine ⟨List.length_pos_of_ne_nil (mark_ne_nil placeholder), ?_⟩
  rw [List.length_append]
  exact Nat.le_add_right _ _

/-- Where the template has no placeholder, no pass finds one in it. -/
theorem isFoundAt_of_placeholderAt_eq_none (h : placeholderAt text = none)
    (pass : Nat) : isFoundAt pass text = false := by
  unfold placeholderAt at h
  split at h
  · cases h
  · rename_i hArguments
    split at h
    · cases h
    · rename_i hAt
      split at h
      · cases h
      · rename_i hSlice
        rw [Option.map_eq_none_iff] at h
        match pass with
        | 0 => simp [isFoundAt, literalAt, hArguments]
        | 1 => simp [isFoundAt, literalAt, hAt]
        | 2 => simp [isFoundAt, hSlice]
        | 3 => simp [isFoundAt, h]
        | _ + 4 => rfl

theorem isSome_literalAt {pattern : List Char} :
    (literalAt pattern text).isSome ↔ pattern <+: text := by
  rw [← List.isPrefixOf_iff_prefix, literalAt]
  split <;> simp_all

theorem argumentsPattern_eq : argumentsPattern = '$' :: 'A' :: "RGUMENTS".toList := by decide

theorem dollar_of_isFoundAt {c : Char} (h : isFoundAt pass (c :: text)) : c = '$' := by
  match pass with
  | 0 =>
    obtain ⟨after, hText⟩ := isSome_literalAt.mp h
    rw [argumentsPattern_eq] at hText
    exact (List.cons.inj hText).1.symm
  | 1 =>
    obtain ⟨after, hText⟩ := isSome_literalAt.mp h
    exact (List.cons.inj hText).1.symm
  | 2 =>
    obtain ⟨⟨⟨start, length⟩, covered⟩, hFound⟩ := Option.isSome_iff_exists.mp h
    obtain ⟨after, hText, -⟩ := (sliceAt_eq_some_iff (by decide) (by decide)).mp hFound
    exact (List.cons.inj hText).1
  | 3 =>
    obtain ⟨⟨number, covered⟩, hFound⟩ := Option.isSome_iff_exists.mp h
    obtain ⟨after, hText, -⟩ := positionalAt_eq_some_iff.mp hFound
    exact (List.cons.inj hText).1
  | _ + 4 => cases h

theorem isDigit_dollar_ne {digits : List Char} (hDigits : digits.all Char.isDigit) :
    '$' ∉ digits := fun hMem =>
  absurd (List.all_eq_true.mp hDigits '$' hMem) (by decide)

theorem dollar_notMem_tail_mark (h : placeholder.WellFormed) : '$' ∉ placeholder.mark.tail := by
  cases placeholder with
  | arguments => decide
  | all => decide
  | slice start length =>
    obtain ⟨⟨-, hStart⟩, hLength⟩ := h
    cases length with
    | none => simp [Placeholder.mark, sliceMark, isDigit_dollar_ne hStart]
    | some digits =>
      simp [Placeholder.mark, sliceMark, isDigit_dollar_ne hStart,
        isDigit_dollar_ne (hLength digits rfl).2]
  | positional number => exact isDigit_dollar_ne h.2

/-- The passes before that of a placeholder do not find its mark. -/
theorem isFoundAt_mark (h : placeholder.WellFormed) (hPass : pass < placeholder.rank)
    (after : List Char) :
    isFoundAt pass (placeholder.mark ++ after) = false := by
  cases placeholder with
  | arguments => cases hPass
  | all =>
    match pass, hPass with
    | 0, _ => rfl
  | slice start length =>
    match pass, hPass with
    | 0, _ => rfl
    | 1, _ => rfl
  | positional number =>
    obtain ⟨hNonempty, hDigits⟩ := h
    obtain ⟨digit, number, rfl⟩ := List.exists_cons_of_ne_nil hNonempty
    have hDigit : digit.isDigit := by
      rw [List.all_cons, Bool.and_eq_true] at hDigits
      exact hDigits.1
    -- each of the other patterns has something else after the `$`
    refine Bool.eq_false_iff.mpr fun hFound => ?_
    match pass, hPass with
    | 0, _ =>
      obtain ⟨after, hText⟩ := isSome_literalAt.mp hFound
      rw [argumentsPattern_eq] at hText
      cases (List.cons.inj (List.cons.inj hText).2).1
      cases hDigit
    | 1, _ =>
      obtain ⟨after, hText⟩ := isSome_literalAt.mp hFound
      cases (List.cons.inj (List.cons.inj hText).2).1
      cases hDigit
    | 2, _ =>
      obtain ⟨⟨⟨start, length⟩, covered⟩, hSlice⟩ := Option.isSome_iff_exists.mp hFound
      obtain ⟨after, hText, -⟩ := (sliceAt_eq_some_iff (by decide) (by decide)).mp hSlice
      cases (List.cons.inj (List.cons.inj hText).2).1
      cases hDigit

/-! ## Passes that read the template only -/

/-- The pass of a placeholder reads its mark, and inserts its content. -/
def Fits (args : List String) (placeholder : Placeholder) (mark after : List Char) : Prop :=
  mark = placeholder.mark ∧ placeholder.WellFormed ∧
    match placeholder with
    | .arguments | .all => hasReplacementPattern (joinArgs args) = false
    | .slice start _ => digitsValue start ≠ 0
    | .positional _ => ∀ c ∈ after.head?, c.isDigit = false

/-- The passes read the placeholders of a template and nothing else. -/
def ReadsTemplateOnly (args : List String) (template : Pieces) : Prop :=
  Inert Placeholder.rank (Placeholder.content args) (fun pass text => isFoundAt pass text)
    (Fits args) template

variable {args : List String}

theorem isFoundAt_eq_false_of_isQuiet {rank : Nat} {rest : Pieces}
    (h : isQuiet args rank text rest) (hPass : rank < pass) {suffix : List Char}
    (hNonempty : suffix ≠ []) (hSuffix : suffix <:+ text) :
    isFoundAt pass (suffix ++ textBefore args pass rest) = false := by
  induction text with
  | nil => exact absurd (List.suffix_nil.mp hSuffix) hNonempty
  | cons c text ih =>
    obtain ⟨hHere, hRest⟩ := (Bool.and_eq_true _ _).mp h
    rcases List.suffix_cons_iff.mp hSuffix with rfl | hShorter
    · by_cases hPasses : pass ≤ 3
      · have hMem : pass ∈ [1, 2, 3] := by
          simp
          omega
        simpa [Nat.not_le.mpr hPass] using List.all_eq_true.mp hHere pass hMem
      · obtain ⟨more, rfl⟩ := Nat.exists_eq_add_of_le (Nat.not_le.mp hPasses)
        rw [Nat.succ_add, Nat.add_comm]
        rfl
    · exact ih hRest hShorter

theorem not_isFoundAt_suffix (h : placeholder.WellFormed) (hPass : pass < placeholder.rank)
    {suffix : List Char} (hNonempty : suffix ≠ []) (hSuffix : suffix <:+ placeholder.mark)
    (after : List Char) :
    isFoundAt pass (suffix ++ after) = false := by
  obtain ⟨c, suffix, rfl⟩ := List.exists_cons_of_ne_nil hNonempty
  obtain ⟨first, tail, hMark⟩ := List.exists_cons_of_ne_nil (mark_ne_nil placeholder)
  rw [hMark] at hSuffix
  rcases List.suffix_cons_iff.mp hSuffix with hWhole | hTail
  · rw [hWhole, ← hMark]
    exact isFoundAt_mark h hPass after
  · refine Bool.eq_false_iff.mpr fun hFound => ?_
    rw [List.cons_append] at hFound
    have hDollar := dollar_notMem_tail_mark h
    rw [hMark, List.tail_cons, ← dollar_of_isFoundAt hFound] at hDollar
    exact hDollar (hTail.subset List.mem_cons_self)

theorem readsTemplateOnly_of_isInert {template : Pieces} (hCut : Cut placeholderAt template)
    (hSlices : ∀ piece ∈ template, startsAtZero piece = false) (h : isInert args template) :
    ReadsTemplateOnly args template := by
  induction hCut with
  | nil => exact .nil
  | @literal c rest hNone hRest ih =>
    obtain ⟨hQuiet, hMore⟩ := (Bool.and_eq_true _ _).mp h
    refine .literal (fun pass => ?_) (ih (fun piece hMem =>
      hSlices piece (List.mem_cons_of_mem _ hMem)) hMore)
    rw [Bool.not_eq_true]
    cases pass with
    | zero =>
      rw [stageText_eq_spell fun _ _ _ => Nat.zero_le _]
      exact isFoundAt_of_placeholderAt_eq_none hNone 0
    | succ pass =>
      exact isFoundAt_eq_false_of_isQuiet hQuiet (Nat.succ_pos pass) (List.cons_ne_nil c [])
        (List.suffix_refl _)
  | @hole placeholder mark rest hFound hRest ih =>
    obtain ⟨hHere, hMore⟩ := (Bool.and_eq_true _ _).mp h
    obtain ⟨hRead, hQuiet⟩ := (Bool.and_eq_true _ _).mp hHere
    obtain ⟨hFormed, hLength, after, hText, -⟩ := exists_mark_of_placeholderAt hFound
    obtain rfl : mark = placeholder.mark := List.append_inj_left hText hLength
    refine .hole (fun pass suffix hPass hNonempty hSuffix => ?_) ⟨rfl, hFormed, ?_⟩
      (fun pass suffix hPass hNonempty hSuffix => ?_) (ih (fun piece hMem =>
        hSlices piece (List.mem_cons_of_mem _ hMem)) hMore)
    · rw [not_isFoundAt_suffix hFormed hPass hNonempty hSuffix]
      exact Bool.false_ne_true
    · cases placeholder with
      | arguments => simpa [isRead] using hRead
      | all => simpa [isRead] using hRead
      | slice start length =>
        have hStart : (digitsValue start == 0) = false := hSlices _ List.mem_cons_self
        simpa using hStart
      | positional number =>
        intro c hHead
        have hStop := Option.all_eq_true _ _ |>.mp hRead c hHead
        simpa using hStop
    · rw [Bool.not_eq_true]
      exact isFoundAt_eq_false_of_isQuiet hQuiet hPass hNonempty hSuffix

/-! ## The four passes -/

section Stages

variable {template : Pieces}

theorem replaceAllText_stage {pattern : List Char} {stage : Nat} (hPattern : pattern ≠ [])
    (hFound : ∀ text, isFoundAt stage text = (literalAt pattern text).isSome)
    (hMark : ∀ placeholder : Placeholder, placeholder.rank = stage →
      placeholder.mark = pattern ∧ placeholder.content args = joinArgs args ∧
        ∀ mark after, Fits args placeholder mark after →
          hasReplacementPattern (joinArgs args) = false)
    (h : ReadsTemplateOnly args template) :
    replaceAllText pattern (joinArgs args) (textBefore args stage template) =
      .ok (textBefore args (stage + 1) template) := by
  refine h.replaceAll_stageText stage ?_ ?_
  · intro text hNot
    rw [hFound, Option.not_isSome_iff_eq_none] at hNot
    exact hNot
  · intro placeholder mark after hRank hFits
    obtain ⟨hSame, hContent, hPlain⟩ := hMark placeholder hRank
    obtain rfl : mark = pattern := hFits.1.trans hSame
    refine ⟨hPattern, (), ?_, fun before after => ?_⟩
    · rw [literalAt, if_pos (List.isPrefixOf_iff_prefix.mpr (List.prefix_append mark after))]
    · rw [getSubstitution_eq_self (hPlain _ _ hFits), hContent]

theorem replaceAllText_arguments (h : ReadsTemplateOnly args template) :
    replaceAllText argumentsPattern (joinArgs args) (textBefore args 0 template) =
      .ok (textBefore args 1 template) := by
  refine replaceAllText_stage (by decide) (fun _ => rfl) ?_ h
  rintro (_ | _ | _ | _) ⟨⟩
  exact ⟨rfl, rfl, fun _ _ hFits => hFits.2.2⟩

theorem replaceAllText_all (h : ReadsTemplateOnly args template) :
    replaceAllText atPattern (joinArgs args) (textBefore args 1 template) =
      .ok (textBefore args 2 template) := by
  refine replaceAllText_stage (by decide) (fun _ => rfl) ?_ h
  rintro (_ | _ | _ | _) ⟨⟩
  exact ⟨rfl, rfl, fun _ _ hFits => hFits.2.2⟩

theorem replaceAll_slices (h : ReadsTemplateOnly args template) :
    replaceAll (sliceAt Char.isDigit) (fun (start, length) _ _ => sliceArgs args start length)
      (textBefore args 2 template) = .ok (textBefore args 3 template) := by
  refine h.replaceAll_stageText 2 (fun text hNot => Option.not_isSome_iff_eq_none.mp hNot) ?_
  rintro (_ | _ | ⟨start, length⟩ | _) mark after ⟨⟩ ⟨rfl, hFormed, hPositive⟩
  refine ⟨mark_ne_nil _, (start, length), ?_, fun before after => ?_⟩
  · exact (sliceAt_eq_some_iff (by decide) (by decide)).mpr ⟨after, rfl, hFormed.1, hFormed.2, rfl⟩
  · dsimp only
    rw [sliceArgs, if_neg hPositive]
    cases length <;> rfl

theorem replaceAll_positionals (h : ReadsTemplateOnly args template) :
    replaceAll (ε := String) (positionalAt Char.isDigit)
      (fun number _ _ => .ok (positionalArg args (digitsValue number)))
      (textBefore args 3 template) = .ok (textBefore args 4 template) := by
  refine h.replaceAll_stageText 3 (fun text hNot => Option.not_isSome_iff_eq_none.mp hNot) ?_
  rintro (_ | _ | _ | number) mark after ⟨⟩ ⟨rfl, ⟨hNonempty, hDigits⟩, hAfter⟩
  refine ⟨mark_ne_nil _, number, ?_, fun before after => rfl⟩
  exact positionalAt_eq_some_iff.mpr ⟨after, rfl, hNonempty, hDigits, hAfter, rfl⟩

end Stages

theorem cut_pieces (text : String) : Cut placeholderAt (pieces text) :=
  cut_piecesFrom covers_placeholderAt 0 text.toList

/-- Pass by pass, the text becomes the simultaneous replacement. -/
theorem ReadsTemplateOnly.substituteArgs_eq {text : String}
    (hReads : ReadsTemplateOnly args (pieces text)) :
    substituteArgs text args = .ok (simultaneous text args) := by
  have hText : text.toList = textBefore args 0 (pieces text) := by
    rw [textBefore, stageText_eq_spell fun _ _ _ => Nat.zero_le _, pieces,
      spell_piecesFrom covers_placeholderAt, List.drop_zero]
  rw [substituteArgs, substitute, hText, replaceAllText_arguments hReads]
  dsimp only [bind, Except.bind]
  rw [replaceAllText_all hReads]
  dsimp only
  rw [replaceAll_slices hReads]
  dsimp only
  rw [replaceAll_positionals hReads]
  rfl

/-- Arguments are inserted as they are where only the placeholders of the template are read. -/
theorem substituteArgs_eq_simultaneous {text : String} (args : List String)
    (hSlices : ∀ piece ∈ pieces text, startsAtZero piece = false)
    (hInert : isInert args (pieces text)) :
    substituteArgs text args = .ok (simultaneous text args) :=
  (readsTemplateOnly_of_isInert (cut_pieces text) hSlices hInert).substituteArgs_eq

/-- Issue text with dollar signs, in a template that keeps a shell variable. -/
theorem implement_prompt_verbatim :
    substituteArgs "issue $1: $\x7b@:2\x7d in $HOME" ["12", "$\x7bX\x7d, $@ and $$"] =
        .ok (simultaneous "issue $1: $\x7b@:2\x7d in $HOME" ["12", "$\x7bX\x7d, $@ and $$"]) ∧
      simultaneous "issue $1: $\x7b@:2\x7d in $HOME" ["12", "$\x7bX\x7d, $@ and $$"] =
        "issue 12: $\x7bX\x7d, $@ and $$ in $HOME" := by
  refine ⟨substituteArgs_eq_simultaneous _ ?_ ?_, ?_⟩
  · decide +kernel
  · decide +kernel
  · decide +kernel

/-- `$2` in an argument is read as a placeholder, `$$` as a replacement pattern, and what a slice
leaves may make a placeholder. -/
theorem inserted_text_is_read :
    substituteArgs "$ARGUMENTS" ["see $2", "b"] = .ok "see b b" ∧
      simultaneous "$ARGUMENTS" ["see $2", "b"] = "see $2 b" ∧
      substituteArgs "$@" ["$$"] = .ok "$" ∧ simultaneous "$@" ["$$"] = "$$" ∧
      substituteArgs "$$\x7b@:9\x7d1" ["a"] = .ok "a" ∧
      simultaneous "$$\x7b@:9\x7d1" ["a"] = "$1" := by
  decide +kernel

end MxAgent.System.PromptArguments
