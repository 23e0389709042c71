import Mathlib.Data.List.Infix
import MxAgent.Adw.Shlex

/-! When the two drivers split a gate command into the same arguments. -/
namespace MxAgent.System.GateCommands

open Adw Fallible

/-- Where a text stands in the pattern of the quoted parts. -/
inductive Place where
  | between
  | word
  | quoted (quote : Char)
  | closed

/-- Every quoted part is a word of its own, and the others have no quotes and no space that only
JavaScript splits at. -/
def isApart : Place → List Char → Bool
  | _, [] => true
  | .between, c :: text =>
    if isBlankChar c then isApart .between text
    else if isQuote c then isApart (.quoted c) text
    else !isSpace c && isApart .word text
  | .word, c :: text =>
    if isBlankChar c then isApart .between text
    else !isQuote c && !isSpace c && isApart .word text
  | .quoted quote, c :: text =>
    if c == quote then isApart .closed text else isApart (.quoted quote) text
  | .closed, c :: text => isBlankChar c && isApart .between text

/-- What a character that escapes nothing is to the two drivers. -/
inductive Kind (c : Char) : Prop
  | blank (hBlank : isBlankChar c) (hQuote : isQuote c = false) (hSpace : isSpace c)
  | quote (hBlank : isBlankChar c = false) (hQuote : isQuote c) (hSpace : isSpace c = false)
  | foreign (hBlank : isBlankChar c = false) (hQuote : isQuote c = false)
    (hSpace : isSpace c)
  | plain (hBlank : isBlankChar c = false) (hQuote : isQuote c = false) (hSpace : isSpace c = false)

theorem isSpace_of_isBlankChar {c : Char} (h : isBlankChar c) : isSpace c := by
  simp only [isBlankChar, Bool.or_eq_true, beq_iff_eq] at h
  obtain ((rfl | rfl) | rfl) | rfl := h <;> decide

theorem isSpace_of_isQuote {c : Char} (h : isQuote c) : isSpace c = false := by
  simp only [isQuote, Bool.or_eq_true, beq_iff_eq] at h
  unfold isSpace
  obtain h | h := h <;> rw [h] <;> decide

theorem kind (c : Char) : Kind c := by
  cases hBlank : isBlankChar c with
  | true =>
    have hSpace : isSpace c := isSpace_of_isBlankChar hBlank
    refine .blank hBlank (Bool.eq_false_of_not_eq_true fun hQuote => ?_) hSpace
    exact absurd (hSpace.symm.trans (isSpace_of_isQuote hQuote)) (by decide)
  | false =>
    cases hQuote : isQuote c with
    | true => exact .quote hBlank hQuote (isSpace_of_isQuote hQuote)
    | false =>
      cases hSpace : isSpace c with
      | true => exact .foreign hBlank hQuote hSpace
      | false => exact .plain hBlank hQuote hSpace

/-- A space to JavaScript only. -/
def isForeign (c : Char) : Bool := isSpace c && !isBlankChar c

/-- How many such spaces the words have. -/
def foreignIn (words : List String) : Nat := (words.flatMap String.toList).countP isForeign

theorem foreignIn_cons (token : List Char) (words : List String) :
    foreignIn (String.ofList token.reverse :: words) =
      token.countP isForeign + foreignIn words := by
  rw [foreignIn, List.flatMap_cons, List.countP_append, String.toList_ofList,
    List.countP_reverse, foreignIn]

theorem foreignIn_replicate (k : Nat) (words : List String) :
    foreignIn (List.replicate k "" ++ words) = foreignIn words := by
  induction k with
  | zero => rfl
  | succ k ih => exact ih

theorem isForeign_of_isBlankChar {c : Char} (h : isBlankChar c) : isForeign c = false := by
  rw [isForeign, h, Bool.not_true, Bool.and_false]

theorem isForeign_of_isQuote {c : Char} (h : isQuote c) : isForeign c = false := by
  rw [isForeign, isSpace_of_isQuote h, Bool.false_and]

def tokenOf : SplitMode → List Char
  | .between => []
  | .word token | .quoted _ token => token

variable {c quote : Char} {text token : List Char} {words : List String} {wasQuoted : Bool}
  {state : LexState}

theorem emitToken_eq (h : token ≠ [] ∨ wasQuoted) (words : List String) :
    emitToken token wasQuoted words = String.ofList token.reverse :: words := by
  rw [emitToken, if_neg]
  intro hSkip
  simp_all

/-- Python is inside a token that has these characters. -/
inductive Begun : LexState → List Char → Prop
  | word {token : List Char} {wasQuoted : Bool} (h : token ≠ [] ∨ wasQuoted) :
    Begun (.word token wasQuoted) token
  | quoted {quote : Char} {token : List Char} (hQuote : isQuote quote) :
    Begun (.quoted quote token) token

theorem Begun.at_end (hState : Begun state token) (h : lexFrom state [] = .ok words) :
    words = [String.ofList token.reverse] := by
  cases hState with
  | word hToken =>
    rw [lexFrom, emitToken_eq hToken, Except.ok.injEq] at h
    exact h.symm
  | quoted hQuote => cases h

theorem lexFrom_between_cons (hEscape : c ≠ backslash) (text : List Char) :
    lexFrom .between (c :: text) =
      if isBlankChar c then lexFrom .between text
      else if isQuote c then lexFrom (.quoted c []) text else lexFrom (.word [c] false) text := by
  rw [lexFrom, beq_false_of_ne hEscape, if_neg Bool.false_ne_true]

theorem lexFrom_word_cons (hEscape : c ≠ backslash) (h : token ≠ [] ∨ wasQuoted)
    (text : List Char) :
    lexFrom (.word token wasQuoted) (c :: text) =
      if isBlankChar c then (lexFrom .between text).map (String.ofList token.reverse :: ·)
      else if isQuote c then lexFrom (.quoted c token) text
      else lexFrom (.word (c :: token) wasQuoted) text := by
  rw [lexFrom, beq_false_of_ne hEscape, if_neg Bool.false_ne_true, funext (emitToken_eq h)]

theorem lexFrom_quoted_cons (hEscape : c ≠ backslash) (text : List Char) :
    lexFrom (.quoted quote token) (c :: text) =
      if c == quote then lexFrom (.word token true) text
      else lexFrom (.quoted quote (c :: token)) text := by
  rw [lexFrom, beq_false_of_ne hEscape, Bool.false_and, if_neg Bool.false_ne_true]

/-- Inside a token Python ends it, drops a quote or keeps the character. -/
theorem Begun.step (hState : Begun state token) (hEscape : c ≠ backslash)
    (h : lexFrom state (c :: text) = .ok words) :
    (isBlankChar c ∧ ∃ rest, lexFrom .between text = .ok rest ∧
      String.ofList token.reverse :: rest = words) ∨
    (isQuote c ∧ ∃ next, Begun next token ∧ lexFrom next text = .ok words) ∨
    ∃ next, Begun next (c :: token) ∧ lexFrom next text = .ok words := by
  cases hState with
  | word hToken =>
    rw [lexFrom_word_cons hEscape hToken] at h
    split at h
    · rename_i hBlank
      exact .inl ⟨hBlank, map_eq_ok.mp h⟩
    · split at h
      · rename_i hQuote
        exact .inr (.inl ⟨hQuote, _, .quoted hQuote, h⟩)
      · exact .inr (.inr ⟨_, .word (.inl (List.cons_ne_nil _ _)), h⟩)
  | quoted hQuote =>
    rw [lexFrom_quoted_cons hEscape] at h
    split at h
    · rename_i hClose
      exact .inr (.inl ⟨beq_iff_eq.mp hClose ▸ hQuote, _, .word (.inr rfl), h⟩)
    · exact .inr (.inr ⟨_, .quoted hQuote, h⟩)

/-- The first word goes on from a token. -/
def Extends (token : List Char) (words : List String) : Prop :=
  ∃ more rest, words = String.ofList (token.reverse ++ more) :: rest

theorem Begun.extends (hState : Begun state token) (hPlain : backslash ∉ text)
    (h : lexFrom state text = .ok words) : Extends token words := by
  induction text generalizing state token with
  | nil => exact ⟨[], [], by rw [hState.at_end h, List.append_nil]⟩
  | cons c text ih =>
    have hRest : backslash ∉ text := List.not_mem_of_not_mem_cons hPlain
    obtain ⟨-, rest, -, rfl⟩ | ⟨-, next, hNext, hWords⟩ | ⟨next, hNext, hWords⟩ :=
      hState.step (List.ne_of_not_mem_cons hPlain).symm h
    · exact ⟨[], rest, by rw [List.append_nil]⟩
    · exact ih hNext hRest hWords
    · obtain ⟨more, rest, hMore⟩ := ih hNext hRest hWords
      exact ⟨c :: more, rest, by simp [hMore]⟩

theorem foreignIn_lexFrom (hPlain : backslash ∉ text) :
    (∀ words, lexFrom .between text = .ok words → text.countP isForeign ≤ foreignIn words) ∧
    (∀ state token words, Begun state token → lexFrom state text = .ok words →
      token.countP isForeign + text.countP isForeign ≤ foreignIn words) := by
  induction text with
  | nil =>
    refine ⟨fun words h => Nat.zero_le _, fun state token words hState h => ?_⟩
    rw [hState.at_end h]
    exact (foreignIn_cons token []).ge
  | cons c text ih =>
    have hEscape : c ≠ backslash := (List.ne_of_not_mem_cons hPlain).symm
    obtain ⟨hBetween, hBegun⟩ := ih (List.not_mem_of_not_mem_cons hPlain)
    constructor
    · intro words h
      rw [lexFrom_between_cons hEscape] at h
      rw [List.countP_cons]
      split at h
      · rename_i hBlank
        rw [isForeign_of_isBlankChar hBlank]
        exact hBetween words h
      · split at h
        · rename_i hQuote
          have hCount := hBegun _ _ words (.quoted hQuote) h
          rw [List.countP_nil, Nat.zero_add] at hCount
          rw [isForeign_of_isQuote hQuote]
          exact hCount
        · have hCount := hBegun _ _ words (.word (.inl (List.cons_ne_nil _ _))) h
          rw [List.countP_cons, List.countP_nil] at hCount
          omega
    · intro state token words hState h
      rw [List.countP_cons]
      obtain ⟨hBlank, rest, hRest, rfl⟩ | ⟨hQuote, next, hNext, hWords⟩ | ⟨next, hNext, hWords⟩ :=
        hState.step hEscape h
      · rw [isForeign_of_isBlankChar hBlank, foreignIn_cons]
        exact Nat.add_le_add_left (hBetween rest hRest) _
      · rw [isForeign_of_isQuote hQuote]
        exact hBegun _ _ words hNext hWords
      · have hCount := hBegun _ _ words hNext hWords
        rw [List.countP_cons] at hCount
        omega

theorem foreignIn_splitFrom (mode : SplitMode) (text : List Char) :
    foreignIn (splitFrom mode text) ≤
      (tokenOf mode).countP isForeign + text.countP isForeign := by
  have hNil : foreignIn [] = 0 := rfl
  fun_induction splitFrom mode text <;>
    simp only [tokenOf, foreignIn_cons, List.countP_cons, List.countP_nil] at * <;> omega

theorem cons_ne_cons_of_length {a b : List Char} (h : a.length ≠ b.length) (x y : List String) :
    String.ofList a :: x ≠ String.ofList b :: y :=
  fun hEq => h (congrArg List.length (String.ofList_injective (List.cons.inj hEq).1))

theorem Extends.ne_of_length {shorter : List Char} (h : Extends token words)
    (hLength : shorter.length < token.length) (rest : List String) :
    String.ofList shorter.reverse :: rest ≠ words := by
  obtain ⟨more, tail, rfl⟩ := h
  apply cons_ne_cons_of_length
  rw [List.length_append, List.length_reverse, List.length_reverse]
  omega

theorem Extends.ne_empty (h : Extends (c :: token) words) (rest : List String) :
    "" :: rest ≠ words := by
  have hLength : ([] : List Char).length < (c :: token).length := Nat.succ_pos _
  exact h.ne_of_length hLength rest

theorem Extends.ne_of_isSpace {spaceless : List Char} (h : Extends (c :: token) words)
    (hSpace : isSpace c) (hNone : ∀ d ∈ spaceless, isSpace d = false)
    (rest : List String) : String.ofList spaceless.reverse :: rest ≠ words := by
  rintro rfl
  obtain ⟨more, tail, hWords⟩ := h
  have hMem : c ∈ spaceless := by
    rw [← List.mem_reverse, String.ofList_injective (List.cons.inj hWords).1]
    simp
  exact absurd (hSpace.symm.trans (hNone c hMem)) (by decide)

/-- Once Python has dropped a quote that JavaScript keeps, its word is shorter. -/
theorem Begun.splitFrom_ne {longer : List Char} (hState : Begun state token)
    (hPlain : backslash ∉ text) (hLonger : ∀ d ∈ longer, isSpace d = false)
    (hLength : token.length < longer.length) (h : lexFrom state text = .ok words) :
    splitFrom (.word longer) text ≠ words := by
  induction text generalizing state token longer with
  | nil => exact hState.at_end h ▸ cons_ne_cons_of_length (by simp; omega) _ _
  | cons c text ih =>
    have hRest : backslash ∉ text := List.not_mem_of_not_mem_cons hPlain
    have hLonger' : isSpace c = false → ∀ d ∈ c :: longer, isSpace d = false := fun hSpace =>
      List.forall_mem_cons.mpr ⟨hSpace, hLonger⟩
    rw [splitFrom]
    obtain ⟨hBlank, rest, -, rfl⟩ | ⟨hQuote, next, hNext, hWords⟩ | ⟨next, hNext, hWords⟩ :=
      hState.step (List.ne_of_not_mem_cons hPlain).symm h
    · rw [if_pos (isSpace_of_isBlankChar hBlank)]
      exact cons_ne_cons_of_length (by simp; omega) _ _
    · have hSpace : isSpace c = false := isSpace_of_isQuote hQuote
      rw [hSpace, if_neg Bool.false_ne_true]
      exact ih hNext hRest (hLonger' hSpace) (Nat.lt_succ_of_lt hLength) hWords
    · cases hSpace : isSpace c with
      | true =>
        rw [if_pos rfl]
        exact (hNext.extends hRest hWords).ne_of_isSpace hSpace hLonger _
      | false =>
        rw [if_neg Bool.false_ne_true]
        exact ih hNext hRest (hLonger' hSpace) (Nat.succ_lt_succ hLength) hWords

/-- A quote that Python finds closed is there again. -/
theorem mem_of_lexFrom_quoted (hPlain : backslash ∉ text)
    (h : lexFrom (.quoted quote token) text = .ok words) : quote ∈ text := by
  induction text generalizing token with
  | nil => cases h
  | cons c text ih =>
    rw [lexFrom_quoted_cons (List.ne_of_not_mem_cons hPlain).symm] at h
    split at h
    · rename_i hClose
      exact beq_iff_eq.mp hClose ▸ List.mem_cons_self
    · exact List.mem_cons_of_mem _ (ih (List.not_mem_of_not_mem_cons hPlain) h)

/-- Where the drivers stand alike, they get the same words just from texts whose parts are apart.
JavaScript may be ahead by empty words, for good. -/
structure Agrees (text : List Char) : Prop where
  between {k : Nat} {words : List String} (h : lexFrom .between text = .ok words) :
    List.replicate k "" ++ splitFrom .between text = words ↔
      k = 0 ∧ isApart .between text
  word {token : List Char} {words : List String} (hToken : token ≠ [])
    (hNone : ∀ d ∈ token, isSpace d = false) (h : lexFrom (.word token false) text = .ok words) :
    splitFrom (.word token) text = words ↔ isApart .word text
  quoted {quote : Char} {token : List Char} {k : Nat} {words : List String}
    (hQuote : isQuote quote) (h : lexFrom (.quoted quote token) text = .ok words) :
    List.replicate k "" ++ splitFrom (.quoted quote token) text = words ↔
      k = 0 ∧ isApart (.quoted quote) text
  closed {token : List Char} {k : Nat} {words : List String}
    (h : lexFrom (.word token true) text = .ok words) :
    String.ofList token.reverse :: (List.replicate k "" ++ splitFrom .between text) = words ↔
      k = 0 ∧ isApart .closed text
  adjacent {quote : Char} {token : List Char} {k : Nat} {words : List String}
    (hQuote : isQuote quote) (h : lexFrom (.quoted quote token) text = .ok words) :
    String.ofList token.reverse :: (List.replicate k "" ++ splitFrom (.quoted quote []) text) ≠
      words

theorem replicate_append_cons {α : Type} (k : Nat) (a : α) (l : List α) :
    List.replicate k a ++ a :: l = a :: (List.replicate k a ++ l) := by
  rw [List.append_cons, ← List.replicate_succ', List.replicate_succ, List.cons_append]

theorem agrees_nil : Agrees [] where
  between h := by
    cases h
    simp [splitFrom, isApart]
  word hToken _ h := by
    rw [lexFrom, emitToken_eq (.inl hToken), Except.ok.injEq] at h
    simp [splitFrom, isApart, h]
  quoted _ h := by cases h
  closed h := by
    rw [lexFrom, emitToken_eq (.inr rfl), Except.ok.injEq] at h
    simp [splitFrom, isApart, ← h]
  adjacent _ h := by cases h

section Cons

variable (hText : Agrees text) (hPlain : backslash ∉ text) {k : Nat}

include hText hPlain

theorem Agrees.replicate_closed (h : lexFrom (.word token true) text = .ok words) :
    List.replicate k "" ++ String.ofList token.reverse :: splitFrom .between text = words ↔
      k = 0 ∧ isApart .closed text := by
  cases k with
  | zero => exact hText.closed (k := 0) h
  | succ k =>
    refine iff_of_false (fun hWords => ?_) (fun hZero => Nat.succ_ne_zero k hZero.1)
    cases token with
    | nil =>
      have hAhead : String.ofList ([] : List Char).reverse ::
          (List.replicate (k + 1) "" ++ splitFrom .between text) = words := by
        rw [← hWords]
        exact (replicate_append_cons ..).symm
      exact Nat.succ_ne_zero k ((hText.closed h).mp hAhead).1
    | cons c token =>
      have hExtends : Extends (c :: token) words := Begun.extends (.word (.inr rfl)) hPlain h
      exact hExtends.ne_empty _ hWords

variable (hEscape : c ≠ backslash)

include hEscape

theorem Agrees.between_cons (h : lexFrom .between (c :: text) = .ok words) :
    List.replicate k "" ++ splitFrom .between (c :: text) = words ↔
      k = 0 ∧ isApart .between (c :: text) := by
  rw [lexFrom_between_cons hEscape] at h
  rw [splitFrom, isApart]
  cases kind c with
  | blank hBlank hQuote hSpace =>
    simp only [hBlank, hQuote, hSpace, if_true, Bool.false_and, Bool.false_eq_true, if_false]
      at h ⊢
    exact hText.between h
  | quote hBlank hQuote hSpace =>
    simp only [hBlank, hQuote, if_true, Bool.true_and, Bool.false_eq_true, if_false] at h ⊢
    rw [if_pos (List.contains_iff_mem.mpr (mem_of_lexFrom_quoted hPlain h))]
    exact hText.quoted hQuote h
  | foreign hBlank hQuote hSpace =>
    simp only [hBlank, hQuote, hSpace, if_true, Bool.false_and, Bool.false_eq_true, if_false,
      Bool.not_true, and_false, iff_false] at h ⊢
    -- JavaScript has lost the space, and Python has not.
    rintro rfl
    have hForeign : isForeign c := by
      rw [isForeign, hSpace, hBlank]
      rfl
    have hPython := (foreignIn_lexFrom hPlain).2 _ _ _ (.word (.inl (List.cons_ne_nil _ _))) h
    have hJs := foreignIn_splitFrom .between text
    rw [foreignIn_replicate, List.countP_cons, hForeign, List.countP_nil,
      if_pos rfl] at hPython
    rw [tokenOf, List.countP_nil] at hJs
    omega
  | plain hBlank hQuote hSpace =>
    simp only [hBlank, hQuote, hSpace, Bool.false_and, Bool.false_eq_true, if_false,
      Bool.not_false, Bool.true_and] at h ⊢
    cases k with
    | zero =>
      have hNone : ∀ d ∈ [c], isSpace d = false := by simpa using hSpace
      simpa using hText.word (List.cons_ne_nil c []) hNone h
    | succ k =>
      have hExtends : Extends [c] words :=
        Begun.extends (.word (.inl (List.cons_ne_nil _ _))) hPlain h
      exact iff_of_false (hExtends.ne_empty _) fun hZero => Nat.succ_ne_zero k hZero.1

theorem Agrees.word_cons (hToken : token ≠ []) (hNone : ∀ d ∈ token, isSpace d = false)
    (h : lexFrom (.word token false) (c :: text) = .ok words) :
    splitFrom (.word token) (c :: text) = words ↔ isApart .word (c :: text) := by
  rw [lexFrom_word_cons hEscape (.inl hToken)] at h
  rw [splitFrom, isApart]
  cases kind c with
  | blank hBlank hQuote hSpace =>
    simp only [hBlank, hSpace, if_true] at h ⊢
    obtain ⟨rest, hRest, rfl⟩ := map_eq_ok.mp h
    simpa using hText.between (k := 0) hRest
  | quote hBlank hQuote hSpace =>
    simp only [hBlank, hQuote, hSpace, if_true, Bool.false_eq_true, if_false, Bool.not_true,
      Bool.false_and, iff_false] at h ⊢
    exact Begun.splitFrom_ne (.quoted hQuote) hPlain (List.forall_mem_cons.mpr ⟨hSpace, hNone⟩)
      (Nat.lt_succ_self _) h
  | foreign hBlank hQuote hSpace =>
    simp only [hBlank, hQuote, hSpace, if_true, Bool.false_eq_true, if_false, Bool.not_true,
      Bool.and_false, Bool.false_and, iff_false] at h ⊢
    have hExtends : Extends (c :: token) words :=
      Begun.extends (.word (.inl (List.cons_ne_nil _ _))) hPlain h
    exact hExtends.ne_of_length (Nat.lt_succ_self _) _
  | plain hBlank hQuote hSpace =>
    simp only [hBlank, hQuote, hSpace, Bool.false_eq_true, if_false, Bool.not_false,
      Bool.true_and] at h ⊢
    exact hText.word (List.cons_ne_nil _ _) (List.forall_mem_cons.mpr ⟨hSpace, hNone⟩) h

theorem Agrees.quoted_cons (hQuote : isQuote quote)
    (h : lexFrom (.quoted quote token) (c :: text) = .ok words) :
    List.replicate k "" ++ splitFrom (.quoted quote token) (c :: text) = words ↔
      k = 0 ∧ isApart (.quoted quote) (c :: text) := by
  rw [lexFrom_quoted_cons hEscape] at h
  rw [splitFrom, isApart]
  split at h
  · rename_i hClose
    rw [if_pos hClose, if_pos hClose]
    exact hText.replicate_closed hPlain h
  · rename_i hOpen
    rw [if_neg hOpen, if_neg hOpen]
    exact hText.quoted hQuote h

theorem Agrees.closed_cons (h : lexFrom (.word token true) (c :: text) = .ok words) :
    String.ofList token.reverse :: (List.replicate k "" ++ splitFrom .between (c :: text)) =
      words ↔ k = 0 ∧ isApart .closed (c :: text) := by
  rw [lexFrom_word_cons hEscape (.inr rfl)] at h
  rw [isApart]
  cases kind c with
  | blank hBlank hQuote hSpace =>
    simp only [splitFrom, hBlank, hQuote, hSpace, if_true, Bool.false_and, Bool.false_eq_true,
      if_false, Bool.true_and] at h ⊢
    obtain ⟨rest, hRest, rfl⟩ := map_eq_ok.mp h
    rw [List.cons.injEq, and_iff_right rfl]
    exact hText.between hRest
  | quote hBlank hQuote hSpace =>
    simp only [splitFrom, hBlank, hQuote, if_true, Bool.false_and, Bool.false_eq_true, if_false,
      Bool.true_and, and_false, iff_false] at h ⊢
    rw [if_pos (List.contains_iff_mem.mpr (mem_of_lexFrom_quoted hPlain h))]
    exact hText.adjacent hQuote h
  | _ hBlank hQuote hSpace =>
    simp only [hBlank, hQuote, Bool.false_and, Bool.false_eq_true, if_false, and_false,
      iff_false] at h ⊢
    have hExtends : Extends (c :: token) words :=
      Begun.extends (.word (.inl (List.cons_ne_nil _ _))) hPlain h
    exact hExtends.ne_of_length (Nat.lt_succ_self _) _

theorem Agrees.adjacent_cons (hQuote : isQuote quote)
    (h : lexFrom (.quoted quote token) (c :: text) = .ok words) :
    String.ofList token.reverse ::
      (List.replicate k "" ++ splitFrom (.quoted quote []) (c :: text)) ≠ words := by
  rw [lexFrom_quoted_cons hEscape] at h
  rw [splitFrom]
  split at h
  · rename_i hClose
    rw [if_pos hClose]
    intro hWords
    have hAhead : String.ofList token.reverse ::
        (List.replicate (k + 1) "" ++ splitFrom .between text) = words := by
      rw [← hWords]
      exact congrArg _ (replicate_append_cons k "" _).symm
    exact Nat.succ_ne_zero k ((hText.closed h).mp hAhead).1
  · have hExtends : Extends (c :: token) words := Begun.extends (.quoted hQuote) hPlain h
    exact hExtends.ne_of_length (Nat.lt_succ_self _) _

end Cons

/-- Both drivers agree on every text without a backslash. -/
theorem agrees (hPlain : backslash ∉ text) : Agrees text := by
  induction text with
  | nil => exact agrees_nil
  | cons c text ih =>
    have hRest : backslash ∉ text := List.not_mem_of_not_mem_cons hPlain
    have hEscape : c ≠ backslash := (List.ne_of_not_mem_cons hPlain).symm
    have hText : Agrees text := ih hRest
    exact ⟨hText.between_cons hRest hEscape, hText.word_cons hRest hEscape,
      hText.quoted_cons hRest hEscape, hText.closed_cons hRest hEscape,
      hText.adjacent_cons hRest hEscape⟩

/-- The drivers split a command without backslashes alike just if its quoted parts are words of
their own and the others have no space only JavaScript splits at. -/
theorem shellSplit_eq_iff {command : String} {words : List String}
    (hPlain : '\\' ∉ command.toList) (hSplit : shlexSplit command = .ok words) :
    shellSplit command = words ↔ isApart .between command.toList := by
  have hAgrees := (agrees hPlain).between (k := 0) hSplit
  rwa [List.replicate_zero, List.nil_append, and_iff_right rfl] at hAgrees

theorem quoted_words_split_alike :
    shlexSplit "cargo test 'it works' \"\"" = .ok ["cargo", "test", "it works", ""] ∧
      shellSplit "cargo test 'it works' \"\"" = ["cargo", "test", "it works", ""] :=
  ⟨rfl, (shellSplit_eq_iff (by decide) rfl).mpr (by decide)⟩

/-- Parts of one word taken apart, quotes kept, and a no-break space. -/
theorem adjacent_parts_split_apart :
    (shlexSplit "echo 'it''s'" = .ok ["echo", "its"] ∧
      shellSplit "echo 'it''s'" = ["echo", "it", "s"]) ∧
    (shlexSplit "cargo test --features=\"a b\"" = .ok ["cargo", "test", "--features=a b"] ∧
      shellSplit "cargo test --features=\"a b\"" =
        ["cargo", "test", "--features=\"a", "b\""]) ∧
    (shlexSplit "ls a\u00a0b" = .ok ["ls", "a\u00a0b"] ∧
      shellSplit "ls a\u00a0b" = ["ls", "a", "b"]) := by
  decide

end MxAgent.System.GateCommands
