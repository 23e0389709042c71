import Mathlib.Data.List.Basic
import MxAgent.Foundations.Fallible

/-! Replacing every match of a pattern in a text, from left to right and without looking again
at what was inserted. A text is cut into pieces, symbols and holes; a pass whose pattern finds
some of the holes, and nothing else, fills these holes. -/
namespace GlobalReplace

variable {α β γ ε : Type}

/-- What a pattern finds at the start of a text: a value, and how many symbols it covers. -/
abbrev Finder (α β : Type) := List α → Option (β × Nat)

/-- Replace the matches in a text whose first `skip` symbols belong to a match already. The
replacement may depend on the text around the match. -/
def replaceFrom (find : Finder α β) (render : β → List α → List α → Except ε (List α)) :
    (skip : Nat) → (before : List α) → List α → Except ε (List α)
  | _, _, [] => .ok []
  | skip + 1, before, a :: rest => replaceFrom find render skip (before ++ [a]) rest
  | 0, before, a :: rest =>
    match find (a :: rest) with
    | none => (replaceFrom find render 0 (before ++ [a]) rest).map (a :: ·)
    | some (value, length) => do
      let inserted ← render value before ((a :: rest).drop length)
      let replaced ← replaceFrom find render (length - 1) (before ++ [a]) rest
      pure (inserted ++ replaced)

/-- Replace every match in a text. -/
def replaceAll (find : Finder α β) (render : β → List α → List α → Except ε (List α))
    (text : List α) : Except ε (List α) :=
  replaceFrom find render 0 [] text

/-- A pass that finds nothing does nothing. -/
theorem replaceFrom_of_no_match {find : Finder α β}
    {render : β → List α → List α → Except ε (List α)} {text : List α}
    (h : ∀ suffix, suffix <:+ text → find suffix = none) (before : List α) :
    replaceFrom find render 0 before text = .ok text := by
  induction text generalizing before with
  | nil => rfl
  | cons a rest ih =>
    rw [replaceFrom, h _ (List.suffix_refl _)]
    dsimp only
    rw [ih fun suffix hSuffix => h suffix (hSuffix.trans (List.suffix_cons a rest))]
    rfl

/-! ## Pieces -/

variable {find : Finder α β}

/-- A symbol that stands for itself, or a hole with the text that marks it. -/
inductive Piece (α β : Type) where
  | literal (a : α)
  | hole (value : β) (mark : List α)

def Piece.text : Piece α β → List α
  | .literal a => [a]
  | .hole _ mark => mark

def spell (pieces : List (Piece α β)) : List α := pieces.flatMap Piece.text

/-- The pieces of a text, of which the first `skip` symbols are matched. -/
def piecesFrom (find : Finder α β) : (skip : Nat) → List α → List (Piece α β)
  | _, [] => []
  | skip + 1, _ :: rest => piecesFrom find skip rest
  | 0, a :: rest =>
    match find (a :: rest) with
    | none => .literal a :: piecesFrom find 0 rest
    | some (value, length) =>
      .hole value ((a :: rest).take length) :: piecesFrom find (length - 1) rest

/-- A match covers a symbol at least, and no more than there are. -/
def Covers (find : Finder α β) : Prop :=
  ∀ text value length, find text = some (value, length) → 0 < length ∧ length ≤ text.length

@[simp] theorem spell_literal (a : α) (pieces : List (Piece α β)) :
    spell (.literal a :: pieces) = a :: spell pieces := rfl

@[simp] theorem spell_hole (value : β) (mark : List α) (pieces : List (Piece α β)) :
    spell (.hole value mark :: pieces) = mark ++ spell pieces := rfl

/-- The pieces spell the text. -/
theorem spell_piecesFrom (hCovers : Covers find) (skip : Nat)
    (text : List α) : spell (piecesFrom find skip text) = text.drop skip := by
  induction text generalizing skip with
  | nil => cases skip <;> rfl
  | cons a rest ih =>
    cases skip with
    | succ skip => exact ih skip
    | zero =>
      rw [piecesFrom]
      cases hFound : find (a :: rest) with
      | none =>
        dsimp only
        rw [spell_literal, ih, List.drop_zero, List.drop_zero]
      | some found =>
        obtain ⟨value, length⟩ := found
        obtain ⟨hPos, -⟩ := hCovers _ value length hFound
        obtain ⟨length, rfl⟩ : ∃ shorter, length = shorter + 1 := ⟨length - 1, by omega⟩
        dsimp only
        rw [spell_hole, ih, Nat.add_sub_cancel, List.take_succ_cons, List.cons_append,
          List.take_append_drop, List.drop_zero]

/-- The pieces of a text: a symbol where nothing is found, a hole where something is. -/
inductive Cut (find : Finder α β) : List (Piece α β) → Prop where
  | nil : Cut find []
  | literal {a : α} {pieces : List (Piece α β)} (hNone : find (a :: spell pieces) = none)
      (hRest : Cut find pieces) : Cut find (.literal a :: pieces)
  | hole {value : β} {mark : List α} {pieces : List (Piece α β)}
      (hFound : find (mark ++ spell pieces) = some (value, mark.length))
      (hRest : Cut find pieces) : Cut find (.hole value mark :: pieces)

theorem cut_piecesFrom (hCovers : Covers find) (skip : Nat) (text : List α) :
    Cut find (piecesFrom find skip text) := by
  induction text generalizing skip with
  | nil => cases skip <;> exact .nil
  | cons a rest ih =>
    cases skip with
    | succ skip => exact ih skip
    | zero =>
      rw [piecesFrom]
      cases hFound : find (a :: rest) with
      | none =>
        refine .literal ?_ (ih 0)
        rw [spell_piecesFrom hCovers, List.drop_zero, hFound]
      | some found =>
        obtain ⟨value, length⟩ := found
        obtain ⟨hPos, hLength⟩ := hCovers _ value length hFound
        obtain ⟨length, rfl⟩ : ∃ shorter, length = shorter + 1 := ⟨length - 1, by omega⟩
        refine .hole ?_ (ih _)
        rw [spell_piecesFrom hCovers, Nat.add_sub_cancel, List.take_succ_cons, List.cons_append,
          List.take_append_drop, hFound, List.length_cons, List.length_take]
        rw [List.length_cons] at hLength
        simp
        omega

/-! ## What a pass finds -/

section Found

variable {ε' : Type} {find' : Finder α β} {render : β → Except ε (List α)}
  {pieces : List (Piece α β)} {value : β} {mark out : List α}

def Piece.hole? : Piece α β → Option (β × List α)
  | .literal _ => none
  | .hole value mark => some (value, mark)

/-- What a pass finds in a text, from left to right. -/
def found (find : Finder α β) (text : List α) : List β :=
  ((piecesFrom find 0 text).filterMap Piece.hole?).map Prod.fst

/-- The text that a pass takes away. -/
def marks (pieces : List (Piece α β)) : List α := (pieces.filterMap Piece.hole?).flatMap Prod.snd

theorem Piece.hole?_eq_some {piece : Piece α β} :
    piece.hole? = some (value, mark) ↔ piece = .hole value mark := by
  cases piece <;> simp [hole?]

theorem mem_found {text : List α} :
    value ∈ found find text ↔ ∃ mark, .hole value mark ∈ piecesFrom find 0 text := by
  simp [found, Piece.hole?_eq_some]

theorem mem_marks {a : α} :
    a ∈ marks pieces ↔ ∃ value mark, .hole value mark ∈ pieces ∧ a ∈ mark := by
  simp [marks, Piece.hole?_eq_some]

/-- A hole is where its pattern was found. -/
theorem suffix_of_mem_piecesFrom {skip : Nat} {text : List α}
    (h : .hole value mark ∈ piecesFrom find skip text) :
    ∃ suffix length, suffix <:+ text ∧ find suffix = some (value, length) ∧
      mark = suffix.take length := by
  induction text generalizing skip with
  | nil => cases skip <;> cases h
  | cons a rest ih =>
    have hRest {skip : Nat} (hMem : .hole value mark ∈ piecesFrom find skip rest) :
        ∃ suffix length, suffix <:+ a :: rest ∧ find suffix = some (value, length) ∧
          mark = suffix.take length := by
      obtain ⟨suffix, length, hSuffix, hFound⟩ := ih hMem
      exact ⟨suffix, length, hSuffix.trans (List.suffix_cons a rest), hFound⟩
    cases skip with
    | succ skip => exact hRest h
    | zero =>
      rw [piecesFrom] at h
      cases hFound : find (a :: rest) with
      | none =>
        rw [hFound] at h
        rcases List.mem_cons.mp h with hHead | hTail
        · cases hHead
        · exact hRest hTail
      | some hit =>
        obtain ⟨value', length⟩ := hit
        rw [hFound] at h
        rcases List.mem_cons.mp h with hHead | hTail
        · cases hHead
          exact ⟨a :: rest, length, List.suffix_refl _, hFound, rfl⟩
        · exact hRest hTail

/-- Matches begin with a symbol they have nowhere else, so none hides another. -/
theorem mem_piecesFrom_of_suffix (first : α)
    (hFirst : ∀ a rest, (find (a :: rest)).isSome → a = first)
    (hOnce : ∀ text value length, find text = some (value, length) →
      first ∉ (text.take length).tail)
    {suffix text : List α} {length skip : Nat} (hSuffix : suffix <:+ text) (hNonempty : suffix ≠ [])
    (hFound : find suffix = some (value, length)) (hSkip : first ∉ text.take skip) :
    ∃ mark, .hole value mark ∈ piecesFrom find skip text := by
  induction text generalizing skip with
  | nil => exact absurd (List.suffix_nil.mp hSuffix) hNonempty
  | cons a rest ih =>
    rcases List.suffix_cons_iff.mp hSuffix with rfl | hRest
    · obtain rfl := hFirst a rest (by rw [hFound]; rfl)
      cases skip with
      | succ skip => simp at hSkip
      | zero =>
        rw [piecesFrom, hFound]
        exact ⟨_, List.mem_cons_self⟩
    · cases skip with
      | succ skip => exact ih hRest fun hMem => hSkip (List.mem_cons_of_mem a hMem)
      | zero =>
        rw [piecesFrom]
        cases hHead : find (a :: rest) with
        | none =>
          have hNowhere : first ∉ rest.take 0 := by simp
          obtain ⟨mark, hMem⟩ := ih hRest hNowhere
          exact ⟨mark, List.mem_cons_of_mem _ hMem⟩
        | some hit =>
          obtain ⟨value', covered⟩ := hit
          have hTail : first ∉ rest.take (covered - 1) := by
            have hNowhere := hOnce _ value' covered hHead
            cases covered with
            | zero => simp
            | succ covered => simpa using hNowhere
          obtain ⟨mark, hMem⟩ := ih hRest hTail
          exact ⟨mark, List.mem_cons_of_mem _ hMem⟩

/-- Two patterns cut a text alike where they find the same. -/
theorem piecesFrom_congr (good : β → Prop) (hNone : ∀ text, find text = none → find' text = none)
    (hSome : ∀ text value length, find text = some (value, length) → good value →
      find' text = some (value, length)) {skip : Nat} {text : List α}
    (hGood : ∀ value mark, .hole value mark ∈ piecesFrom find skip text → good value) :
    piecesFrom find' skip text = piecesFrom find skip text := by
  induction text generalizing skip with
  | nil => cases skip <;> rfl
  | cons a rest ih =>
    cases skip with
    | succ skip => exact ih hGood
    | zero =>
      rw [piecesFrom] at hGood
      rw [piecesFrom, piecesFrom]
      cases hFound : find (a :: rest) with
      | none =>
        rw [hFound] at hGood
        rw [hNone _ hFound]
        exact congrArg _ (ih fun value mark hMem =>
          hGood value mark (List.mem_cons_of_mem _ hMem))
      | some hit =>
        obtain ⟨value, length⟩ := hit
        rw [hFound] at hGood
        rw [hSome _ value length hFound (hGood value _ List.mem_cons_self)]
        exact congrArg _ (ih fun value mark hMem =>
          hGood value mark (List.mem_cons_of_mem _ hMem))

/-- The pieces with every hole filled, by its value alone. -/
def fill (render : β → Except ε (List α)) : List (Piece α β) → Except ε (List α)
  | [] => .ok []
  | .literal a :: pieces => (fill render pieces).map (a :: ·)
  | .hole value _ :: pieces => do
    let inserted ← render value
    let filled ← fill render pieces
    pure (inserted ++ filled)

/-- Replacing every match is filling every hole. -/
theorem replaceFrom_eq_fill (skip : Nat) (before text : List α) :
    replaceFrom find (fun value _ _ => render value) skip before text =
      fill render (piecesFrom find skip text) := by
  induction text generalizing skip before with
  | nil => cases skip <;> rfl
  | cons a rest ih =>
    cases skip with
    | succ skip => exact ih skip (before ++ [a])
    | zero =>
      rw [replaceFrom, piecesFrom]
      cases find (a :: rest) with
      | none =>
        dsimp only
        rw [ih, fill]
      | some hit =>
        dsimp only
        rw [fill, ih]

/-- Filling succeeds if every hole can be filled. -/
theorem exists_fill_eq_ok_iff :
    (∃ out, fill render pieces = .ok out) ↔
      ∀ value mark, .hole value mark ∈ pieces → ∃ inserted, render value = .ok inserted := by
  induction pieces with
  | nil => simp [fill]
  | cons piece pieces ih =>
    cases piece with
    | literal a =>
      simp only [fill, Fallible.map_eq_ok, List.mem_cons, reduceCtorEq, false_or, ← ih]
      exact ⟨fun ⟨_, filled, hFilled, _⟩ => ⟨filled, hFilled⟩,
        fun ⟨filled, hFilled⟩ => ⟨a :: filled, filled, hFilled, rfl⟩⟩
    | hole value mark =>
      constructor
      · rintro ⟨out, hOut⟩ value' mark' hMem
        obtain ⟨inserted, hInserted, hRest⟩ := Fallible.bind_eq_ok.mp hOut
        obtain ⟨filled, hFilled, -⟩ := Fallible.bind_eq_ok.mp hRest
        rcases List.mem_cons.mp hMem with hHead | hTail
        · cases hHead
          exact ⟨inserted, hInserted⟩
        · exact ih.mp ⟨filled, hFilled⟩ value' mark' hTail
      · intro hAll
        obtain ⟨inserted, hInserted⟩ := hAll value mark List.mem_cons_self
        obtain ⟨filled, hFilled⟩ := ih.mpr fun value' mark' hMem =>
          hAll value' mark' (List.mem_cons_of_mem _ hMem)
        exact ⟨inserted ++ filled, by rw [fill, hInserted, hFilled]; rfl⟩

theorem toOption_fill_congr {render' : β → Except ε' (List α)}
    (h : ∀ value mark, .hole value mark ∈ pieces →
      (render value).toOption = (render' value).toOption) :
    (fill render pieces).toOption = (fill render' pieces).toOption := by
  induction pieces with
  | nil => rfl
  | cons piece pieces ih =>
    have hRest := ih fun value mark hMem => h value mark (List.mem_cons_of_mem _ hMem)
    cases piece with
    | literal a => rw [fill, fill, Fallible.toOption_map, Fallible.toOption_map, hRest]
    | hole value mark =>
      exact Fallible.toOption_bind_congr (h value mark List.mem_cons_self) fun _ _ =>
        Fallible.toOption_bind_congr hRest fun _ _ => rfl

/-- Symbols that no replacement has are lost with the marks only. -/
theorem countP_fill {p : α → Bool} (hOut : fill render pieces = .ok out)
    (hInserted : ∀ value inserted, render value = .ok inserted → inserted.countP p = 0) :
    out.countP p + (marks pieces).countP p = (spell pieces).countP p := by
  induction pieces generalizing out with
  | nil =>
    cases hOut
    rfl
  | cons piece pieces ih =>
    cases piece with
    | literal a =>
      obtain ⟨filled, hFilled, rfl⟩ := Fallible.map_eq_ok.mp hOut
      have hRest := ih hFilled
      have hMarks : marks (.literal a :: pieces) = marks pieces := rfl
      rw [spell_literal, List.countP_cons, List.countP_cons, hMarks]
      omega
    | hole value mark =>
      obtain ⟨inserted, hRender, hMore⟩ := Fallible.bind_eq_ok.mp hOut
      obtain ⟨filled, hFilled, hPure⟩ := Fallible.bind_eq_ok.mp hMore
      cases hPure
      have hRest := ih hFilled
      have hNone := hInserted value inserted hRender
      have hMarks : marks (.hole value mark :: pieces) = mark ++ marks pieces := rfl
      rw [spell_hole, List.countP_append, List.countP_append, hMarks, List.countP_append]
      omega

end Found

/-! ## Passes over the pieces

Each hole has a rank, the pass that fills it, and a content. Pass by pass the text changes from
what the pieces spell to the text in which every hole is filled at once, if the passes read
nothing else: no symbol of the pieces or of a content, with what follows it in the text that the
pass gets. -/

section Passes

/-- The text that a pass gets, with the earlier holes filled. -/
def stageText (rank : β → Nat) (content : β → List α) (stage : Nat)
    (pieces : List (Piece α β)) : List α :=
  pieces.flatMap fun
    | .literal a => [a]
    | .hole value mark => if rank value < stage then content value else mark

/-- Passes that read the holes only. `found` says where a pass finds something, `fits` that the pass
of a hole reads its mark in front of a text. -/
inductive Inert (rank : β → Nat) (content : β → List α) (found : Nat → List α → Prop)
    (fits : β → List α → List α → Prop) : List (Piece α β) → Prop where
  | nil : Inert rank content found fits []
  | literal {a : α} {pieces : List (Piece α β)}
      (hQuiet : ∀ pass, ¬ found pass (a :: stageText rank content pass pieces))
      (hRest : Inert rank content found fits pieces) :
      Inert rank content found fits (.literal a :: pieces)
  | hole {value : β} {mark : List α} {pieces : List (Piece α β)}
      (hMark : ∀ pass suffix, pass < rank value → suffix ≠ [] → suffix <:+ mark →
        ¬ found pass (suffix ++ stageText rank content pass pieces))
      (hFits : fits value mark (stageText rank content (rank value) pieces))
      (hQuiet : ∀ pass suffix, rank value < pass → suffix ≠ [] → suffix <:+ content value →
        ¬ found pass (suffix ++ stageText rank content pass pieces))
      (hRest : Inert rank content found fits pieces) :
      Inert rank content found fits (.hole value mark :: pieces)

variable {rank : β → Nat} {content : β → List α} {found : Nat → List α → Prop}
  {fits : β → List α → List α → Prop} {find : Finder α γ}
  {render : γ → List α → List α → Except ε (List α)}

@[simp] theorem stageText_literal (stage : Nat) (a : α) (pieces : List (Piece α β)) :
    stageText rank content stage (.literal a :: pieces) =
      a :: stageText rank content stage pieces := rfl

theorem stageText_hole (stage : Nat) (value : β) (mark : List α) (pieces : List (Piece α β)) :
    stageText rank content stage (.hole value mark :: pieces) =
      (if rank value < stage then content value else mark) ++
        stageText rank content stage pieces := rfl

/-- Before the first pass that fills a hole the text is unchanged. -/
theorem stageText_eq_spell {stage : Nat} {pieces : List (Piece α β)}
    (h : ∀ value mark, .hole value mark ∈ pieces → stage ≤ rank value) :
    stageText rank content stage pieces = spell pieces := by
  induction pieces with
  | nil => rfl
  | cons piece pieces ih =>
    have hRest := ih fun value mark hMem => h value mark (List.mem_cons_of_mem piece hMem)
    cases piece with
    | literal a => rw [stageText_literal, spell_literal, hRest]
    | hole value mark =>
      rw [stageText_hole, spell_hole, if_neg (Nat.not_lt.mpr (h value mark List.mem_cons_self)),
        hRest]

theorem replaceFrom_skip (matched rest before : List α) :
    replaceFrom find render matched.length before (matched ++ rest) =
      replaceFrom find render 0 (before ++ matched) rest := by
  induction matched generalizing before with
  | nil => rw [List.length_nil, List.nil_append, List.append_nil]
  | cons a matched ih =>
    rw [List.length_cons, List.cons_append, replaceFrom, ih, List.append_assoc,
      List.singleton_append]

theorem replaceFrom_match {mark rest inserted out : List α} {value : γ} (hMark : mark ≠ [])
    (hFound : find (mark ++ rest) = some (value, mark.length))
    (hRender : ∀ before after, render value before after = .ok inserted)
    (hRest : ∀ before, replaceFrom find render 0 before rest = .ok out) (before : List α) :
    replaceFrom find render 0 before (mark ++ rest) = .ok (inserted ++ out) := by
  obtain ⟨a, mark, rfl⟩ := List.exists_cons_of_ne_nil hMark
  rw [List.cons_append] at hFound ⊢
  rw [replaceFrom, hFound]
  dsimp only
  rw [hRender, List.length_cons, Nat.add_sub_cancel, replaceFrom_skip, hRest]
  rfl

theorem replaceFrom_kept {mark rest out : List α}
    (hNone : ∀ suffix, suffix ≠ [] → suffix <:+ mark → find (suffix ++ rest) = none)
    (hRest : ∀ before, replaceFrom find render 0 before rest = .ok out) (before : List α) :
    replaceFrom find render 0 before (mark ++ rest) = .ok (mark ++ out) := by
  induction mark generalizing before with
  | nil => exact hRest before
  | cons a mark ih =>
    have hHead := hNone (a :: mark) (List.cons_ne_nil a mark) (List.suffix_refl _)
    have hTail := ih fun suffix hNonempty hSuffix =>
      hNone suffix hNonempty (hSuffix.trans (List.suffix_cons a mark))
    rw [List.cons_append] at hHead ⊢
    rw [replaceFrom, hHead]
    dsimp only
    rw [hTail]
    rfl

/-- One pass fills the holes of its rank. -/
theorem Inert.replaceAll_stageText {pieces : List (Piece α β)} (stage : Nat)
    (hNone : ∀ text, ¬ found stage text → find text = none)
    (hFind : ∀ value mark after, rank value = stage → fits value mark after → mark ≠ [] ∧
      ∃ matched, find (mark ++ after) = some (matched, mark.length) ∧
        ∀ before after, render matched before after = .ok (content value))
    (h : Inert rank content found fits pieces) :
    replaceAll find render (stageText rank content stage pieces) =
      .ok (stageText rank content (stage + 1) pieces) := by
  suffices hAll : ∀ before, replaceFrom find render 0 before (stageText rank content stage pieces) =
      .ok (stageText rank content (stage + 1) pieces) from hAll []
  induction h with
  | nil => exact fun _ => rfl
  | @literal a pieces hQuiet hRest ih =>
    have hKept : ∀ suffix, suffix ≠ [] → suffix <:+ [a] →
        find (suffix ++ stageText rank content stage pieces) = none := by
      intro suffix hNonempty hSuffix
      rcases List.suffix_cons_iff.mp hSuffix with rfl | hNil
      · exact hNone _ (hQuiet stage)
      · exact absurd (List.suffix_nil.mp hNil) hNonempty
    exact replaceFrom_kept hKept ih
  | @hole value mark pieces hMark hFits hQuiet hRest ih =>
    rw [stageText_hole, stageText_hole]
    rcases Nat.lt_trichotomy (rank value) stage with hBefore | hNow | hLater
    · rw [if_pos hBefore, if_pos (Nat.lt_succ_of_lt hBefore)]
      exact replaceFrom_kept (fun suffix hNonempty hSuffix =>
        hNone _ (hQuiet stage suffix hBefore hNonempty hSuffix)) ih
    · rw [if_neg (Nat.not_lt.mpr (Nat.le_of_eq hNow.symm)), if_pos (hNow ▸ Nat.lt_succ_self _)]
      rw [hNow] at hFits
      obtain ⟨hNonempty, matched, hMatched, hRender⟩ := hFind value mark _ hNow hFits
      exact replaceFrom_match hNonempty hMatched hRender ih
    · rw [if_neg (Nat.not_lt.mpr (Nat.le_of_lt hLater)), if_neg (Nat.not_lt.mpr hLater)]
      exact replaceFrom_kept (fun suffix hNonempty hSuffix =>
        hNone _ (hMark stage suffix hLater hNonempty hSuffix)) ih

end Passes

end GlobalReplace
