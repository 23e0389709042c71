import Mathlib.Data.List.Basic
import Mathlib.Data.List.Flatten

/-! Texts that can be read in one way only. An item is readable when its text
tells it apart from every other item and shows where it ends, given only that
what follows could follow such an item. Readability of pairs, of strings of
code words and of separated lists comes from that of their parts, one item at a
time, so that it can be carried through an induction over nested data. -/
namespace Readable

variable {α β σ : Type*}

/-- The text of `a` before a rest with `stop` determines both. -/
def ReadableBefore (stop : List σ → Prop) (write : α → List σ) (a : α) : Prop :=
  ∀ b rest tail, stop rest → stop tail → write a ++ rest = write b ++ tail →
    a = b ∧ rest = tail

theorem ReadableBefore.mono {stop halt : List σ → Prop} {write : α → List σ} {a : α}
    (h : ReadableBefore stop write a) (hStop : ∀ rest, halt rest → stop rest) :
    ReadableBefore halt write a :=
  fun b rest tail hRest hTail => h b rest tail (hStop rest hRest) (hStop tail hTail)

/-- What some reader takes off the front of every text is readable. -/
theorem readable_of_read {write : α → List σ} {read : List σ → Option (α × List σ)}
    (hRead : ∀ a rest, read (write a ++ rest) = some (a, rest)) (a : α) :
    ReadableBefore (fun _ => True) write a := by
  intro b rest tail _ _ h
  have hBoth := hRead b tail
  rw [← h, hRead a rest, Option.some.injEq, Prod.mk.injEq] at hBoth
  exact hBoth

def StartsWith (mark : σ) (text : List σ) : Prop := ∃ rest, text = mark :: rest

/-- A word of one class of letters ends where the class does. -/
theorem append_inj_of_class {letter : σ → Prop} {first second rest tail : List σ}
    (hFirst : ∀ c ∈ first, letter c) (hSecond : ∀ c ∈ second, letter c)
    (hRest : ∀ c ∈ rest.head?, ¬ letter c) (hTail : ∀ c ∈ tail.head?, ¬ letter c)
    (h : first ++ rest = second ++ tail) : first = second ∧ rest = tail := by
  induction first generalizing second with
  | nil =>
    cases second with
    | nil => exact ⟨rfl, h⟩
    | cons c second =>
      rw [List.nil_append] at h
      exact absurd (hSecond c (by simp)) (hRest c (by simp [h]))
  | cons c first ih =>
    cases second with
    | nil =>
      rw [List.nil_append] at h
      exact absurd (hFirst c (by simp)) (hTail c (by simp [← h]))
    | cons d second =>
      rw [List.cons_append, List.cons_append, List.cons.injEq] at h
      obtain ⟨rfl, h⟩ := h
      obtain ⟨rfl, rfl⟩ := ih (fun x hx => hFirst x (by simp [hx]))
        (fun x hx => hSecond x (by simp [hx])) h
      exact ⟨rfl, rfl⟩

/-- A string of code words ends at a mark that starts no code word. -/
theorem flatMap_readable {code : α → List σ} {mark : σ}
    (hCode : ∀ a, ReadableBefore (fun _ => True) code a)
    (hMark : ∀ a rest, ¬ StartsWith mark (code a ++ rest)) (items : List α) :
    ReadableBefore (StartsWith mark) (List.flatMap code) items := by
  induction items with
  | nil =>
    intro others rest tail hRest _ h
    cases others with
    | nil => exact ⟨rfl, h⟩
    | cons b others =>
      rw [List.flatMap_nil, List.nil_append, List.flatMap_cons, List.append_assoc] at h
      exact absurd (h ▸ hRest) (hMark b _)
  | cons a items ih =>
    intro others rest tail hRest hTail h
    cases others with
    | nil =>
      rw [List.flatMap_nil, List.nil_append, List.flatMap_cons, List.append_assoc] at h
      exact absurd (h ▸ hTail) (hMark a _)
    | cons b others =>
      rw [List.flatMap_cons, List.flatMap_cons, List.append_assoc, List.append_assoc] at h
      obtain ⟨rfl, hItems⟩ := hCode a b _ _ trivial trivial h
      obtain ⟨rfl, rfl⟩ := ih others rest tail hRest hTail hItems
      exact ⟨rfl, rfl⟩

theorem pair_readable {stop : List σ → Prop} {writeFirst : α → List σ} {writeSecond : β → List σ}
    {mark : σ} {pair : α × β} (hFirst : ReadableBefore (StartsWith mark) writeFirst pair.1)
    (hSecond : ReadableBefore stop writeSecond pair.2) :
    ReadableBefore stop (fun p => writeFirst p.1 ++ mark :: writeSecond p.2) pair := by
  rintro ⟨a, b⟩ rest tail hRest hTail h
  rw [List.append_assoc, List.append_assoc] at h
  obtain ⟨hA, hMark⟩ := hFirst a _ _ ⟨_, rfl⟩ ⟨_, rfl⟩ h
  obtain ⟨hB, hEnd⟩ := hSecond b rest tail hRest hTail (List.cons.inj hMark).2
  exact ⟨Prod.ext hA hB, hEnd⟩

def afterEach (separator : σ) (write : α → List σ) (items : List α) : List σ :=
  items.flatMap fun item => separator :: write item

theorem intercalate_cons (separator : σ) (write : α → List σ) (item : α) (items : List α) :
    [separator].intercalate ((item :: items).map write) =
      write item ++ afterEach separator write items := by
  induction items generalizing item with
  | nil => simp [afterEach]
  | cons next items ih =>
    rw [List.map_cons, List.map_cons, List.intercalate_cons_cons, ← List.map_cons, ih]
    simp [afterEach]

variable {items : List α}

section Separated

variable {separator close : σ} {write : α → List σ}

/-- What may follow one item of a separated list. -/
def Follows (separator close : σ) (text : List σ) : Prop :=
  StartsWith separator text ∨ StartsWith close text

theorem afterEach_follows {rest : List σ} (hRest : StartsWith close rest) :
    Follows separator close (afterEach separator write items ++ rest) := by
  cases items with
  | nil => exact .inr hRest
  | cons item items => exact .inl ⟨_, rfl⟩

theorem afterEach_readable (hNe : separator ≠ close)
    (hItems : ∀ item ∈ items, ReadableBefore (Follows separator close) write item) :
    ReadableBefore (StartsWith close) (afterEach separator write) items := by
  induction items with
  | nil =>
    rintro others rest tail ⟨after, rfl⟩ - h
    cases others with
    | nil => exact ⟨rfl, h⟩
    | cons b others => exact absurd (List.cons.inj h).1.symm hNe
  | cons a items ih =>
    intro others rest tail hRest hTail h
    cases others with
    | nil =>
      obtain ⟨after, rfl⟩ := hTail
      exact absurd (List.cons.inj h).1 hNe
    | cons b others =>
      rw [afterEach, List.flatMap_cons, List.append_assoc, afterEach, List.flatMap_cons,
        List.append_assoc, List.cons_append, List.cons_append, List.cons.injEq] at h
      obtain ⟨rfl, hAfter⟩ := hItems a (by simp) b _ _ (afterEach_follows hRest)
        (afterEach_follows hTail) h.2
      obtain ⟨rfl, rfl⟩ := ih (fun item hItem => hItems item (by simp [hItem]))
        others rest tail hRest hTail hAfter
      exact ⟨rfl, rfl⟩

/-- A separated list ends at a closing mark that starts no item. -/
theorem intercalate_readable (hNe : separator ≠ close)
    (hOpen : ∀ item rest, ¬ StartsWith close (write item ++ rest))
    (hItems : ∀ item ∈ items, ReadableBefore (Follows separator close) write item) :
    ReadableBefore (StartsWith close) (fun items => [separator].intercalate (items.map write))
      items := by
  intro others rest tail hRest hTail h
  cases items with
  | nil =>
    cases others with
    | nil => exact ⟨rfl, h⟩
    | cons b others =>
      simp only [intercalate_cons, List.append_assoc] at h
      change rest = _ at h
      exact absurd (h ▸ hRest) (hOpen b _)
  | cons a items =>
    cases others with
    | nil =>
      simp only [intercalate_cons, List.append_assoc] at h
      change _ = tail at h
      exact absurd (h ▸ hTail) (hOpen a _)
    | cons b others =>
      simp only [intercalate_cons, List.append_assoc] at h
      obtain ⟨rfl, hAfter⟩ := hItems a (by simp) b _ _ (afterEach_follows hRest)
        (afterEach_follows hTail) h
      have hOthers : ∀ item ∈ items, ReadableBefore (Follows separator close) write item :=
        fun item hItem => hItems item (by simp [hItem])
      obtain ⟨rfl, rfl⟩ := afterEach_readable hNe hOthers others rest tail hRest hTail hAfter
      exact ⟨rfl, rfl⟩

end Separated

end Readable
