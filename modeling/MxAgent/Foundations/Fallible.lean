import Mathlib.Logic.Basic

/-! Chains of checks in `Except`, and traversals of a list in `Option`. A chain succeeds
exactly when each of its links does, so a success is taken apart one link at a time. -/
namespace Fallible

variable {ε ε' α β : Type}

/-- Fail with an error unless a condition holds. -/
def ensure (condition : Bool) (error : ε) : Except ε Unit :=
  if condition then .ok () else .error error

/-- Fail at the first bad item of a list, with an error that may name it and its index. -/
def ensureEach (items : List α) (good : α → Bool) (error : α → Nat → ε) : Except ε Unit :=
  items.zipIdx.forM fun (item, idx) => ensure (good item) (error item idx)

def okOr (item : Option α) (error : ε) : Except ε α :=
  match item with
  | none => .error error
  | some value => .ok value

variable {first : Except ε α} {items : List α}

/-- A chain succeeds if both of its links do. -/
theorem bind_eq_ok {next : α → Except ε β} {result : β} :
    first >>= next = .ok result ↔ ∃ value, first = .ok value ∧ next value = .ok result := by
  cases first with
  | error error =>
    constructor
    · intro h
      cases h
    · rintro ⟨value, hValue, -⟩
      cases hValue
  | ok value =>
    constructor
    · intro h
      exact ⟨value, rfl, h⟩
    · rintro ⟨other, hOther, h⟩
      cases hOther
      exact h

/-- Chains with different errors that succeed alike, link by link. -/
theorem toOption_bind_congr {first' : Except ε' α} {next : α → Except ε β} {next' : α → Except ε' β}
    (hFirst : first.toOption = first'.toOption)
    (hNext : ∀ value, first = .ok value → (next value).toOption = (next' value).toOption) :
    (first >>= next).toOption = (first' >>= next').toOption := by
  cases first with
  | error error =>
    cases first' with
    | error error' => rfl
    | ok value' => cases hFirst
  | ok value =>
    cases first' with
    | error error' => cases hFirst
    | ok value' =>
      cases hFirst
      exact hNext value rfl

theorem toOption_map (first : Except ε α) (f : α → β) :
    (first.map f).toOption = first.toOption.map f := by
  cases first <;> rfl

theorem toOption_eq_some {value : α} : first.toOption = some value ↔ first = .ok value := by
  cases first <;> simp [Except.toOption]

theorem toOption_eq_none (h : ∀ value, first ≠ .ok value) : first.toOption = none := by
  cases first with
  | error error => rfl
  | ok value => exact absurd rfl (h value)

theorem map_eq_ok {f : α → β} {result : β} :
    first.map f = .ok result ↔ ∃ value, first = .ok value ∧ f value = result := by
  cases first <;> simp [Except.map]

@[simp] theorem ensure_eq_ok {condition : Bool} {error : ε} {result : Unit} :
    ensure condition error = .ok result ↔ condition := by
  cases condition <;> simp [ensure]

@[simp] theorem okOr_eq_ok {item : Option α} {error : ε} {value : α} :
    okOr item error = .ok value ↔ item = some value := by
  cases item <;> simp [okOr]

@[simp] theorem mapError_eq_ok {convert : ε → ε'} {value : α} :
    first.mapError convert = .ok value ↔ first = .ok value := by
  cases first with
  | error error => exact iff_of_false (fun h => by cases h) fun h => by cases h
  | ok found =>
    show (.ok found : Except ε' α) = .ok value ↔ _
    rw [Except.ok.injEq, Except.ok.injEq]

theorem isOk_iff : first.isOk ↔ ∃ value, first = .ok value := by
  cases first <;> simp [Except.isOk, Except.toBool]

theorem ensure_bind_eq_ok {condition : Bool} {error : ε} {next : Unit → Except ε β} {result : β} :
    ensure condition error >>= next = .ok result ↔ condition ∧ next () = .ok result := by
  cases condition
  · simp [ensure, bind, Except.bind]
  · simp [ensure, bind, Except.bind]

theorem seq_eq_ok {first second : Except ε Unit} :
    (first >>= fun _ => second) = .ok () ↔ first = .ok () ∧ second = .ok () := by
  rw [bind_eq_ok]
  exact ⟨fun ⟨_, h⟩ => h, fun h => ⟨(), h⟩⟩

/-- A loop of checks succeeds if each of them does. -/
theorem forM_eq_ok {check : α → Except ε Unit} :
    items.forM check = .ok () ↔ ∀ item ∈ items, check item = .ok () := by
  induction items with
  | nil => simp [pure, Except.pure]
  | cons item rest ih =>
    rw [List.forall_mem_cons, ← ih]
    exact seq_eq_ok

theorem forall_mem_zipIdx (items : List α) (Good : α → Prop) :
    (∀ entry ∈ items.zipIdx, Good entry.1) ↔ ∀ item ∈ items, Good item := by
  constructor
  · intro h item hItem
    obtain ⟨idx, hIdx⟩ := List.mem_iff_getElem?.mp hItem
    exact h (item, idx) (List.mem_zipIdx_iff_getElem?.mpr hIdx)
  · rintro h ⟨item, idx⟩ hEntry
    exact h item (List.mem_of_getElem? (List.mem_zipIdx_iff_getElem?.mp hEntry))

@[simp] theorem ensureEach_eq_ok {good : α → Bool} {error : α → Nat → ε} :
    ensureEach items good error = .ok () ↔ ∀ item ∈ items, good item := by
  simp only [ensureEach, forM_eq_ok, ensure_eq_ok]
  exact forall_mem_zipIdx items (good ·)

/-- A traversal with enough fuel for each item has enough for the list. -/
theorem exists_mapM {P : α → β → Prop} {f : Nat → α → Option β} {bound : Nat}
    (h : ∀ item ∈ items, ∃ value, P item value ∧ ∀ fuel ≥ bound, f fuel item = some value) :
    ∃ values, (∀ fuel ≥ bound, items.mapM (f fuel) = some values) ∧
      (∀ value ∈ values, ∃ item ∈ items, P item value) ∧
      ∀ item ∈ items, ∃ value ∈ values, P item value := by
  induction items with
  | nil => exact ⟨[], fun _ _ => rfl, by simp, by simp⟩
  | cons item items ih =>
    obtain ⟨value, hValue, hFuel⟩ := h item List.mem_cons_self
    obtain ⟨values, hMap, hSound, hComplete⟩ := ih fun other hOther =>
      h other (List.mem_cons_of_mem item hOther)
    refine ⟨value :: values, fun fuel hBound => ?_, ?_, ?_⟩
    · rw [List.mapM_cons, hFuel fuel hBound, hMap fuel hBound]
      rfl
    · rintro other (_ | ⟨_, hOther⟩)
      · exact ⟨item, List.mem_cons_self, hValue⟩
      · obtain ⟨source, hSource, hP⟩ := hSound other hOther
        exact ⟨source, List.mem_cons_of_mem item hSource, hP⟩
    · rintro other (_ | ⟨_, hOther⟩)
      · exact ⟨value, List.mem_cons_self, hValue⟩
      · obtain ⟨image, hImage, hP⟩ := hComplete other hOther
        exact ⟨image, List.mem_cons_of_mem value hImage, hP⟩

end Fallible
