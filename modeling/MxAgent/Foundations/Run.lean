import Mathlib.Data.List.Basic

/-! Runs of a machine whose steps carry labels. A label holds everything the
environment chooses for one step, so a step is a function of the state and its
label. The guard says which labels may be taken in which state; an assumption
about the environment and a restriction on the schedule are both guards. -/
namespace LabelledRun

variable {State Label : Type*}

/-- A run from one state to another. Every label passes the guard where it is taken. -/
inductive Run (guard : State → Label → Prop) (step : State → Label → State) :
    State → List Label → State → Prop where
  | nil (s : State) : Run guard step s [] s
  | snoc {start middle : State} {labels : List Label} {label : Label}
      (prior : Run guard step start labels middle) (allowed : guard middle label) :
      Run guard step start (labels ++ [label]) (step middle label)

variable {guard : State → Label → Prop} {step : State → Label → State}

variable {start finish : State} {labels : List Label}

/-- What holds at the start and is kept by every guarded step holds at the end. -/
theorem Run.invariant {Invariant : State → Prop} (run : Run guard step start labels finish)
    (hStart : Invariant start)
    (hStep : ∀ s label, guard s label → Invariant s → Invariant (step s label)) :
    Invariant finish := by
  induction run with
  | nil => exact hStart
  | snoc prior allowed ih => exact hStep _ _ allowed ih

/-- What is known of every label of a run can be taken into the guard. -/
theorem Run.restrict {Known : Label → Prop} (run : Run guard step start labels finish)
    (hKnown : ∀ label ∈ labels, Known label) :
    Run (fun s label => guard s label ∧ Known label) step start labels finish := by
  induction run with
  | nil => exact .nil _
  | snoc prior allowed ih =>
    rw [List.forall_mem_append] at hKnown
    exact .snoc (ih hKnown.1) ⟨allowed, hKnown.2 _ (List.mem_singleton_self _)⟩

theorem Run.trans {middle : State} {first second : List Label}
    (left : Run guard step start first middle) (right : Run guard step middle second finish) :
    Run guard step start (first ++ second) finish := by
  induction right with
  | nil => simpa using left
  | snoc prior allowed ih => simpa [List.append_assoc] using Run.snoc ih allowed

/-- Every label of a list passes the guard when the list is taken from `s`. It is decidable on
concrete data. -/
def Allowed (guard : State → Label → Prop) (step : State → Label → State) :
    State → List Label → Prop
  | _, [] => True
  | s, label :: rest => guard s label ∧ Allowed guard step (step s label) rest

instance Allowed.decidable [∀ s label, Decidable (guard s label)] (s : State)
    (labels : List Label) : Decidable (Allowed guard step s labels) :=
  match labels with
  | [] => inferInstanceAs (Decidable True)
  | label :: rest =>
    @instDecidableAnd _ _ _ (Allowed.decidable (step s label) rest)

/-- An allowed list of labels is a run to the state the steps compute. -/
theorem Allowed.run (h : Allowed guard step start labels) :
    Run guard step start labels (labels.foldl step start) := by
  induction labels generalizing start with
  | nil => exact .nil start
  | cons label rest ih =>
    have first : Run guard step start [label] (step start label) := by
      simpa using Run.snoc (.nil start) h.1
    simpa using first.trans (ih h.2)

theorem allowed_append {first second : List Label} :
    Allowed guard step start (first ++ second) ↔
      Allowed guard step start first ∧ Allowed guard step (first.foldl step start) second := by
  induction first generalizing start with
  | nil => simp [Allowed]
  | cons label rest ih => simp only [List.cons_append, Allowed, ih, and_assoc, List.foldl_cons]

/-- If the guard is just what a step needs to keep an invariant, the invariant holds all along
exactly the allowed lists. -/
theorem forall_take_iff_allowed {Invariant : State → Prop} {Known : Label → Prop}
    (hStep : ∀ s label, Known label → Invariant s → (Invariant (step s label) ↔ guard s label))
    (hStart : Invariant start) (hKnown : ∀ label ∈ labels, Known label) :
    (∀ n, Invariant ((labels.take n).foldl step start)) ↔ Allowed guard step start labels := by
  induction labels generalizing start with
  | nil => simpa [Allowed] using hStart
  | cons label rest ih =>
    obtain ⟨hLabel, hRest⟩ := List.forall_mem_cons.mp hKnown
    have hGuard := hStep start label hLabel hStart
    constructor
    · intro h
      have hNext : Invariant (step start label) := by simpa using h 1
      exact ⟨hGuard.mp hNext, (ih hNext hRest).mp fun n => by simpa using h (n + 1)⟩
    · rintro ⟨hAllowed, hTail⟩ n
      cases n with
      | zero => simpa using hStart
      | succ n => simpa using (ih (hGuard.mpr hAllowed) hRest).mpr hTail n

end LabelledRun
