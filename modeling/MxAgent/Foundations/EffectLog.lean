import Mathlib.Data.List.Induction

/-! Programs that act through effects. The answer to an effect comes from a world that may
look at everything called so far, and every call is entered in a log together with its answer;
a program may also mark a point in the log. A loop that has used up its turns is still running:
its log counts, and it has no result. -/
namespace EffectLog

/-- An entry of the log: an effect with its answer, or a mark. -/
inductive Entry (Effect : Type) (Answer : Effect → Type) (Mark ε : Type) where
  | called (effect : Effect) (answer : Except ε (Answer effect))
  | marked (mark : Mark)

/-- How a program has ended, or that it is still running. -/
inductive Outcome (ε α : Type) where
  | returned (value : α)
  | threw (error : ε)
  | running
  deriving DecidableEq, Repr

variable {Effect : Type} {Answer : Effect → Type} {Mark ε α β : Type}

/-- How a program may end: with a good value, an error, or still running if it may be endless. -/
def Outcome.Within (good : α → Prop) (endless : Prop) : Outcome ε α → Prop
  | .returned value => good value
  | .threw _ => True
  | .running => endless

/-- An outcome with a last action, whose failure takes its place. -/
def Outcome.followedBy (outcome : Outcome ε α) : Outcome ε Unit → Outcome ε α
  | .returned _ => outcome
  | .threw error => .threw error
  | .running => .running

variable {done : Unit → Prop} {effect : Effect}

theorem Outcome.Within.followedBy {outcome : Outcome ε α} {last : Outcome ε Unit} {good : α → Prop}
    {endless : Prop} (h : outcome.Within good endless)
    (hLast : last.Within done endless) : (outcome.followedBy last).Within good endless := by
  cases last with
  | returned value => exact h
  | threw error => trivial
  | running => exact hLast

/-- A world answers every effect, or throws, with the log so far before it. -/
abbrev World (Effect : Type) (Answer : Effect → Type) (Mark ε : Type) :=
  List (Entry Effect Answer Mark ε) → (effect : Effect) → Except ε (Answer effect)

/-- A program: from a world and a log to its outcome and the longer log. -/
def Program (Effect : Type) (Answer : Effect → Type) (Mark ε α : Type) : Type :=
  World Effect Answer Mark ε → List (Entry Effect Answer Mark ε) →
    Outcome ε α × List (Entry Effect Answer Mark ε)

namespace Program

instance : Monad (Program Effect Answer Mark ε) where
  pure value _ log := (.returned value, log)
  bind program next world log :=
    match program world log with
    | (.returned value, log) => next value world log
    | (.threw error, log) => (.threw error, log)
    | (.running, log) => (.running, log)

def perform (effect : Effect) : Program Effect Answer Mark ε (Answer effect) := fun world log =>
  let answer := world log effect
  (match answer with
    | .ok value => .returned value
    | .error error => .threw error,
    log ++ [.called effect answer])

def mark (label : Mark) : Program Effect Answer Mark ε Unit := fun _ log =>
  (.returned (), log ++ [.marked label])

def throw (error : ε) : Program Effect Answer Mark ε α := fun _ log => (.threw error, log)

def outOfTurns : Program Effect Answer Mark ε α := fun _ log => (.running, log)

def ignoringErrors (program : Program Effect Answer Mark ε Unit) :
    Program Effect Answer Mark ε Unit := fun world log =>
  match program world log with
  | (.threw _, log) => (.returned (), log)
  | result => result

/-- A program with a last action, after a return or a throw. -/
def withFinally (program : Program Effect Answer Mark ε α)
    (last : Program Effect Answer Mark ε Unit) : Program Effect Answer Mark ε α :=
  fun world log =>
    match program world log with
    | (.running, log) => (.running, log)
    | (outcome, log) =>
      (outcome.followedBy (last world log).1, (last world log).2)

/-! ## What a program enters -/

variable {kind : Entry Effect Answer Mark ε → Prop} {endless : Prop}
  {good : α → Prop} {program : Program Effect Answer Mark ε α}
  {next : α → Program Effect Answer Mark ε β}

/-- A program adds entries of a kind only and ends well. -/
def Emits (kind : Entry Effect Answer Mark ε → Prop) (endless : Prop)
    (program : Program Effect Answer Mark ε α) (good : α → Prop) : Prop :=
  ∀ world log, (∃ added, (program world log).2 = log ++ added ∧ ∀ entry ∈ added, kind entry) ∧
    (program world log).1.Within good endless

theorem emits_pure {value : α} (h : good value) :
    Emits kind endless (pure value : Program Effect Answer Mark ε α) good :=
  fun _ log => ⟨⟨[], (List.append_nil log).symm, by simp⟩, h⟩

theorem emits_throw {error : ε} :
    Emits kind endless (throw error : Program Effect Answer Mark ε α) good :=
  fun _ log => ⟨⟨[], (List.append_nil log).symm, by simp⟩, trivial⟩

theorem emits_outOfTurns (h : endless) :
    Emits kind endless (outOfTurns : Program Effect Answer Mark ε α) good :=
  fun _ log => ⟨⟨[], (List.append_nil log).symm, by simp⟩, h⟩

theorem emits_perform (h : ∀ answer, kind (.called effect answer)) :
    Emits kind endless (perform effect : Program Effect Answer Mark ε (Answer effect))
      fun _ => True := by
  intro world log
  refine ⟨⟨[.called effect (world log effect)], rfl, by simp [h]⟩, ?_⟩
  simp only [perform]
  cases world log effect <;> trivial

theorem emits_mark {label : Mark} (h : kind (.marked label)) :
    Emits kind endless (mark label : Program Effect Answer Mark ε Unit) fun _ => True :=
  fun _ log => ⟨⟨[.marked label], rfl, by simpa using h⟩, trivial⟩

/-- Programs that emit entries of a kind, one after the other. -/
theorem Emits.bind {middle : α → Prop} {good : β → Prop}
    (hFirst : Emits kind endless program middle)
    (hNext : ∀ value, middle value → Emits kind endless (next value) good) :
    Emits kind endless (program >>= next) good := by
  intro world log
  obtain ⟨⟨added, hLog, hAdded⟩, hWithin⟩ := hFirst world log
  simp only [Bind.bind]
  rcases hRun : program world log with ⟨value | error | _, later⟩ <;> rw [hRun] at hLog hWithin
  · obtain ⟨⟨more, hMore, hKind⟩, hEnd⟩ := hNext value hWithin world later
    refine ⟨⟨added ++ more, ?_, List.forall_mem_append.mpr ⟨hAdded, hKind⟩⟩, hEnd⟩
    rw [← List.append_assoc, ← hLog]
    exact hMore
  · exact ⟨⟨added, hLog, hAdded⟩, trivial⟩
  · exact ⟨⟨added, hLog, hAdded⟩, hWithin⟩

theorem Emits.mono {kind' : Entry Effect Answer Mark ε → Prop} {good' : α → Prop}
    (h : Emits kind endless program good) (hKind : ∀ entry, kind entry → kind' entry)
    (hGood : ∀ value, good value → good' value) : Emits kind' endless program good' := by
  intro world log
  obtain ⟨⟨added, hLog, hAdded⟩, hWithin⟩ := h world log
  refine ⟨⟨added, hLog, fun entry hEntry => hKind entry (hAdded entry hEntry)⟩, ?_⟩
  rcases hEnd : (program world log).1 with value | error | _ <;> rw [hEnd] at hWithin
  · exact hGood value hWithin
  · trivial
  · exact hWithin

theorem Emits.ignoringErrors {program : Program Effect Answer Mark ε Unit} {good : Unit → Prop}
    (h : Emits kind endless program good) :
    Emits kind endless (ignoringErrors program) fun _ => True := by
  intro world log
  obtain ⟨⟨added, hLog, hAdded⟩, hWithin⟩ := h world log
  unfold Program.ignoringErrors
  rcases hRun : program world log with ⟨value | error | _, later⟩ <;> rw [hRun] at hLog hWithin
  · exact ⟨⟨added, hLog, hAdded⟩, trivial⟩
  · exact ⟨⟨added, hLog, hAdded⟩, trivial⟩
  · exact ⟨⟨added, hLog, hAdded⟩, hWithin⟩

/-- The last action emits entries of the kind as well. -/
theorem Emits.withFinally {last : Program Effect Answer Mark ε Unit}
    (h : Emits kind endless program good) (hLast : Emits kind endless last done) :
    Emits kind endless (withFinally program last) good := by
  intro world log
  obtain ⟨⟨added, hLog, hAdded⟩, hWithin⟩ := h world log
  unfold Program.withFinally
  rcases hRun : program world log with ⟨outcome, later⟩
  rw [hRun] at hLog hWithin
  obtain ⟨⟨more, hMore, hKind⟩, hEnd⟩ := hLast world later
  have hBoth : ∃ both, (last world later).2 = log ++ both ∧ ∀ entry ∈ both, kind entry := by
    refine ⟨added ++ more, ?_, List.forall_mem_append.mpr ⟨hAdded, hKind⟩⟩
    rw [hMore, ← List.append_assoc, ← hLog]
  cases outcome with
  | returned value => exact ⟨hBoth, hWithin.followedBy hEnd⟩
  | threw error => exact ⟨hBoth, hWithin.followedBy hEnd⟩
  | running => exact ⟨⟨added, hLog, hAdded⟩, hWithin⟩

/-! ## What holds of a log -/

variable {pre always : List (Entry Effect Answer Mark ε) → Prop}
  {post : α → List (Entry Effect Answer Mark ε) → Prop}

/-- From a log with the precondition, a program reaches one with `always`, however it ends, and the
postcondition if it returns. -/
def Ensures (pre : List (Entry Effect Answer Mark ε) → Prop)
    (program : Program Effect Answer Mark ε α)
    (post : α → List (Entry Effect Answer Mark ε) → Prop)
    (always : List (Entry Effect Answer Mark ε) → Prop) : Prop :=
  ∀ world log, pre log → always (program world log).2 ∧
    ∀ value, (program world log).1 = .returned value → post value (program world log).2

theorem ensures_pure {value : α} (hPost : ∀ log, pre log → post value log)
    (hAlways : ∀ log, pre log → always log) :
    Ensures pre (pure value : Program Effect Answer Mark ε α) post always := by
  intro world log hPre
  refine ⟨hAlways log hPre, fun found hFound => ?_⟩
  cases hFound
  exact hPost log hPre

theorem ensures_throw {error : ε} (hAlways : ∀ log, pre log → always log) :
    Ensures pre (throw error : Program Effect Answer Mark ε α) post always :=
  fun _ log hPre => ⟨hAlways log hPre, fun _ hReturned => nomatch hReturned⟩

theorem ensures_perform {post : Answer effect → List (Entry Effect Answer Mark ε) → Prop}
    (hPost : ∀ log value, pre log → post value (log ++ [.called effect (.ok value)]))
    (hAlways : ∀ log answer, pre log → always (log ++ [.called effect answer])) :
    Ensures pre (perform effect : Program Effect Answer Mark ε (Answer effect)) post always := by
  intro world log hPre
  refine ⟨hAlways log _ hPre, fun value hReturned => ?_⟩
  simp only [perform] at hReturned ⊢
  cases hAnswer : world log effect with
  | error error =>
    rw [hAnswer] at hReturned
    cases hReturned
  | ok found =>
    rw [hAnswer] at hReturned
    cases hReturned
    exact hPost log value hPre

theorem ensures_mark {label : Mark} {post : Unit → List (Entry Effect Answer Mark ε) → Prop}
    (hPost : ∀ log, pre log → post () (log ++ [.marked label]))
    (hAlways : ∀ log, pre log → always (log ++ [.marked label])) :
    Ensures pre (mark label : Program Effect Answer Mark ε Unit) post always :=
  fun _ log hPre => ⟨hAlways log hPre, fun _ _ => hPost log hPre⟩

/-- The rule of composition. -/
theorem Ensures.bind {middle : α → List (Entry Effect Answer Mark ε) → Prop}
    {post : β → List (Entry Effect Answer Mark ε) → Prop}
    (hFirst : Ensures pre program middle always)
    (hNext : ∀ value, Ensures (middle value) (next value) post always) :
    Ensures pre (program >>= next) post always := by
  intro world log hPre
  obtain ⟨hAlways, hMiddle⟩ := hFirst world log hPre
  simp only [Bind.bind]
  rcases hRun : program world log with ⟨value | error | _, later⟩
  · rw [hRun] at hMiddle
    exact hNext value world later (hMiddle value rfl)
  · rw [hRun] at hAlways
    exact ⟨hAlways, fun _ hReturned => nomatch hReturned⟩
  · rw [hRun] at hAlways
    exact ⟨hAlways, fun _ hReturned => nomatch hReturned⟩

theorem Ensures.mono {pre' always' : List (Entry Effect Answer Mark ε) → Prop}
    {post' : α → List (Entry Effect Answer Mark ε) → Prop} (h : Ensures pre program post always)
    (hPre : ∀ log, pre' log → pre log) (hPost : ∀ value log, post value log → post' value log)
    (hAlways : ∀ log, always log → always' log) : Ensures pre' program post' always' := by
  intro world log hLog
  obtain ⟨hEnd, hReturned⟩ := h world log (hPre log hLog)
  exact ⟨hAlways _ hEnd, fun value hValue => hPost _ _ (hReturned value hValue)⟩

theorem Ensures.and_always (h : Ensures pre program post always) :
    Ensures pre program (fun value log => post value log ∧ always log) always := by
  intro world log hPre
  obtain ⟨hAlways, hPost⟩ := h world log hPre
  exact ⟨hAlways, fun value hValue => ⟨hPost value hValue, hAlways⟩⟩

/-- What every entry of a kind keeps, a program of the kind keeps. -/
theorem Emits.ensures {invariant : List (Entry Effect Answer Mark ε) → Prop}
    (h : Emits kind endless program good)
    (hKeeps : ∀ log entry, invariant log → kind entry → invariant (log ++ [entry])) :
    Ensures invariant program (fun value log => good value ∧ invariant log) invariant := by
  intro world log hLog
  obtain ⟨⟨added, hAdded, hKind⟩, hWithin⟩ := h world log
  have hEnd : invariant (program world log).2 := by
    rw [hAdded]
    clear hAdded
    induction added using List.reverseRecOn with
    | nil => rwa [List.append_nil]
    | append_singleton rest entry ih =>
      obtain ⟨hRest, hEntry⟩ := List.forall_mem_append.mp hKind
      rw [← List.append_assoc]
      exact hKeeps _ entry (ih hRest) (hEntry entry (List.mem_singleton_self entry))
  refine ⟨hEnd, fun value hValue => ⟨?_, hEnd⟩⟩
  rw [hValue] at hWithin
  exact hWithin

theorem Emits.bind_ensures {invariant : List (Entry Effect Answer Mark ε) → Prop}
    {post : β → List (Entry Effect Answer Mark ε) → Prop}
    (h : Emits kind endless program good)
    (hKeeps : ∀ log entry, invariant log → kind entry → invariant (log ++ [entry]))
    (hAlways : ∀ log, invariant log → always log)
    (hNext : ∀ value, good value → Ensures invariant (next value) post always) :
    Ensures invariant (program >>= next) post always := by
  refine ((h.ensures hKeeps).mono (fun _ => id) (fun _ _ => id) hAlways).bind fun value => ?_
  intro world log hLog
  exact hNext value hLog.1 world log hLog.2

/-- The last action keeps what the program always comes to. -/
theorem Ensures.withFinally {last : Program Effect Answer Mark ε Unit}
    (h : Ensures pre program post always) (hLast : Emits kind endless last done)
    (hKeeps : ∀ log entry, always log → kind entry → always (log ++ [entry])) :
    Ensures pre (withFinally program last) (fun _ => always) always := by
  intro world log hPre
  obtain ⟨hEnd, -⟩ := h world log hPre
  have hAfter : always (Program.withFinally program last world log).2 := by
    unfold Program.withFinally
    rcases hRun : program world log with ⟨value | error | _, middle⟩ <;> rw [hRun] at hEnd
    · exact ((hLast.ensures hKeeps) world middle hEnd).1
    · exact ((hLast.ensures hKeeps) world middle hEnd).1
    · exact hEnd
  exact ⟨hAfter, fun _ _ => hAfter⟩

/-! ## What holds of the entries since a point of the log -/

/-- The property holds of what was added to the log since `start`. -/
def Since (start : List (Entry Effect Answer Mark ε))
    (property : List (Entry Effect Answer Mark ε) → Prop)
    (log : List (Entry Effect Answer Mark ε)) : Prop :=
  ∃ added, log = start ++ added ∧ property added

variable {start : List (Entry Effect Answer Mark ε)}
  {property other : List (Entry Effect Answer Mark ε) → Prop}

theorem Since.mono {log : List (Entry Effect Answer Mark ε)} (h : Since start property log)
    (hOther : ∀ added, property added → other added) : Since start other log :=
  h.imp fun added hAdded => ⟨hAdded.1, hOther added hAdded.2⟩

theorem Since.snoc {log : List (Entry Effect Answer Mark ε)} {entry : Entry Effect Answer Mark ε}
    (h : Since start property log)
    (hEntry : ∀ added, property added → other (added ++ [entry])) :
    Since start other (log ++ [entry]) := by
  obtain ⟨added, rfl, hAdded⟩ := h
  exact ⟨added ++ [entry], List.append_assoc .., hEntry added hAdded⟩

theorem Ensures.since (h : Ensures (Since start property) program post always)
    (hOther : ∀ added, other added → property added) :
    Ensures (Since start other) program post always :=
  h.mono (fun _ hLog => hLog.mono hOther) (fun _ _ => id) fun _ => id

/-! ## Where errors come from -/

/-- A program that throws only what the world throws. -/
def Calm (program : Program Effect Answer Mark ε α) : Prop :=
  ∀ world log, (∀ log effect, ∃ value, world log effect = .ok value) →
    ∀ error, (program world log).1 ≠ .threw error

theorem calm_pure {value : α} : Calm (pure value : Program Effect Answer Mark ε α) :=
  fun _ _ _ _ hThrew => nomatch hThrew

theorem calm_mark {label : Mark} : Calm (mark label : Program Effect Answer Mark ε Unit) :=
  fun _ _ _ _ hThrew => nomatch hThrew

theorem calm_outOfTurns : Calm (outOfTurns : Program Effect Answer Mark ε α) :=
  fun _ _ _ _ hThrew => nomatch hThrew

theorem calm_perform : Calm (perform effect : Program Effect Answer Mark ε (Answer effect)) := by
  intro world log hWorld error hThrew
  obtain ⟨value, hValue⟩ := hWorld log effect
  simp [perform, hValue] at hThrew

theorem Calm.bind (hFirst : Calm program) (hNext : ∀ value, Calm (next value)) :
    Calm (program >>= next) := by
  intro world log hWorld error
  have hCalm := hFirst world log hWorld
  simp only [Bind.bind]
  rcases hRun : program world log with ⟨value | thrown | _, later⟩
  · exact hNext value world later hWorld error
  · rw [hRun] at hCalm
    exact absurd rfl (hCalm thrown)
  · exact fun hThrew => nomatch hThrew

end Program

end EffectLog
