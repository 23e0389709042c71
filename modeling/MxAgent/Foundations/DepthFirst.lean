import Mathlib.Algebra.BigOperators.Group.Finset.Basic
import Mathlib.Algebra.GroupWithZero.Nat
import Mathlib.Logic.Function.Basic
import Mathlib.Logic.Relation
import MxAgent.Foundations.FirstPath

/-! Depth-first search for cycles with three colours and an explicit stack. The stack is
always the first path to its top, a node is left when all its successors have been looked at,
and a successor that is on the stack closes a cycle. Hence the search ends, it reports the
ways back into the first path to each node and nothing else, and it reports nothing only if
the nodes can be put in an order in which every successor comes later. -/
namespace DepthFirst

open FirstPath

variable {V : Type*} [DecidableEq V]

inductive Colour where
  | white
  | gray
  | black
  deriving DecidableEq

/-- The search: the colours, the stack from its top with the number of successors looked at, and the
cycles found. -/
structure Search (V : Type*) where
  colour : V → Colour
  stack : List (V × Nat)
  cycles : List (List V)

def Search.path (s : Search V) : List V := s.stack.map Prod.fst

/-- The part of a path from a node to the end, and back to the node. -/
def cycleTo (x : V) (path : List V) : List V :=
  x :: ((path.takeWhile (· ≠ x)).reverse ++ [x])

section Machine

variable (g : OrderedGraph V)

def step (s : Search V) : Search V :=
  match s.stack with
  | [] => s
  | (u, i) :: below =>
    match (g.next u)[i]? with
    | some x =>
      match s.colour x with
      | .white =>
        { s with colour := Function.update s.colour x .gray
                 stack := (x, 0) :: (u, i + 1) :: below }
      | .gray =>
        { s with stack := (u, i + 1) :: below
                 cycles := s.cycles ++ [cycleTo x (u :: below.map Prod.fst)] }
      | .black => { s with stack := (u, i + 1) :: below }
    | none => { s with colour := Function.update s.colour u .black, stack := below }

def drain : Nat → Search V → Option (Search V)
  | 0, s => if s.stack.isEmpty then some s else none
  | fuel + 1, s => if s.stack.isEmpty then some s else drain fuel (step g s)

def visit (fuel : Nat) (s : Search V) (start : V) : Option (Search V) :=
  if s.colour start = .white then
    drain g fuel
      { s with colour := Function.update s.colour start .gray, stack := [(start, 0)] }
  else some s

def search (fuel : Nat) : Option (Search V) :=
  g.starts.foldlM (visit g fuel) ⟨fun _ => .white, [], []⟩

end Machine

def Ordered (g : OrderedGraph V) : List V → Prop
  | [] => True
  | u :: rest => (∀ x ∈ g.next u, x ∈ rest) ∧ Ordered g rest

/-- A cycle that the end of a discovered path closes. -/
def Closes (g : OrderedGraph V) (cycle : List V) : Prop :=
  ∃ y below avoided x, Discovered g (y :: below) avoided ∧ x ∈ g.next y ∧ x ∈ y :: below ∧
    cycle = cycleTo x (y :: below)

/-- The successors counted were seen, and their cycles reported. -/
def Looked (g : OrderedGraph V) (colour : V → Colour) (cycles : List (List V))
    (stack : List (V × Nat)) : Prop :=
  ∀ u i below, (u, i) :: below <:+ stack → ∀ x ∈ (g.next u).take i, colour x ≠ .white ∧
    (x ∈ u :: below.map Prod.fst → cycleTo x (u :: below.map Prod.fst) ∈ cycles)

/-- What the search knows: `done` are the nodes it has left, the last one first. -/
structure Invariant (g : OrderedGraph V) (s : Search V) (done : List V) : Prop where
  black : ∀ v, s.colour v = .black ↔ v ∈ done
  gray : ∀ v, s.colour v = .gray ↔ v ∈ s.path
  nodup : done.Nodup
  closed : ∀ u ∈ done, ∀ x ∈ g.next u, s.colour x ≠ .white
  discovered : ∃ avoided : Set V, (∀ u ∈ avoided, u ∈ done) ∧ Discovered g s.path avoided
  frames : Looked g s.colour s.cycles s.stack
  sound : ∀ cycle ∈ s.cycles, Closes g cycle
  complete : ∀ y ∈ done, ∃ below avoided, Discovered g (y :: below) avoided ∧
    ∀ x ∈ g.next y, x ∈ y :: below → cycleTo x (y :: below) ∈ s.cycles
  ordered : s.cycles = [] → Ordered g done

variable {v u x : V} {colour : V → Colour} {i : Nat} {below : List (V × Nat)}
  {before after order : List V}

section Invariance

variable {g : OrderedGraph V} {s : Search V} {done : List V}

theorem Invariant.seen (h : Invariant g s done) : s.colour v ≠ .white ↔ v ∈ done ∨ v ∈ s.path := by
  rw [← h.black, ← h.gray]
  cases s.colour v <;> decide

theorem update_ne_white {c : Colour} (hC : c ≠ .white)
    (hV : colour v ≠ .white) : Function.update colour u c v ≠ .white := by
  by_cases hEq : v = u
  · rwa [hEq, Function.update_self]
  · rwa [Function.update_of_ne hEq]

/-- A node with no successors left is left for good. -/
theorem Invariant.pop (h : Invariant g s done) (hStack : s.stack = (u, i) :: below)
    (hNone : (g.next u)[i]? = none) :
    Invariant g { s with colour := Function.update s.colour u .black, stack := below }
      (u :: done) := by
  obtain ⟨avoided, hAvoided, hPath⟩ := h.discovered
  have hNodes : s.path = u :: below.map Prod.fst := by rw [Search.path, hStack]; rfl
  rw [hNodes] at hPath
  have hFresh := (List.nodup_cons.mp hPath.simple.nodup).1
  have hNotDone : u ∉ done := by
    rw [← h.black, (h.gray u).mpr (by simp [hNodes])]
    decide
  -- Every successor has been looked at.
  have hAll : ∀ x ∈ g.next u, s.colour x ≠ .white ∧ (x ∈ u :: below.map Prod.fst →
      cycleTo x (u :: below.map Prod.fst) ∈ s.cycles) := by
    have hFrame := h.frames u i below (by rw [hStack])
    rwa [List.take_of_length_le (List.getElem?_eq_none_iff.mp hNone)] at hFrame
  refine ⟨fun v => ?_, fun v => ?_, List.nodup_cons.mpr ⟨hNotDone, h.nodup⟩, ?_, ?_, ?_, h.sound,
    ?_, fun hEmpty => ⟨fun x hX => ?_, h.ordered hEmpty⟩⟩
  · by_cases hEq : v = u
    · simp [hEq]
    · simp [h.black, hEq]
  · by_cases hEq : v = u
    · subst hEq
      simpa [Search.path] using hFresh
    · simp only [Function.update_of_ne hEq, h.gray, hNodes, List.mem_cons, hEq, false_or]
      rfl
  · intro v hV x hX
    refine update_ne_white (by decide) ?_
    rcases List.mem_cons.mp hV with rfl | hDone
    · exact (hAll x hX).1
    · exact h.closed v hDone x hX
  · obtain ⟨old, hOld, hPrior⟩ := hPath.tail
    exact ⟨old, fun v hV => List.mem_cons_of_mem _ (hAvoided v (hOld hV)), hPrior⟩
  · intro v j rest hSuffix x hX
    have hFrame := h.frames v j rest (hStack ▸ hSuffix.trans (List.suffix_cons ..)) x hX
    exact ⟨update_ne_white (by decide) hFrame.1, hFrame.2⟩
  · intro v hV
    rcases List.mem_cons.mp hV with rfl | hDone
    · exact ⟨_, avoided, hPath, fun x hX => (hAll x hX).2⟩
    · exact h.complete v hDone
  · rcases h.seen.mp (hAll x hX).1 with hDone | hGray
    · exact hDone
    · have hCycle := (hAll x hX).2 (hNodes ▸ hGray)
      rw [hEmpty] at hCycle
      cases hCycle

theorem Invariant.frames_succ (h : Invariant g s done) (hStack : s.stack = (u, i) :: below)
    (hNext : (g.next u)[i]? = some x) {cycles : List (List V)}
    (hColour : ∀ v, s.colour v ≠ .white → colour v ≠ .white)
    (hCycles : ∀ cycle ∈ s.cycles, cycle ∈ cycles) (hX : colour x ≠ .white)
    (hCycle : x ∈ u :: below.map Prod.fst → cycleTo x (u :: below.map Prod.fst) ∈ cycles) :
    Looked g colour cycles ((u, i + 1) :: below) := by
  intro v j rest hSuffix y hY
  have hOld {looked : Nat} (hFrame : (v, looked) :: rest <:+ s.stack)
      (hY : y ∈ (g.next v).take looked) : colour y ≠ .white ∧
      (y ∈ v :: rest.map Prod.fst → cycleTo y (v :: rest.map Prod.fst) ∈ cycles) := by
    obtain ⟨hSeen, hReported⟩ := h.frames v looked rest hFrame y hY
    exact ⟨hColour y hSeen, fun hMem => hCycles _ (hReported hMem)⟩
  rcases List.suffix_cons_iff.mp hSuffix with hTop | hBelow
  · obtain ⟨⟨rfl, rfl⟩, rfl⟩ : (v = u ∧ j = i + 1) ∧ rest = below := by simpa using hTop
    rw [List.take_add_one, hNext, List.mem_append] at hY
    rcases hY with hBefore | hLast
    · exact hOld (by rw [hStack]) hBefore
    · obtain rfl : y = x := by simpa using hLast
      exact ⟨hX, hCycle⟩
  · exact hOld (hStack ▸ hBelow.trans (List.suffix_cons ..)) hY

/-- A node not seen before goes on top of the stack. -/
theorem Invariant.paint (h : Invariant g s done) {stack : List (V × Nat)}
    (hSame : stack.map Prod.fst = s.path) (hWhite : s.colour x = .white)
    (hPath : x ∉ done → x ∉ s.path → Discovered g (x :: s.path) {v | v ∈ done})
    (hFrames : Looked g (Function.update s.colour x .gray) s.cycles stack) :
    Invariant g { s with colour := Function.update s.colour x .gray
                         stack := (x, 0) :: stack } done := by
  have hUnseen : x ∉ done ∧ x ∉ s.path := by
    rw [← not_or, ← h.seen, hWhite]
    exact not_not.mpr rfl
  have hNodes : Search.path { s with colour := Function.update s.colour x .gray
                                     stack := (x, 0) :: stack } = x :: s.path :=
    congrArg (List.cons x) hSame
  refine ⟨fun v => ?_, fun v => ?_, h.nodup, fun v hV y hY =>
    update_ne_white (by decide) (h.closed v hV y hY), ⟨{v | v ∈ done}, fun _ hV => hV, ?_⟩, ?_,
    h.sound, h.complete, h.ordered⟩
  · by_cases hEq : v = x
    · simp [hEq, hUnseen.1]
    · simp [h.black, hEq]
  · rw [hNodes]
    by_cases hEq : v = x
    · simp [hEq]
    · simp [h.gray, hEq]
  · rw [hNodes]
    exact hPath hUnseen.1 hUnseen.2
  · intro v j rest hSuffix y hY
    rcases List.suffix_cons_iff.mp hSuffix with hTop | hBelow
    · obtain ⟨⟨rfl, rfl⟩, rfl⟩ : (v = x ∧ j = 0) ∧ rest = stack := by simpa using hTop
      cases hY
    · exact hFrames v j rest hBelow y hY

/-- A successor not yet seen ends the next discovered path. -/
theorem Invariant.push (h : Invariant g s done) (hStack : s.stack = (u, i) :: below)
    (hNext : (g.next u)[i]? = some x) (hWhite : s.colour x = .white) :
    Invariant g { s with colour := Function.update s.colour x .gray
                         stack := (x, 0) :: (u, i + 1) :: below } done := by
  obtain ⟨avoided, hAvoided, hPath⟩ := h.discovered
  have hNodes : s.path = u :: below.map Prod.fst := by rw [Search.path, hStack]; rfl
  have hOptions : g.options s.path = (g.next u).take i ++ x :: (g.next u).drop (i + 1) := by
    obtain ⟨hLt, hGet⟩ := List.getElem?_eq_some_iff.mp hNext
    rw [hNodes, OrderedGraph.options, ← hGet, List.getElem_cons_drop, List.take_append_drop]
  refine h.paint hNodes.symm hWhite (fun hNotDone hNotOn => ?_) ?_
  · refine .push hPath hAvoided hOptions (fun t hT => ?_) (fun v hV y hY => ?_) hNotDone hNotOn
    · exact h.seen.mp (h.frames u i below (by rw [hStack]) t hT).1
    · exact h.seen.mp (h.closed v hV y hY)
  · refine h.frames_succ hStack hNext (fun v hV => update_ne_white (by decide) hV)
      (fun _ hC => hC) (by simp) fun hMem => ?_
    rw [← hNodes, ← h.gray, hWhite] at hMem
    cases hMem

/-- A successor on the stack closes a cycle. -/
theorem Invariant.close (h : Invariant g s done) (hStack : s.stack = (u, i) :: below)
    (hNext : (g.next u)[i]? = some x) (hGray : s.colour x = .gray) :
    Invariant g { s with stack := (u, i + 1) :: below
                         cycles := s.cycles ++ [cycleTo x (u :: below.map Prod.fst)] } done := by
  obtain ⟨avoided, hAvoided, hPath⟩ := h.discovered
  have hNodes : s.path = u :: below.map Prod.fst := by rw [Search.path, hStack]; rfl
  have hMore (cycle : List V) (hCycle : cycle ∈ s.cycles) :
      cycle ∈ s.cycles ++ [cycleTo x (u :: below.map Prod.fst)] := List.mem_append_left _ hCycle
  rw [hNodes] at hPath
  refine ⟨h.black, fun v => ?_, h.nodup, h.closed, ⟨avoided, hAvoided, hPath⟩,
    h.frames_succ hStack hNext (fun _ hV => hV) hMore (by rw [hGray]; decide) (by simp), ?_, ?_, ?_⟩
  · rw [h.gray, hNodes]
    rfl
  · rw [List.forall_mem_append, List.forall_mem_singleton]
    refine ⟨h.sound, u, _, avoided, x, hPath, List.mem_of_getElem? hNext, ?_, rfl⟩
    rw [← hNodes, ← h.gray]
    exact hGray
  · intro v hV
    obtain ⟨rest, set, hV, hReported⟩ := h.complete v hV
    exact ⟨rest, set, hV, fun y hY hMem => hMore _ (hReported y hY hMem)⟩
  · simp

/-- A successor that has been left is passed over. -/
theorem Invariant.skip (h : Invariant g s done) (hStack : s.stack = (u, i) :: below)
    (hNext : (g.next u)[i]? = some x) (hBlack : s.colour x = .black) :
    Invariant g { s with stack := (u, i + 1) :: below } done := by
  have hNodes : s.path = u :: below.map Prod.fst := by rw [Search.path, hStack]; rfl
  have hDiscovered := h.discovered
  rw [hNodes] at hDiscovered
  refine ⟨h.black, fun v => ?_, h.nodup, h.closed, hDiscovered,
    h.frames_succ hStack hNext (fun _ hV => hV) (fun _ hC => hC) (by rw [hBlack]; decide)
      (fun hMem => ?_), h.sound, h.complete, h.ordered⟩
  · rw [h.gray, hNodes]
    rfl
  · rw [← hNodes, ← h.gray, hBlack] at hMem
    cases hMem

/-- What a turn of the loop can do. -/
theorem step_cases (g : OrderedGraph V) (s : Search V) : s.stack = [] ∧ step g s = s ∨
    ∃ u i below, s.stack = (u, i) :: below ∧
      ((∃ x, (g.next u)[i]? = some x ∧
        (s.colour x = .white ∧ step g s =
            { s with colour := Function.update s.colour x .gray
                     stack := (x, 0) :: (u, i + 1) :: below } ∨
          s.colour x = .gray ∧ step g s =
            { s with stack := (u, i + 1) :: below
                     cycles := s.cycles ++ [cycleTo x (u :: below.map Prod.fst)] } ∨
          s.colour x = .black ∧ step g s = { s with stack := (u, i + 1) :: below })) ∨
        (g.next u)[i]? = none ∧ step g s =
          { s with colour := Function.update s.colour u .black, stack := below }) := by
  cases hStack : s.stack with
  | nil => exact .inl ⟨rfl, by simp only [step, hStack]⟩
  | cons frame below =>
    obtain ⟨u, i⟩ := frame
    refine .inr ⟨u, i, below, rfl, ?_⟩
    cases hNext : (g.next u)[i]? with
    | none => exact .inr ⟨rfl, by simp only [step, hStack, hNext]⟩
    | some x =>
      refine .inl ⟨x, rfl, ?_⟩
      cases hColour : s.colour x with
      | white => exact .inl ⟨rfl, by simp only [step, hStack, hNext, hColour]⟩
      | gray => exact .inr (.inl ⟨rfl, by simp only [step, hStack, hNext, hColour]⟩)
      | black => exact .inr (.inr ⟨rfl, by simp only [step, hStack, hNext, hColour]⟩)

/-- Every turn of the loop keeps the invariant. -/
theorem Invariant.step (h : Invariant g s done) : ∃ left, Invariant g (step g s) left := by
  rcases step_cases g s with ⟨-, hStep⟩ | ⟨u, i, below, hStack,
    ⟨x, hNext, ⟨hWhite, hStep⟩ | ⟨hGray, hStep⟩ | ⟨hBlack, hStep⟩⟩ | ⟨hNone, hStep⟩⟩ <;> rw [hStep]
  · exact ⟨done, h⟩
  · exact ⟨done, h.push hStack hNext hWhite⟩
  · exact ⟨done, h.close hStack hNext hGray⟩
  · exact ⟨done, h.skip hStack hNext hBlack⟩
  · exact ⟨u :: done, h.pop hStack hNone⟩

theorem step_seen (h : s.colour v ≠ .white) : (step g s).colour v ≠ .white := by
  rcases step_cases g s with ⟨-, hStep⟩ | ⟨u, i, below, -,
    ⟨x, -, ⟨-, hStep⟩ | ⟨-, hStep⟩ | ⟨-, hStep⟩⟩ | ⟨-, hStep⟩⟩ <;> rw [hStep]
  · exact h
  · exact update_ne_white (by decide) h
  · exact h
  · exact h
  · exact update_ne_white (by decide) h

end Invariance

structure Whole (g : OrderedGraph V) : Prop where
  nodup : g.starts.Nodup
  closed : ∀ u ∈ g.starts, ∀ x ∈ g.next u, x ∈ g.starts

section Termination

variable {g : OrderedGraph V} {s : Search V} {done : List V}

omit [DecidableEq V] in
theorem mem_starts (hWhole : Whole g) {path : List V} (h : SimplePath g path) :
    ∀ v ∈ path, v ∈ g.starts := by
  induction h with
  | nil => simp
  | @push v path prior option _ ih =>
    refine List.forall_mem_cons.mpr ⟨?_, ih⟩
    cases path with
    | nil => exact option
    | cons u path => exact hWhole.closed u (ih u List.mem_cons_self) v option

/-- The turns left at a node: one for each successor, and one more. -/
def turns (g : OrderedGraph V) (v : V) (looked : Nat) : Nat := (g.next v).length - looked + 1

/-- The turns left, at the nodes not seen and on the stack. -/
def turnsLeft (g : OrderedGraph V) (s : Search V) : Nat :=
  (∑ v ∈ g.starts.toFinset, if s.colour v = .white then turns g v 0 else 0) +
    (s.stack.map fun frame => turns g frame.1 frame.2).sum

def allTurns (g : OrderedGraph V) : Nat := ∑ v ∈ g.starts.toFinset, turns g v 0

theorem sum_update_white {nodes : Finset V} (hX : x ∈ nodes) (hWhite : colour x = .white)
    {c : Colour} (hC : c ≠ .white) (weight : V → Nat) :
    (∑ v ∈ nodes, if Function.update colour x c v = .white then weight v else 0) + weight x =
      ∑ v ∈ nodes, if colour v = .white then weight v else 0 := by
  rw [← Finset.add_sum_erase _ _ hX, ← Finset.add_sum_erase nodes (fun v => if colour v = .white
    then weight v else 0) hX, Function.update_self, if_neg hC, if_pos hWhite, Nat.zero_add,
    Nat.add_comm]
  congr 1
  refine Finset.sum_congr rfl fun v hV => ?_
  rw [Function.update_of_ne (Finset.ne_of_mem_erase hV)]

theorem sum_update_black {nodes : Finset V} (hU : colour u ≠ .white) {c : Colour} (hC : c ≠ .white)
    (weight : V → Nat) :
    (∑ v ∈ nodes, if Function.update colour u c v = .white then weight v else 0) =
      ∑ v ∈ nodes, if colour v = .white then weight v else 0 := by
  refine Finset.sum_congr rfl fun v _ => ?_
  by_cases hEq : v = u
  · rw [hEq, Function.update_self, if_neg hC, if_neg hU]
  · rw [Function.update_of_ne hEq]

theorem turnsLeft_step (hWhole : Whole g) (h : Invariant g s done) (hStack : s.stack ≠ []) :
    turnsLeft g (step g s) < turnsLeft g s := by
  obtain ⟨avoided, -, hPath⟩ := h.discovered
  rcases step_cases g s with ⟨hEmpty, -⟩ | ⟨u, i, below, hTop, hCases⟩
  · exact absurd hEmpty hStack
  have hU : u ∈ g.starts := mem_starts hWhole hPath.simple u (by simp [Search.path, hTop])
  have hLeft : turnsLeft g s = (∑ v ∈ g.starts.toFinset, if s.colour v = .white then turns g v 0
      else 0) + (turns g u i + (below.map fun frame => turns g frame.1 frame.2).sum) := by
    rw [turnsLeft, hTop]
    rfl
  rcases hCases with ⟨x, hNext, hLook⟩ | ⟨-, hStep⟩
  · have hLt : i < (g.next u).length := (List.getElem?_eq_some_iff.mp hNext).1
    have hFrame : turns g u (i + 1) < turns g u i := by
      unfold turns
      omega
    rcases hLook with ⟨hWhite, hStep⟩ | ⟨-, hStep⟩ | ⟨-, hStep⟩ <;> rw [hLeft, hStep]
    · have hX : x ∈ g.starts.toFinset :=
        List.mem_toFinset.mpr (hWhole.closed u hU x (List.mem_of_getElem? hNext))
      have hSum := sum_update_white hX hWhite (show Colour.gray ≠ .white by decide) (turns g · 0)
      simp only [turnsLeft, List.map_cons, List.sum_cons]
      omega
    · simp only [turnsLeft, List.map_cons, List.sum_cons]
      omega
    · simp only [turnsLeft, List.map_cons, List.sum_cons]
      omega
  · have hGray : s.colour u ≠ .white := h.seen.mpr (.inr (by simp [Search.path, hTop]))
    have hSum : (∑ v ∈ g.starts.toFinset, if Function.update s.colour u .black v = .white
        then turns g v 0 else 0) = _ := sum_update_black hGray (by decide) (turns g · 0)
    have hPos : 0 < turns g u i := Nat.succ_pos _
    rw [hLeft, hStep]
    simp only [turnsLeft]
    omega

/-- A search that has come to an end, with what it started from. -/
structure Finished (g : OrderedGraph V) (s finish : Search V) (left : List V) : Prop where
  empty : finish.stack = []
  invariant : Invariant g finish left
  seen : ∀ v, s.colour v ≠ .white → finish.colour v ≠ .white
  turns : turnsLeft g finish ≤ turnsLeft g s

/-- The loop ends, and with more fuel it ends in the same way. -/
theorem drain_finished (hWhole : Whole g) (h : Invariant g s done) {bound : Nat}
    (hBound : turnsLeft g s ≤ bound) :
    ∃ finish left, (∀ fuel ≥ bound, drain g fuel s = some finish) ∧ Finished g s finish left := by
  induction bound generalizing s done with
  | zero =>
    have hStack : s.stack = [] := by
      by_contra hNe
      have := turnsLeft_step hWhole h hNe
      omega
    refine ⟨s, done, fun fuel _ => ?_, hStack, h, fun _ hV => hV, le_rfl⟩
    cases fuel <;> simp [drain, hStack]
  | succ bound ih =>
    by_cases hStack : s.stack = []
    · refine ⟨s, done, fun fuel _ => ?_, hStack, h, fun _ hV => hV, le_rfl⟩
      cases fuel <;> simp [drain, hStack]
    · have hLess := turnsLeft_step hWhole h hStack
      obtain ⟨left, hLeft⟩ := h.step
      obtain ⟨finish, last, hDrain, hFinished⟩ := ih hLeft (by omega)
      refine ⟨finish, last, fun fuel hFuel => ?_, hFinished.empty, hFinished.invariant,
        fun v hV => hFinished.seen v (step_seen hV), hFinished.turns.trans hLess.le⟩
      obtain ⟨fuel, rfl⟩ : ∃ n, fuel = n + 1 := ⟨fuel - 1, by omega⟩
      rw [drain, if_neg (by simpa using hStack)]
      exact hDrain fuel (by omega)

theorem Invariant.mem_done (h : Invariant g s done) (hStack : s.stack = [])
    (hV : s.colour v ≠ .white) : v ∈ done := by
  refine (h.seen.mp hV).resolve_right ?_
  simp [Search.path, hStack]

/-- A start that has not been seen is a path of its own. -/
theorem Invariant.begin (h : Invariant g s done) (hStack : s.stack = []) {start : V}
    (hStarts : g.starts = before ++ start :: after) (hBefore : ∀ v ∈ before, v ∈ done)
    (hWhite : s.colour start = .white) :
    Invariant g { s with colour := Function.update s.colour start .gray
                         stack := [(start, 0)] } done := by
  have hPath : s.path = [] := by rw [Search.path, hStack]; rfl
  refine h.paint hPath.symm hWhite (fun hUnseen _ => ?_) (by simp [Looked])
  rw [hPath]
  exact .push .nil (Set.empty_subset _) hStarts (fun v hV => .inl (hBefore v hV))
    (fun v hV x hX => .inl (h.mem_done hStack (h.closed v hV x hX))) hUnseen List.not_mem_nil

theorem visit_finished (hWhole : Whole g) (h : Invariant g s done) (hStack : s.stack = [])
    {start : V} (hStarts : g.starts = before ++ start :: after) (hBefore : ∀ v ∈ before, v ∈ done)
    {bound : Nat} (hBound : turnsLeft g s ≤ bound) :
    ∃ finish left, (∀ fuel ≥ bound, visit g fuel s start = some finish) ∧
      Finished g s finish left ∧ start ∈ left := by
  by_cases hWhite : s.colour start = .white
  · have hStart : start ∈ g.starts.toFinset := by simp [hStarts]
    have hSum := sum_update_white hStart hWhite (show Colour.gray ≠ .white by decide) (turns g · 0)
    have hTurns : turnsLeft g { s with colour := Function.update s.colour start .gray
                                       stack := [(start, 0)] } = turnsLeft g s := by
      simp only [turnsLeft, hStack, List.map_cons, List.map_nil, List.sum_cons, List.sum_nil]
      omega
    obtain ⟨finish, left, hDrain, hFinished⟩ := drain_finished hWhole
      (h.begin hStack hStarts hBefore hWhite) (hTurns.le.trans hBound)
    refine ⟨finish, left, fun fuel hFuel => ?_, ⟨hFinished.empty, hFinished.invariant, fun v hV =>
      hFinished.seen v (update_ne_white (by decide) hV), hFinished.turns.trans hTurns.le⟩, ?_⟩
    · rw [visit, if_pos hWhite, hDrain fuel hFuel]
    · exact hFinished.invariant.mem_done hFinished.empty (hFinished.seen start (by simp))
  · exact ⟨s, done, fun fuel _ => by rw [visit, if_neg hWhite],
      ⟨hStack, h, fun _ hV => hV, le_rfl⟩, h.mem_done hStack hWhite⟩

/-- The search from the starts that are left. -/
theorem visits_finished (hWhole : Whole g) (hStarts : g.starts = before ++ after)
    (h : Invariant g s done) (hStack : s.stack = []) (hBefore : ∀ v ∈ before, v ∈ done)
    {bound : Nat} (hBound : turnsLeft g s ≤ bound) :
    ∃ finish left, (∀ fuel ≥ bound, after.foldlM (visit g fuel) s = some finish) ∧
      finish.stack = [] ∧ Invariant g finish left ∧ ∀ v ∈ g.starts, v ∈ left := by
  induction after generalizing before s done with
  | nil =>
    rw [List.append_nil] at hStarts
    exact ⟨s, done, fun _ _ => rfl, hStack, h, hStarts ▸ hBefore⟩
  | cons start after ih =>
    obtain ⟨next, left, hVisit, hNext, hStart⟩ :=
      visit_finished hWhole h hStack hStarts hBefore hBound
    have hLeft : ∀ v ∈ before ++ [start], v ∈ left := by
      rw [List.forall_mem_append, List.forall_mem_singleton]
      refine ⟨fun v hV => ?_, hStart⟩
      have hSeen : s.colour v ≠ .white := h.seen.mpr (.inl (hBefore v hV))
      exact hNext.invariant.mem_done hNext.empty (hNext.seen v hSeen)
    obtain ⟨finish, last, hFold, hFinish⟩ := ih (by rw [hStarts]; simp) hNext.invariant
      hNext.empty hLeft (hNext.turns.trans hBound)
    refine ⟨finish, last, fun fuel hFuel => ?_, hFinish⟩
    rw [List.foldlM_cons, hVisit fuel hFuel]
    exact hFold fuel hFuel

theorem search_finished (hWhole : Whole g) :
    ∃ finish left, (∀ fuel ≥ allTurns g, search g fuel = some finish) ∧
      finish.stack = [] ∧ Invariant g finish left ∧ ∀ v ∈ g.starts, v ∈ left := by
  have hStart : Invariant g ⟨fun _ => .white, [], []⟩ [] := by
    refine ⟨by simp, by simp [Search.path], List.nodup_nil, by simp,
      ⟨∅, by simp, .nil⟩, by simp [Looked], by simp, by simp, fun _ => trivial⟩
  refine visits_finished hWhole (List.nil_append g.starts).symm hStart rfl (by simp) ?_
  simp [turnsLeft, allTurns]

end Termination

section Results

variable {g : OrderedGraph V}

/-- The successors of a node that leave it for the rest of the graph. -/
def Edge (g : OrderedGraph V) (u x : V) : Prop := u ∈ g.starts ∧ x ∈ g.next u

omit [DecidableEq V] in
theorem Ordered.mem_of_edge (h : Ordered g order) (hU : u ∈ order)
    (hX : x ∈ g.next u) : x ∈ order := by
  induction order with
  | nil => cases hU
  | cons v order ih =>
    rcases List.mem_cons.mp hU with rfl | hRest
    · exact List.mem_cons_of_mem _ (h.1 x hX)
    · exact List.mem_cons_of_mem _ (ih h.2 hRest)

omit [DecidableEq V] in
theorem Ordered.mem_of_transGen (h : Ordered g order) (hU : u ∈ order)
    (hX : Relation.TransGen (Edge g) u x) : x ∈ order := by
  induction hX with
  | single hEdge => exact h.mem_of_edge hU hEdge.2
  | tail _ hEdge ih => exact h.mem_of_edge ih hEdge.2

omit [DecidableEq V] in
theorem Ordered.acyclic (h : Ordered g order) (hNodup : order.Nodup)
    (hU : u ∈ order) : ¬ Relation.TransGen (Edge g) u u := by
  induction order with
  | nil => cases hU
  | cons v order ih =>
    obtain ⟨hFresh, hNodup⟩ := List.nodup_cons.mp hNodup
    rcases List.mem_cons.mp hU with rfl | hRest
    · intro hCycle
      -- The first step leads into the rest of the order, which is never left again.
      obtain ⟨x, hEdge, hBack⟩ := Relation.TransGen.head'_iff.mp hCycle
      have hX : x ∈ order := h.1 x hEdge.2
      rcases Relation.reflTransGen_iff_eq_or_transGen.mp hBack with rfl | hPath
      · exact hFresh hX
      · exact hFresh (h.2.mem_of_transGen hX hPath)
    · exact ih h.2 hNodup hRest

/-- The search ends. It reports the ways back into the first path to each node, and nothing only if
there is no cycle. -/
theorem search_spec (hWhole : Whole g) :
    ∃ finish, (∀ fuel ≥ allTurns g, search g fuel = some finish) ∧
    (∀ cycle, cycle ∈ finish.cycles ↔ ∃ y below x, IsFirst g (y :: below) ∧ x ∈ g.next y ∧
      x ∈ y :: below ∧ cycle = cycleTo x (y :: below)) ∧
    (finish.cycles = [] → ∀ u, ¬ Relation.TransGen (Edge g) u u) := by
  obtain ⟨finish, left, hSearch, hStack, hInvariant, hAll⟩ := search_finished hWhole
  refine ⟨finish, hSearch, fun cycle => ⟨fun hCycle => ?_, ?_⟩, fun hNone u hCycle => ?_⟩
  · obtain ⟨y, below, avoided, x, hPath, hRest⟩ := hInvariant.sound cycle hCycle
    exact ⟨y, below, x, hPath.isFirst, hRest⟩
  · rintro ⟨y, below, x, hFirst, hNext, hMem, rfl⟩
    have hY : y ∈ left := hAll y (mem_starts hWhole hFirst.simple y List.mem_cons_self)
    obtain ⟨other, avoided, hPath, hReported⟩ := hInvariant.complete y hY
    obtain ⟨-, rfl⟩ := List.cons.inj (hFirst.unique hPath.isFirst rfl)
    exact hReported x hNext hMem
  · obtain ⟨x, hEdge, -⟩ := Relation.TransGen.head'_iff.mp hCycle
    exact (hInvariant.ordered hNone).acyclic hInvariant.nodup (hAll u hEdge.1) hCycle

/-- A list that goes along a relation, each node once, and ends where it begins. -/
structure IsCycle (r : V → V → Prop) (cycle : List V) : Prop where
  nontrivial : 2 ≤ cycle.length
  closed : cycle.head? = cycle.getLast?
  simple : cycle.dropLast.Nodup
  linked : cycle.IsChain r

omit [DecidableEq V] in
theorem IsCycle.exists_transGen {r : V → V → Prop} {cycle : List V} (h : IsCycle r cycle) :
    ∃ u, Relation.TransGen r u u := by
  obtain ⟨hLong, hClosed, -, hLinked⟩ := h
  match cycle, hLong with
  | u :: x :: rest, _ =>
    obtain ⟨hFirst, hRest⟩ := List.isChain_cons_cons.mp hLinked
    have hLast : (x :: rest).getLast (List.cons_ne_nil x rest) = u := by
      rw [List.head?_cons, List.getLast?_cons_cons,
        List.getLast?_eq_some_getLast (List.cons_ne_nil x rest)] at hClosed
      exact (Option.some.inj hClosed).symm
    have hBack := List.relationReflTransGen_of_exists_isChain_cons rest hRest hLast
    exact ⟨u, Relation.TransGen.head' hFirst hBack⟩

omit [DecidableEq V] in
theorem IsCycle.related {r : V → V → Prop} {cycle : List V} (h : IsCycle r cycle)
    (hV : v ∈ cycle) : ∃ u, r v u ∨ r u v := by
  have hLinked := List.isChain_iff_forall_rel_of_append_cons_cons.mp h.linked
  obtain ⟨before, after, rfl⟩ := List.append_of_mem hV
  cases after with
  | cons u after => exact ⟨u, .inl (hLinked rfl)⟩
  | nil =>
    rcases List.eq_nil_or_concat' before with rfl | ⟨before, u, rfl⟩
    · exact absurd h.nontrivial (by simp)
    · exact ⟨u, .inr (hLinked (List.append_assoc before [u] [v]))⟩

theorem cycleTo_append {above rest : List V} (hX : x ∉ above) :
    cycleTo x (above ++ x :: rest) = (above ++ [x]).reverse ++ [x] := by
  have hAbove : ∀ v ∈ above, decide (v ≠ x) := by
    intro v hV
    exact decide_eq_true fun hEq => hX (hEq ▸ hV)
  rw [cycleTo, List.takeWhile_append_of_pos hAbove, List.takeWhile_cons_of_neg (by simp)]
  simp

/-- A way back into a path closes a cycle. -/
theorem isCycle_cycleTo (hWhole : Whole g) {y : V} {below : List V}
    (hPath : SimplePath g (y :: below)) (hNext : x ∈ g.next y) (hMem : x ∈ y :: below) :
    IsCycle (Edge g) (cycleTo x (y :: below)) := by
  have hEdges : (y :: below).IsChain fun v u => Edge g u v := by
    refine hPath.isChain.imp_of_mem_imp fun v u _ hU hV => ⟨mem_starts hWhole hPath u hU, hV⟩
  have hBack : Edge g y x := ⟨mem_starts hWhole hPath y List.mem_cons_self, hNext⟩
  have hNodup := hPath.nodup
  have hHead : (y :: below).head? = some y := rfl
  obtain ⟨above, rest, hSplit, hX⟩ := List.eq_append_cons_of_mem hMem
  rw [hSplit, ← List.singleton_append, ← List.append_assoc] at hEdges hNodup hHead
  rw [hSplit, cycleTo_append hX]
  refine ⟨by simp, ?_, ?_, ?_⟩
  · rw [List.getLast?_concat, List.reverse_concat, List.cons_append, List.head?_cons]
  · rw [List.dropLast_concat]
    exact List.nodup_reverse.mpr (List.nodup_append.mp hNodup).1
  · have hUp := List.isChain_reverse.mpr hEdges.left_of_append
    refine List.isChain_append.mpr ⟨hUp, .singleton x, fun u hU v hV => ?_⟩
    obtain rfl : x = v := Option.mem_some_iff.mp hV
    have hTop : (above ++ [x]).head? = some y := by
      cases above with
      | nil => exact hHead
      | cons a above => exact hHead
    rw [List.getLast?_reverse, hTop] at hU
    exact Option.mem_some_iff.mp hU ▸ hBack

/-- What lies on the cycle that a way back closes. -/
theorem mem_cycleTo {path : List V} (hMem : x ∈ path) (hNodup : path.Nodup) :
    v ∈ cycleTo x path ↔ ∃ above rest, path = above ++ x :: rest ∧ v ∈ above ++ [x] := by
  have hIff : ∀ above rest, path = above ++ x :: rest →
      (v ∈ cycleTo x path ↔ v ∈ above ++ [x]) := by
    intro above rest hSplit
    have hX : x ∉ above := fun h =>
      List.disjoint_of_nodup_append (hSplit ▸ hNodup) h List.mem_cons_self
    rw [hSplit, cycleTo_append hX, List.mem_append, List.mem_reverse, or_iff_left_iff_imp]
    exact List.mem_append_right above
  constructor
  · intro h
    obtain ⟨above, rest, hSplit⟩ := List.append_of_mem hMem
    exact ⟨above, rest, hSplit, (hIff above rest hSplit).mp h⟩
  · rintro ⟨above, rest, hSplit, h⟩
    exact (hIff above rest hSplit).mpr h

end Results

end DepthFirst
