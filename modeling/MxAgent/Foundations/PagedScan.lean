import Mathlib.Data.List.Basic

/-! Scanning a long list that is handed out in pages. A page names the token of the next one. The
scan folds the items of a page into a state and stops at a limit, at the end of the list, or when
the state is complete. Where nothing can change a complete state, the scan of a list within the
limit is the fold over all of it, whatever the pages are. -/
namespace PagedScan

structure Page (ι τ : Type) where
  chunk : List ι
  next : Option τ

variable {ι τ σ ε : Type} (fetch : Option τ → Except ε (Page ι τ)) (absorb : σ → ι → σ)
  (complete : σ → Bool) (limit : Nat)

/-- The scan, with a number of turns. All but its last bring an item, so the limit is enough. -/
def scan : Nat → Option τ → Nat → σ → Except ε σ
  | 0, _, _, state => .ok state
  | turns + 1, token, scanned, state =>
    if scanned < limit then do
      let page ← fetch token
      if page.chunk.isEmpty then .ok state
      else
        let state := page.chunk.foldl absorb state
        if complete state then .ok state
        else
          match page.next with
          | some next => scan turns (some next) (scanned + page.chunk.length) state
          | none => .ok state
    else .ok state

/-- The list is handed out in these pages from a token on: none is empty, and each but the last
names the next. An empty page may come after it. -/
inductive Linked : Option τ → List (List ι) → Prop
  | ended {token : Option τ} {page : Page ι τ} (hPage : fetch token = .ok page)
      (hEmpty : page.chunk = []) : Linked token []
  | last {token : Option τ} {page : Page ι τ} (hPage : fetch token = .ok page)
      (hSome : page.chunk ≠ []) (hNext : page.next = none) : Linked token [page.chunk]
  | more {token : Option τ} {page : Page ι τ} {next : τ} {pages : List (List ι)}
      (hPage : fetch token = .ok page) (hSome : page.chunk ≠ []) (hNext : page.next = some next)
      (hRest : Linked (some next) pages) : Linked token (page.chunk :: pages)

variable {fetch absorb complete limit}

theorem foldl_of_complete (hSettled : ∀ state item, complete state →
    absorb state item = state) {state : σ} (hComplete : complete state) (items : List ι) :
    items.foldl absorb state = state := by
  induction items with
  | nil => rfl
  | cons item items ih => rw [List.foldl_cons, hSettled state item hComplete, ih]

/-- The scan of a list within the limit is the fold over all of it. -/
theorem scan_eq_foldl (hSettled : ∀ state item, complete state →
      absorb state item = state)
    {token : Option τ} {pages : List (List ι)} (hLinked : Linked fetch token pages)
    {turns scanned : Nat} (hTurns : limit ≤ turns + scanned)
    (hLimit : scanned + pages.flatten.length ≤ limit) (state : σ) :
    scan fetch absorb complete limit turns token scanned state =
      .ok (pages.flatten.foldl absorb state) := by
  induction hLinked generalizing turns scanned state with
  | ended hPage hEmpty =>
    cases turns with
    | zero => rfl
    | succ turns =>
      rw [scan]
      split
      · rw [hPage]
        exact if_pos (by simp [hEmpty])
      · rfl
  | @last token page hPage hSome hNext =>
    rw [List.flatten_singleton] at hLimit ⊢
    have hPositive := List.length_pos_iff.mpr hSome
    obtain ⟨rest, rfl⟩ : ∃ rest, turns = rest + 1 := ⟨turns - 1, by omega⟩
    rw [scan, if_pos (by omega), hPage]
    refine (if_neg (by simpa using hSome)).trans ?_
    simp only [hNext]
    split <;> rfl
  | @more token page next pages hPage hSome hNext _ ih =>
    rw [List.flatten_cons, List.length_append] at hLimit
    have hPositive := List.length_pos_iff.mpr hSome
    obtain ⟨rest, rfl⟩ : ∃ rest, turns = rest + 1 := ⟨turns - 1, by omega⟩
    rw [scan, if_pos (by omega), hPage]
    refine (if_neg (by simpa using hSome)).trans ?_
    rw [List.flatten_cons, List.foldl_append]
    simp only [hNext]
    split
    · rename_i hComplete
      rw [foldl_of_complete hSettled hComplete]
    · exact ih (by omega) (by omega) _

end PagedScan
