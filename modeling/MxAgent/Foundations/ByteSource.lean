import Mathlib.Data.List.Basic

/-! Sources of bytes with short reads. A reader of a byte stream may hand over fewer bytes than
there is room for, and it decides anew at every call how many. A `ByteSource` is any such reader,
over a state type of its own. `fill` is the loop that asks again until the room is used up or the
stream has ended; what it collects depends on the pending bytes alone, however they are split. -/

/-- A reader that never fails. `read s room` hands over the next part of what is pending, at most
`room` bytes, and nothing only when nothing is pending. -/
structure ByteSource (σ : Type) where
  pending : σ → List UInt8
  read : σ → Nat → List UInt8 × σ
  read_pending : ∀ s room, (read s room).1 ++ pending (read s room).2 = pending s
  read_length : ∀ s room, (read s room).1.length ≤ room
  read_ended : ∀ s room, 0 < room → (read s room).1 = [] → pending s = []

namespace ByteSource

variable {σ : Type} (source : ByteSource σ)

/-- The loop behind `fill`; the first argument bounds the number of calls. -/
def fillWithin : Nat → Nat → σ → List UInt8 × σ
  | 0, _, s => ([], s)
  | _ + 1, 0, s => ([], s)
  | calls + 1, room + 1, s =>
    match source.read s (room + 1) with
    | ([], next) => ([], next)
    | (got, next) =>
      let (more, last) := fillWithin calls (room + 1 - got.length) next
      (got ++ more, last)

/-- Reads until `room` bytes have arrived or the stream has ended. All calls but the last bring a
byte, so `room` calls are enough. -/
def fill (room : Nat) (s : σ) : List UInt8 × σ :=
  source.fillWithin room room s

/-- The loop splits the pending bytes at `room`, however they come. -/
theorem fillWithin_spec (calls room : Nat) (s : σ) (hCalls : room ≤ calls) :
    (source.fillWithin calls room s).1 = (source.pending s).take room ∧
      source.pending (source.fillWithin calls room s).2 = (source.pending s).drop room := by
  induction calls generalizing room s with
  | zero =>
    obtain rfl : room = 0 := by omega
    simp [fillWithin]
  | succ calls ih =>
    match room with
    | 0 => simp [fillWithin]
    | room + 1 =>
      have hPending := source.read_pending s (room + 1)
      have hLength := source.read_length s (room + 1)
      have hEnded := source.read_ended s (room + 1) (by omega)
      rcases hRead : source.read s (room + 1) with ⟨got, next⟩
      simp only [hRead] at hPending hLength hEnded
      cases got with
      | nil =>
        have hNone : source.pending s = [] := hEnded rfl
        rw [hNone] at hPending
        simp only [List.nil_append] at hPending
        simp [fillWithin, hRead, hNone, hPending]
      | cons byte rest =>
        -- at least one byte has arrived: the calls that are left cover the room that is left
        obtain ⟨hTake, hDrop⟩ :=
          ih (room + 1 - (byte :: rest).length) next (by simp at hLength ⊢; omega)
        simp only [fillWithin, hRead]
        rw [hTake, hDrop, ← hPending, List.take_append, List.drop_append,
          List.take_of_length_le hLength, List.drop_eq_nil_of_le hLength]
        exact ⟨rfl, rfl⟩

/-- What `fill` collects. -/
@[simp]
theorem fill_fst (room : Nat) (s : σ) : (source.fill room s).1 = (source.pending s).take room :=
  (source.fillWithin_spec room room s (Nat.le_refl room)).1

/-- What `fill` leaves pending. -/
@[simp]
theorem pending_fill (room : Nat) (s : σ) :
    source.pending (source.fill room s).2 = (source.pending s).drop room :=
  (source.fillWithin_spec room room s (Nat.le_refl room)).2

/-- The reader over a list of bytes that hands over as many per call as a list of sizes says, at
least one, and after that all there is room for. -/
def sized : ByteSource (List UInt8 × List Nat) where
  pending s := s.1
  read s room :=
    match s.2 with
    | [] => (s.1.take room, s.1.drop room, [])
    | size :: sizes => (s.1.take (min room (size + 1)), s.1.drop (min room (size + 1)), sizes)
  read_pending s room := by
    rcases s with ⟨bytes, _ | ⟨size, sizes⟩⟩ <;> simp
  read_length s room := by
    rcases s with ⟨bytes, _ | ⟨size, sizes⟩⟩ <;> simp only [List.length_take] <;> omega
  read_ended s room hRoom hNone := by
    rcases s with ⟨bytes, _ | ⟨size, sizes⟩⟩ <;>
      simp only [List.take_eq_nil_iff] at hNone <;> rcases hNone with hNone | hNone <;>
      first | exact hNone | omega

end ByteSource
