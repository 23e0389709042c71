import Mathlib.Order.Bounds.Basic
import MxAgent.Ipc.Frame

/-! Streams of frames on the local socket. Reading frame by frame gives back the payloads that
were written, however the reader splits the stream. Of a stream that breaks off, the frames that
arrived in full are read, and the rest is an error unless it is empty. -/
namespace MxAgent.System.Framing

open Ipc

/-- The numbers of leading frames that lie wholly in the bytes. -/
def completeIn (payloads : List (List UInt8)) (bytes : List UInt8) : Set Nat :=
  {count | count ≤ payloads.length ∧ (payloads.take count).flatMap frame <+: bytes}

/-- The bytes end where some frame ends, or before the first one. -/
def AtBoundary (payloads : List (List UInt8)) (bytes : List UInt8) : Prop :=
  ∃ count ≤ payloads.length, (payloads.take count).flatMap frame = bytes

/-- What a caller of `read_frame` sees: payloads and then one last answer. -/
def answers (payloads : List (List UInt8)) (last : Except FrameError (Option (List UInt8))) :
    List (Except FrameError (Option (List UInt8))) :=
  payloads.map (fun payload => .ok (some payload)) ++ [last]

section Prefixes

variable {payloads : List (List UInt8)} {payload bytes : List UInt8} {count : Nat}

theorem zero_mem_completeIn : 0 ∈ completeIn payloads bytes :=
  ⟨Nat.zero_le _, List.nil_prefix⟩

/-- After a whole frame the others are counted in the rest. -/
theorem succ_mem_completeIn_cons :
    count + 1 ∈ completeIn (payload :: payloads) (frame payload ++ bytes) ↔
      count ∈ completeIn payloads bytes := by
  simp [completeIn, List.prefix_append_right_inj]

theorem isGreatest_completeIn_cons (h : IsGreatest (completeIn payloads bytes) count) :
    IsGreatest (completeIn (payload :: payloads) (frame payload ++ bytes)) (count + 1) := by
  refine ⟨succ_mem_completeIn_cons.mpr h.1, ?_⟩
  intro other hOther
  cases other with
  | zero => exact Nat.zero_le _
  | succ other => exact Nat.succ_le_succ (h.2 (succ_mem_completeIn_cons.mp hOther))

theorem atBoundary_cons :
    AtBoundary (payload :: payloads) (frame payload ++ bytes) ↔ AtBoundary payloads bytes := by
  constructor
  · rintro ⟨count, hCount, hBytes⟩
    cases count with
    | zero =>
      have hLength := congrArg List.length hBytes
      simp only [List.take_zero, List.flatMap_nil, List.length_nil, List.length_append,
        length_frame] at hLength
      omega
    | succ count =>
      simp only [List.take_succ_cons, List.flatMap_cons] at hBytes
      exact ⟨count, Nat.le_of_succ_le_succ hCount, List.append_cancel_left hBytes⟩
  · rintro ⟨count, hCount, hBytes⟩
    exact ⟨count + 1, Nat.succ_le_succ hCount, by simp [hBytes]⟩

/-- Bytes in which the first frame is not complete. -/
theorem isGreatest_completeIn_cut (hCut : ¬ frame payload <+: bytes) :
    IsGreatest (completeIn (payload :: payloads) bytes) 0 := by
  refine ⟨zero_mem_completeIn, ?_⟩
  rintro (_ | count) ⟨-, hPrefix⟩
  · exact Nat.le_refl 0
  · simp only [List.take_succ_cons, List.flatMap_cons] at hPrefix
    exact absurd ((List.prefix_append _ _).trans hPrefix) hCut

theorem atBoundary_cut (hCut : ¬ frame payload <+: bytes) :
    AtBoundary (payload :: payloads) bytes ↔ bytes = [] := by
  constructor
  · rintro ⟨_ | count, -, hBytes⟩
    · exact hBytes.symm
    · simp only [List.take_succ_cons, List.flatMap_cons] at hBytes
      exact absurd ⟨_, hBytes⟩ hCut
  · rintro rfl
    exact ⟨0, Nat.zero_le _, rfl⟩

end Prefixes

section Streams

variable {σ : Type} (source : ByteSource σ)

theorem readFrames_succ_of_frame {s : σ} {payload rest : List UInt8} {calls : Nat}
    (hLength : payload.length ≤ maxFrameLen)
    (hPending : source.pending s = frame payload ++ rest) :
    readFrames source (calls + 1) s =
      .ok (some payload) :: readFrames source calls (readFrame source s).2 := by
  rw [readFrames, (readFrame_frame source hLength hPending).1]

/-- How a stream that breaks off is read, by induction on its frames. -/
theorem readFrames_of_prefix {payloads : List (List UInt8)}
    (hLength : ∀ payload ∈ payloads, payload.length ≤ maxFrameLen) {s : σ}
    (hPrefix : source.pending s <+: payloads.flatMap frame) :
    ∃ count last, IsGreatest (completeIn payloads (source.pending s)) count ∧
      readFrames source (count + 1) s = answers (payloads.take count) last ∧
      (AtBoundary payloads (source.pending s) → last = .ok none) ∧
      (¬ AtBoundary payloads (source.pending s) → ∃ error, last = .error error) := by
  induction payloads generalizing s with
  | nil =>
    have hNone : source.pending s = [] := List.prefix_nil.mp hPrefix
    refine ⟨0, .ok none, ⟨zero_mem_completeIn, fun other hOther => hOther.1⟩, ?_, ?_, ?_⟩
    · rw [readFrames, readFrames, readFrame_ended source hNone]
      rfl
    · intro _
      rfl
    · intro hBoundary
      exact absurd ⟨0, Nat.le_refl 0, hNone.symm⟩ hBoundary
  | cons payload payloads ih =>
    have hFirst : payload.length ≤ maxFrameLen := hLength payload List.mem_cons_self
    rw [List.flatMap_cons] at hPrefix
    by_cases hFrame : frame payload <+: source.pending s
    · -- the first frame has arrived: read it, and the others from where it ends
      obtain ⟨rest, hRest⟩ := hFrame
      have hPending : source.pending s = frame payload ++ rest := hRest.symm
      have hNext := (readFrame_frame source hFirst hPending).2
      have hOthers : source.pending (readFrame source s).2 <+: payloads.flatMap frame := by
        rw [hPending, List.prefix_append_right_inj] at hPrefix
        rwa [hNext]
      obtain ⟨count, last, hCount, hRead, hClean, hError⟩ :=
        ih (fun other hOther => hLength other (List.mem_cons_of_mem _ hOther)) hOthers
      rw [hNext] at hCount hClean hError
      rw [hPending, atBoundary_cons]
      refine ⟨count + 1, last, isGreatest_completeIn_cons hCount, ?_, hClean, hError⟩
      rw [readFrames_succ_of_frame source hFirst hPending, hRead]
      rfl
    · -- the stream breaks off before the end of the first frame
      rw [atBoundary_cut hFrame]
      refine ⟨0, (readFrame source s).1, isGreatest_completeIn_cut hFrame, rfl, ?_, ?_⟩
      · exact readFrame_ended source
      · intro hSome
        have hPart : source.pending s <+: frame payload :=
          (List.prefix_or_prefix_of_prefix hPrefix (List.prefix_append _ _)).resolve_right hFrame
        have hCut : source.pending s ≠ frame payload := by
          intro hWhole
          rw [hWhole] at hFrame
          exact hFrame (List.prefix_refl _)
        exact ⟨_, readFrame_truncated source hFirst hPart hSome hCut⟩

/-- In the whole stream every frame is complete. -/
theorem isGreatest_completeIn_all (payloads : List (List UInt8)) :
    IsGreatest (completeIn payloads (payloads.flatMap frame)) payloads.length := by
  refine ⟨⟨Nat.le_refl _, ?_⟩, fun other hOther => hOther.1⟩
  simp

/-- Whatever the reader splits the stream into, `read_frame` gives back the payloads written and
then reports the end. Of a stream that breaks off it gives back those of the frames that arrived in
full; the next call reports the end if nothing more arrived, and fails otherwise. -/
theorem framing_lossless {payloads : List (List UInt8)}
    (hLength : ∀ payload ∈ payloads, payload.length ≤ maxFrameLen) :
    ∃ stream, writeFrames payloads = .ok stream ∧
      (∀ s, source.pending s = stream →
        readFrames source (payloads.length + 1) s = answers payloads (.ok none)) ∧
      ∀ s, source.pending s <+: stream → source.pending s ≠ stream →
        ∃ count last, IsGreatest (completeIn payloads (source.pending s)) count ∧
          readFrames source (count + 1) s = answers (payloads.take count) last ∧
          (AtBoundary payloads (source.pending s) → last = .ok none) ∧
          (¬ AtBoundary payloads (source.pending s) → ∃ error, last = .error error) := by
  refine ⟨payloads.flatMap frame, writeFrames_of_le hLength, ?_, ?_⟩
  · intro s hPending
    have hPrefix : source.pending s <+: payloads.flatMap frame :=
      hPending ▸ List.prefix_refl _
    obtain ⟨count, last, hCount, hRead, hClean, -⟩ := readFrames_of_prefix source hLength hPrefix
    rw [hPending] at hCount hClean
    obtain rfl : count = payloads.length := hCount.unique (isGreatest_completeIn_all payloads)
    have hLast : last = .ok none := hClean ⟨payloads.length, Nat.le_refl _, by simp⟩
    rw [hRead, List.take_length, hLast]
  · intro s hPrefix _
    exact readFrames_of_prefix source hLength hPrefix

/-- Two payloads, the second empty, over a reader of one to three bytes a call: the whole stream,
and all but its last two bytes. -/
theorem framing_lossless_two :
    ∃ stream, writeFrames [[104, 105], []] = .ok stream ∧
      readFrames ByteSource.sized 3 (stream, [0, 2, 1]) = answers [[104, 105], []] (.ok none) ∧
      ∃ count last, IsGreatest (completeIn [[104, 105], []] (stream.take 8)) count ∧
        readFrames ByteSource.sized (count + 1) (stream.take 8, [0, 2, 1]) =
          answers ([[104, 105], []].take count) last := by
  obtain ⟨stream, hStream, hWhole, hPart⟩ :=
    @framing_lossless _ ByteSource.sized [[104, 105], []] (by decide)
  have hBytes : stream = [0, 0, 0, 2, 104, 105, 0, 0, 0, 0] :=
    Except.ok.inj (hStream.symm.trans (by decide))
  obtain ⟨count, last, hCount, hRead, -⟩ :=
    hPart (stream.take 8, [0, 2, 1]) (List.take_prefix _ _) (by subst hBytes; decide)
  exact ⟨stream, hStream, hWhole (stream, [0, 2, 1]) rfl, count, last, hCount, hRead⟩

end Streams

end MxAgent.System.Framing
