import MxAgent.Cli.Stream
import MxAgent.Foundations.ReorderLoss

/-! Whole runs of the reorder buffer of the renderer: any chunks of any streams, then a
flush. Each stream is a run of its own, which the other streams do not touch. -/
namespace MxAgent.Cli

open Protocol

/-- What `accept` and `flush` have returned so far, and the buffer. -/
structure Delivery where
  released : List StreamChunk
  missing : List MissingChunk
  buf : ReorderBuffer

namespace Delivery

def extend (d : Delivery) (result : List StreamChunk × List MissingChunk × ReorderBuffer) :
    Delivery :=
  ⟨d.released ++ result.1, d.missing ++ result.2.1, result.2.2⟩

def acceptAll (window : Nat) (chunks : List StreamChunk) : Delivery :=
  chunks.foldl (fun d chunk => d.extend (d.buf.accept chunk)) ⟨[], [], .new window⟩

def run (order : StreamOrder) (window : Nat) (chunks : List StreamChunk) : Delivery :=
  let d := acceptAll window chunks
  d.extend (d.buf.flush order)

def releasedOn (d : Delivery) (stream : StreamKind) : List StreamChunk :=
  d.released.filter fun chunk => chunk.stream == stream

def missingOn (d : Delivery) (stream : StreamKind) : List Nat :=
  (d.missing.filter fun lost => lost.stream == stream).map MissingChunk.seq

end Delivery

def ofStream (chunks : List StreamChunk) (stream : StreamKind) : List StreamChunk :=
  chunks.filter fun chunk => chunk.stream == stream

def streamRecord (window : Nat) (chunks : List StreamChunk) (stream : StreamKind) :
    Reorder.Record StreamChunk :=
  Reorder.deliver StreamChunk.seq window (ofStream chunks stream)

variable {window : Nat} {chunks : List StreamChunk} {stream other : StreamKind}

theorem streamRecord_delivered (window : Nat) (chunks : List StreamChunk) (stream : StreamKind) :
    (∃ got, Reorder.Delivered StreamChunk.seq (ofStream chunks stream) got
        (streamRecord window chunks stream)) ∧
      Reorder.Drained (streamRecord window chunks stream).buffer ∧
      (streamRecord window chunks stream).buffer.ahead.size ≤ window :=
  Reorder.deliver_delivered ..

theorem mem_of_delivered {got : Nat → Option StreamChunk} {r : Reorder.Record StreamChunk}
    (h : Reorder.Delivered StreamChunk.seq (ofStream chunks stream) got r) {chunk : StreamChunk}
    (hChunk : chunk ∈ r.released) : chunk ∈ chunks ∧ chunk.stream = stream := by
  have hMem := (Reorder.firstArrival_spec (h.first_of_released hChunk)).1
  simpa [ofStream] using hMem

theorem ofStream_concat_same (chunks : List StreamChunk) (chunk : StreamChunk) :
    ofStream (chunks ++ [chunk]) chunk.stream = ofStream chunks chunk.stream ++ [chunk] := by
  simp [ofStream]

theorem ofStream_concat_other {chunk : StreamChunk} (h : chunk.stream ≠ stream) :
    ofStream (chunks ++ [chunk]) stream = ofStream chunks stream := by
  simp [ofStream, h]

theorem filter_stream_eq {ready : List StreamChunk} (h : ∀ chunk ∈ ready, chunk.stream = other) :
    ready.filter (fun chunk => chunk.stream == stream) = if other = stream then ready else [] := by
  split
  next hSame =>
    subst hSame
    exact List.filter_eq_self.mpr fun chunk hChunk => by simpa using h chunk hChunk
  next hOther =>
    refine List.filter_eq_nil_iff.mpr fun chunk hChunk => ?_
    rw [h chunk hChunk]
    simpa using hOther

theorem filter_missing_eq (lost : List Nat) :
    ((lost.map (MissingChunk.mk other)).filter fun entry => entry.stream == stream).map
      MissingChunk.seq = if other = stream then lost else [] := by
  by_cases h : other = stream
  · subst h
    rw [List.filter_eq_self.mpr (by simp), List.map_map, if_pos rfl]
    exact List.map_id lost
  · simp [h]

/-- The streams are independent while chunks come in. -/
theorem acceptAll_on (window : Nat) (chunks : List StreamChunk) (stream : StreamKind) :
    (Delivery.acceptAll window chunks).buf.window = max window 1 ∧
      (Delivery.acceptAll window chunks).buf.streams stream =
        (streamRecord (max window 1) chunks stream).buffer ∧
      (Delivery.acceptAll window chunks).releasedOn stream =
        (streamRecord (max window 1) chunks stream).released ∧
      (Delivery.acceptAll window chunks).missingOn stream =
        (streamRecord (max window 1) chunks stream).lost := by
  induction chunks using List.reverseRecOn generalizing stream with
  | nil => exact ⟨rfl, rfl, rfl, rfl⟩
  | append_singleton chunks chunk ih =>
    obtain ⟨hWindow, -⟩ := ih stream
    obtain ⟨-, hBuffer, -⟩ := ih chunk.stream
    have hRun : Delivery.acceptAll window (chunks ++ [chunk]) =
        (Delivery.acceptAll window chunks).extend
          ((Delivery.acceptAll window chunks).buf.accept chunk) := by
      simp [Delivery.acceptAll]
    -- the one push that is made, and the record it leads to
    let record := streamRecord (max window 1) chunks chunk.stream
    let move := record.buffer.push chunk.seq chunk (max window 1)
    have hRecord : streamRecord (max window 1) (chunks ++ [chunk]) chunk.stream =
        record.extend move := by
      rw [streamRecord, ofStream_concat_same, Reorder.deliver_concat]
      rfl
    have hAccept : (Delivery.acceptAll window chunks).buf.accept chunk =
        (move.1, move.2.1.map (MissingChunk.mk chunk.stream),
          { (Delivery.acceptAll window chunks).buf with
            streams := Function.update (Delivery.acceptAll window chunks).buf.streams
              chunk.stream move.2.2 }) := by
      simp only [ReorderBuffer.accept, hBuffer, hWindow]
      rfl
    have hReady : ∀ ready ∈ move.1, ready.stream = chunk.stream := by
      intro ready hMem
      obtain ⟨⟨got, hDelivered⟩, -⟩ :=
        streamRecord_delivered (max window 1) (chunks ++ [chunk]) chunk.stream
      rw [hRecord] at hDelivered
      exact (mem_of_delivered hDelivered (List.mem_append_right _ hMem)).2
    obtain ⟨-, hStream, hReleased, hMissing⟩ := ih stream
    rw [hRun, hAccept]
    refine ⟨hWindow, ?_⟩
    simp only [Delivery.extend, Delivery.releasedOn, Delivery.missingOn, List.filter_append,
      List.map_append, filter_stream_eq hReady, filter_missing_eq] at hReleased hMissing ⊢
    by_cases hSame : chunk.stream = stream
    · subst hSame
      rw [hRecord, Function.update_self, if_pos rfl, if_pos rfl, hReleased, hMissing]
      exact ⟨rfl, rfl, rfl⟩
    · rw [streamRecord, ofStream_concat_other hSame, Function.update_of_ne (Ne.symm hSame),
        if_neg hSame, if_neg hSame, List.append_nil, List.append_nil]
      exact ⟨hStream, hReleased, hMissing⟩

/-- Only what came is released. -/
theorem mem_of_mem_acceptAll {chunk : StreamChunk}
    (h : chunk ∈ (Delivery.acceptAll window chunks).released) : chunk ∈ chunks := by
  have hOn : chunk ∈ (Delivery.acceptAll window chunks).releasedOn chunk.stream :=
    List.mem_filter.mpr ⟨h, beq_self_eq_true _⟩
  rw [(acceptAll_on window chunks chunk.stream).2.2.1] at hOn
  obtain ⟨⟨got, hDelivered⟩, -⟩ := streamRecord_delivered (max window 1) chunks chunk.stream
  exact (mem_of_delivered hDelivered hOn).1

theorem StreamOrder.nodup (order : StreamOrder) : order.kinds.Nodup :=
  order.complete.nodup_iff.mpr (by decide)

theorem StreamOrder.mem (order : StreamOrder) (stream : StreamKind) : stream ∈ order.kinds :=
  order.complete.mem_iff.mpr (by cases stream <;> decide)

theorem flatMap_single {α : Type} {kinds : List StreamKind} (hNodup : kinds.Nodup)
    (part : StreamKind → List α) :
    (kinds.flatMap fun kind => if kind = stream then part kind else []) =
      if stream ∈ kinds then part stream else [] := by
  induction kinds with
  | nil => rfl
  | cons kind rest ih =>
    obtain ⟨hKind, hRest⟩ := List.nodup_cons.mp hNodup
    rw [List.flatMap_cons, ih hRest]
    by_cases hSame : kind = stream
    · subst hSame
      rw [if_pos rfl, if_neg hKind, if_pos List.mem_cons_self, List.append_nil]
    · simp [hSame, Ne.symm hSame]

/-- The streams are independent over a whole run. -/
theorem run_on (order : StreamOrder) (window : Nat) (chunks : List StreamChunk)
    (stream : StreamKind) :
    (Delivery.run order window chunks).releasedOn stream =
        (streamRecord (max window 1) chunks stream).flush.released ∧
      (Delivery.run order window chunks).missingOn stream =
        (streamRecord (max window 1) chunks stream).flush.lost := by
  have hReady : ∀ kind, ∀ chunk ∈ ((Delivery.acceptAll window chunks).buf.streams kind).flush.1,
      chunk.stream = kind := by
    intro kind chunk hMem
    obtain ⟨⟨got, hDelivered⟩, hDrained, -⟩ := streamRecord_delivered (max window 1) chunks kind
    rw [(acceptAll_on window chunks kind).2.1] at hMem
    exact (mem_of_delivered (hDelivered.flush hDrained).1 (List.mem_append_right _ hMem)).2
  obtain ⟨-, hStream, hReleased, hMissing⟩ := acceptAll_on window chunks stream
  constructor
  · simp only [Delivery.run, Delivery.extend, Delivery.releasedOn, ReorderBuffer.flush,
      List.filter_append, List.filter_flatMap, filter_stream_eq (hReady _)] at hReleased ⊢
    rw [hReleased, flatMap_single order.nodup, if_pos (order.mem stream), hStream]
    rfl
  · simp only [Delivery.run, Delivery.extend, Delivery.missingOn, ReorderBuffer.flush,
      List.filter_append, List.filter_flatMap, List.map_append, List.map_flatMap,
      filter_missing_eq] at hMissing ⊢
    rw [hMissing, flatMap_single order.nodup, if_pos (order.mem stream), hStream]
    rfl

theorem mem_of_mem_run {order : StreamOrder} {chunk : StreamChunk}
    (h : chunk ∈ (Delivery.run order window chunks).released) : chunk ∈ chunks := by
  have hOn : chunk ∈ (Delivery.run order window chunks).releasedOn chunk.stream :=
    List.mem_filter.mpr ⟨h, beq_self_eq_true _⟩
  rw [(run_on order window chunks chunk.stream).1] at hOn
  obtain ⟨⟨got, hDelivered⟩, hDrained, -⟩ :=
    streamRecord_delivered (max window 1) chunks chunk.stream
  exact (mem_of_delivered (hDelivered.flush hDrained).1 hOn).1

def maxSeq : Nat := 2 ^ 64 - 1

/-- No more than the window is buffered, and the counter does not overflow. -/
theorem acceptAll_bounded (hWindow : 1 ≤ window) (hSeq : ∀ chunk ∈ chunks, chunk.seq < maxSeq)
    (stream : StreamKind) :
    ((Delivery.acceptAll window chunks).buf.streams stream).ahead.size ≤ window ∧
      ((Delivery.acceptAll window chunks).buf.streams stream).nextExpected ≤ maxSeq := by
  obtain ⟨⟨got, hDelivered⟩, -, hSize⟩ := streamRecord_delivered window chunks stream
  have hBuffer := (acceptAll_on window chunks stream).2.1
  rw [max_eq_left hWindow] at hBuffer
  rw [hBuffer]
  refine ⟨hSize, ?_⟩
  rcases hDelivered.stop_spec with hNone | ⟨last, hLast, hNext⟩
  · omega
  · have hLess := hSeq last (List.mem_filter.mp hLast).1
    omega

/-- A number is declared missing only while more than the window is beyond it. -/
theorem accept_missing (hWindow : 1 ≤ window) (chunks : List StreamChunk) (chunk : StreamChunk) :
    ∀ lost ∈ ((Delivery.acceptAll window chunks).buf.accept chunk).2.1,
      lost.stream = chunk.stream ∧
        window < ((insert chunk.seq
          ((Delivery.acceptAll window chunks).buf.streams chunk.stream).waiting).filter
            (lost.seq < ·)).card := by
  intro lost hLost
  obtain ⟨⟨got, hDelivered⟩, hStop, hSize⟩ := streamRecord_delivered window chunks chunk.stream
  obtain ⟨hBufWindow, hBuffer, -⟩ := acceptAll_on window chunks chunk.stream
  rw [max_eq_left hWindow] at hBuffer hBufWindow
  simp only [ReorderBuffer.accept, hBufWindow, hBuffer, List.mem_map] at hLost ⊢
  obtain ⟨seq, hSeqLost, rfl⟩ := hLost
  exact ⟨rfl, ((hDelivered.push hStop hSize).2.2.2 seq hSeqLost).2⟩

theorem streamRecord_ofStream (window : Nat) (chunks : List StreamChunk) (stream : StreamKind) :
    streamRecord window (ofStream chunks stream) stream = streamRecord window chunks stream := by
  have hOwn : ofStream (ofStream chunks stream) stream = ofStream chunks stream := by
    simp [ofStream]
  rw [streamRecord, hOwn]
  rfl

/-- The reorder buffer over whole runs, for every window, sequence of chunks and stream. What is
released is in order and consists of first arrivals; with what is declared missing, in order too, it
makes up the numbers to the largest that came. No more than the window is buffered, the counter does
not overflow, a number is declared missing only while more than the window with larger numbers is
buffered, and other streams play no part. -/
theorem reorder_runs (order : StreamOrder) (window : Nat) (hWindow : 1 ≤ window)
    (chunks : List StreamChunk) (hSeq : ∀ chunk ∈ chunks, chunk.seq < maxSeq)
    (stream : StreamKind) :
    let own := ofStream chunks stream
    let released := (Delivery.run order window chunks).releasedOn stream
    let missing := (Delivery.run order window chunks).missingOn stream
    (released.map StreamChunk.seq).Pairwise (· < ·) ∧
    (∀ chunk ∈ released, own.find? (fun first => first.seq == chunk.seq) = some chunk) ∧
    missing.Pairwise (· < ·) ∧
    (∀ last ∈ own, ∀ seq ≤ last.seq, seq ∈ released.map StreamChunk.seq ↔ seq ∉ missing) ∧
    (∀ seq, seq ∈ released.map StreamChunk.seq ∨ seq ∈ missing → ∃ last ∈ own, seq ≤ last.seq) ∧
    (∀ arrived, arrived <+: chunks →
      ((Delivery.acceptAll window arrived).buf.streams stream).ahead.size ≤ window ∧
      ((Delivery.acceptAll window arrived).buf.streams stream).nextExpected ≤ maxSeq) ∧
    (∀ arrived chunk, arrived ++ [chunk] <+: chunks →
      let buf := (Delivery.acceptAll window arrived).buf
      ∀ lost ∈ (buf.accept chunk).2.1, lost.stream = chunk.stream ∧
        window < ((insert chunk.seq (buf.streams chunk.stream).waiting).filter
          (lost.seq < ·)).card) ∧
    ∀ otherOrder, released = (Delivery.run otherOrder window own).releasedOn stream ∧
      missing = (Delivery.run otherOrder window own).missingOn stream := by
  have hMax : max window 1 = window := max_eq_left hWindow
  have hRun : ∀ order chunks, (Delivery.run order window chunks).releasedOn stream =
        (streamRecord window chunks stream).flush.released ∧
      (Delivery.run order window chunks).missingOn stream =
        (streamRecord window chunks stream).flush.lost := by
    intro order chunks
    have hOn := run_on order window chunks stream
    rwa [hMax] at hOn
  obtain ⟨⟨got, hDelivered⟩, hDrained, -⟩ := streamRecord_delivered window chunks stream
  obtain ⟨hFlushed, -, hEmpty⟩ := hDelivered.flush hDrained
  have hBehind := hFlushed.lt_of_empty hEmpty
  intro own released missing
  simp only [released, missing, (hRun order chunks).1, (hRun order chunks).2]
  refine ⟨hFlushed.released_sorted, fun chunk => hFlushed.first_of_released, hFlushed.lost_sorted,
    ?_, ?_, ?_, ?_, ?_⟩
  · intro last hLast seq hLe
    exact hFlushed.either (hLe.trans_lt (hBehind last hLast))
  · intro seq hOne
    have hBelow : seq < (streamRecord window chunks stream).flush.buffer.nextExpected :=
      hOne.elim (fun h => (hFlushed.mem_released_iff.mp h).1)
        fun h => (hFlushed.mem_lost_iff.mp h).1
    rcases hFlushed.stop_spec with hNone | ⟨last, hLast, hNext⟩
    · omega
    · exact ⟨last, hLast, by omega⟩
  · intro arrived hArrived
    exact acceptAll_bounded hWindow (fun chunk hChunk => hSeq chunk (hArrived.subset hChunk)) stream
  · intro arrived chunk _
    exact accept_missing hWindow arrived chunk
  · intro otherOrder
    rw [(hRun otherOrder own).1, (hRun otherOrder own).2, streamRecord_ofStream]
    exact ⟨rfl, rfl⟩

def textChunk (stream : StreamKind) (seq : Nat) (data : String) : StreamChunk :=
  ⟨"inv_1", stream, seq, "utf-8", data, false, none⟩

/-- Chunk 2 comes before chunk 1 and once more after it, with stderr between. -/
def shuffledChunks : List StreamChunk :=
  [textChunk .stdout 0 "a", textChunk .stdout 2 "c", textChunk .stderr 0 "x",
    textChunk .stdout 1 "b", textChunk .stdout 2 "d"]

/-- With a window of one the chunks come in order, the second chunk 2 dropped. -/
theorem shuffled_chunks_released :
    let order : StreamOrder := ⟨[.stdin, .stdout, .stderr, .pty, .control], .refl _⟩
    let d := Delivery.run order 1 shuffledChunks
    d.releasedOn .stdout =
      [textChunk .stdout 0 "a", textChunk .stdout 1 "b", textChunk .stdout 2 "c"] ∧
    (∀ seq ≤ 2, seq ∉ d.missingOn .stdout) ∧
    d.releasedOn .stdout =
      (Delivery.run order 1 (ofStream shuffledChunks .stdout)).releasedOn .stdout := by
  intro order d
  obtain ⟨-, -, -, hEither, -, -, -, hAlone⟩ :=
    reorder_runs order 1 (by decide) shuffledChunks (by decide) .stdout
  have hReleased : d.releasedOn .stdout =
      [textChunk .stdout 0 "a", textChunk .stdout 1 "b", textChunk .stdout 2 "c"] := by
    decide +kernel
  refine ⟨hReleased, fun seq hSeq => ?_, (hAlone order).1⟩
  rw [← hEither (textChunk .stdout 2 "c") (by decide) seq hSeq, hReleased]
  revert seq
  decide

end MxAgent.Cli
