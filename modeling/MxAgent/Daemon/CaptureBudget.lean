import MxAgent.Daemon.CaptureSteps

/-! What a capture sends and reports, under every schedule. Each reader keeps an account of
the pieces it has sent and of whether the budget has cut it short; a step of a reader changes
its own account and takes what it needs from the shared budget, so that the accounts of both
readers and the budget agree after any number of steps in any order. -/
namespace MxAgent.Daemon.Interleaved

open Protocol

section Budget

@[simp] theorem reserve_zero (limiter : CaptureLimiter) : limiter.reserve 0 = (0, limiter) := by
  unfold CaptureLimiter.reserve
  split
  · rfl
  · simp

/-- The limiter grants no more than is asked for. -/
theorem reserve_le (limiter : CaptureLimiter) (len : Nat) : (limiter.reserve len).1 ≤ len := by
  unfold CaptureLimiter.reserve
  split
  · exact le_rfl
  · exact min_le_left ..

/-- The budget after `taken` bytes were granted, at some point fewer than asked for if `cut`. It
counts under a cap only. -/
structure Budget (cap : Option Nat) (taken : Nat) (cut : Bool) (limiter : CaptureLimiter) :
    Prop where
  configured : limiter.maxOutputBytes = cap
  truncated : limiter.truncated = cut
  emitted : limiter.emitted = if cap.isSome then taken else 0
  bounded : ∀ max ∈ cap, taken ≤ max
  uncapped : cap = none → cut = false

/-- The budget after another grant. -/
theorem Budget.reserve {cap : Option Nat} {taken : Nat} {cut : Bool} {limiter : CaptureLimiter}
    (h : Budget cap taken cut limiter) (len : Nat) :
    Budget cap (taken + (limiter.reserve len).1)
      (cut || decide ((limiter.reserve len).1 < len)) (limiter.reserve len).2 := by
  obtain ⟨hCap, hTruncated, hEmitted, hBounded, hUncapped⟩ := h
  cases cap with
  | none =>
    have hReserve : limiter.reserve len = (len, limiter) := by
      simp [CaptureLimiter.reserve, hCap]
    rw [hReserve]
    refine ⟨hCap, ?_, hEmitted, by simp, fun _ => ?_⟩
    · simpa using hTruncated
    · simpa using hUncapped rfl
  | some max =>
    have hEmitted : limiter.emitted = taken := hEmitted
    have hReserve : limiter.reserve len = (min len (max - taken),
        ⟨some max, taken + min len (max - taken),
          cut || decide (min len (max - taken) < len)⟩) := by
      simp [CaptureLimiter.reserve, hCap, hEmitted, hTruncated]
    have hMax := hBounded max rfl
    rw [hReserve]
    refine ⟨rfl, rfl, rfl, ?_, by simp⟩
    simp only [Option.mem_def, Option.some.injEq, forall_eq']
    omega

end Budget

/-- The bytes that are granted and not yet sent. -/
def Phase.inFlight : Phase → List UInt8
  | .sending data _ _ => data
  | _ => []

@[simp] theorem Phase.inFlight_sending (data : List UInt8) (exhausted : Bool) (site : Site) :
    (Phase.sending data exhausted site).inFlight = data := rfl

@[simp] theorem Phase.inFlight_closing : Phase.closing.inFlight = [] := rfl

/-- The reader holds no granted bytes, and has not returned. -/
def Phase.idle : Phase → Bool
  | .reading | .cutting | .lines | .closing => true
  | .sending _ _ _ | .returned => false

variable {phase : Phase} {site : Site} {data : List UInt8}

theorem Phase.inFlight_of_idle (h : phase.idle) : phase.inFlight = [] := by
  cases phase <;> first | rfl | cases h

theorem Phase.ne_returned_of_idle (h : phase.idle) : phase ≠ .returned := by
  rintro rfl
  cases h

theorem Phase.ne_sending_of_idle (h : phase.idle) (data : List UInt8) (exhausted : Bool)
    (site : Site) : phase ≠ .sending data exhausted site := by
  rintro rfl
  cases h

section Account

variable (sha256 : List UInt8 → List UInt8) (config : StreamCaptureConfig) (invocationId : String)

/-- What a reader that was not cut short has in its buffer. -/
def Reader.Fits (ended : Bool) (r : Reader) : Prop :=
  match r.phase with
  | .cutting | .sending _ _ .full => ended = false
  | .reading | .lines | .sending _ _ .line =>
    ended = false ∧ r.buf.length < config.maxChunkBytes
  | .sending _ _ .elapsed => ended = false ∧ r.buf = []
  | .sending _ _ .ended | .sending _ _ .failed | .closing | .returned =>
    ended ∧ r.buf = []

/-- A reader that has been cut short sends what was granted and the EOF marker. -/
def Phase.Stopping : Phase → Prop
  | .sending _ _ _ | .closing | .returned => True
  | .reading | .cutting | .lines => False

/-- A reader in its loop is idle. -/
theorem Phase.idle_of_not_stopping (h : ¬ phase.Stopping) : phase.idle := by
  cases phase <;> first | rfl | exact absurd trivial h

/-- The account of a reader: it has read the first events of its stream and sent `pieces`, in order
and of the right size. Unless it was cut short, the rest is in flight or in the buffer. -/
structure Account (stream : StreamKind) (events done : List ReadEvent)
    (pieces : List (List UInt8)) (cut : Bool) (r : Reader) (sent : List StreamChunk) : Prop where
  own : r.stream = stream
  input : done ++ r.input = events
  seq : r.phase ≠ .returned → r.seq = pieces.length
  sizes : ∀ piece ∈ pieces, piece ≠ [] ∧ piece.length ≤ config.maxChunkBytes
  chunks : sent.filter (fun chunk => chunk.stream = stream) =
    numbered sha256 invocationId stream 0 pieces ++
      if r.phase = .returned then [buildChunk sha256 invocationId stream pieces.length [] true]
      else []
  sending : ∀ data exhausted site, r.phase = .sending data exhausted site →
    data ≠ [] ∧ data.length ≤ config.maxChunkBytes ∧ exhausted = cut
  whole : cut = false → pieces.flatten ++ (r.phase.inFlight ++ r.buf) = bytesRead done ∧
    r.Fits config (done.any ReadEvent.ends)
  short : cut → r.phase.Stopping ∧ pieces.flatten ++ r.phase.inFlight <+: bytesRead done ∧
    (pieces.flatten ++ r.phase.inFlight).length < (bytesRead done).length

/-- A step has taken bytes from the budget, or sent its stream's chunks. -/
def Moved (stream : StreamKind) (pieces more : List (List UInt8)) (cut after : Bool)
    (phase next : Phase) (s s' : CaptureOutput) : Prop :=
  ∃ len chunks, s' = ⟨⟨s.sink.sent ++ chunks, none⟩, (s.limiter.reserve len).2⟩ ∧
    (more.flatten ++ next.inFlight).length =
      (pieces.flatten ++ phase.inFlight).length + (s.limiter.reserve len).1 ∧
    after = (cut || decide ((s.limiter.reserve len).1 < len)) ∧
    ∀ chunk ∈ chunks, chunk.stream = stream

end Account

section Steps

variable {sha256 : List UInt8 → List UInt8} {config : StreamCaptureConfig} {invocationId : String}
  {stream : StreamKind} {events done : List ReadEvent} {pieces : List (List UInt8)} {cut : Bool}
  {r : Reader} {s : CaptureOutput}

/-- A step that sends and takes nothing. -/
theorem Moved.silent (hOpen : s.sink.takes = none) {next : Phase}
    (hSame : next.inFlight = phase.inFlight) :
    Moved stream pieces pieces cut cut phase next s s := by
  refine ⟨0, [], ?_, by simp [hSame], by simp, by simp⟩
  rw [reserve_zero, List.append_nil, ← hOpen]

/-- After an exhausted budget only the EOF marker is left. -/
theorem Site.next_exhausted (site : Site) : site.next .budgetExhausted = .closing := by
  cases site <;> rfl

/-- One more piece is one more chunk, under the next number. -/
theorem numbered_concat (stream : StreamKind) (pieces : List (List UInt8)) (data : List UInt8) :
    numbered sha256 invocationId stream 0 (pieces ++ [data]) =
      numbered sha256 invocationId stream 0 pieces ++
        [buildChunk sha256 invocationId stream pieces.length data false] := by
  rw [numbered_append, Nat.zero_add]
  rfl

/-- An open sink takes every chunk. -/
theorem send_open (hOpen : s.sink.takes = none) (data : List UInt8) (eof : Bool)
    (next : Bool → Phase) :
    r.send sha256 invocationId data eof next s =
      ({ r with seq := r.seq + 1, phase := next true },
        ⟨⟨s.sink.sent ++ [buildChunk sha256 invocationId r.stream r.seq data eof], none⟩,
          s.limiter⟩) := by
  simp [Reader.send, ChunkSink.send, hOpen]

/-- A chunk of the stream itself is the last one of the stream. -/
theorem filter_concat_own {sent : List StreamChunk} {chunk : StreamChunk}
    (h : chunk.stream = stream) :
    (sent ++ [chunk]).filter (fun chunk => chunk.stream = stream) =
      sent.filter (fun chunk => chunk.stream = stream) ++ [chunk] := by
  simp [List.filter_append, h]

variable (sha256 config invocationId) in
/-- The account goes on over one step of a reader. -/
def Continues (stream : StreamKind) (events : List ReadEvent) (pieces : List (List UInt8))
    (cut : Bool) (phase : Phase) (s : CaptureOutput) (next : Reader × CaptureOutput) : Prop :=
  ∃ read more after, Account sha256 config invocationId stream events read more after next.1
      next.2.sink.sent ∧
    Moved stream pieces more cut after phase next.1.phase s next.2

namespace Account

variable (h : Account sha256 config invocationId stream events done pieces cut r s.sink.sent)

include h

/-- Before it returns, a reader has sent its pieces and no EOF marker. -/
theorem unreturned (hPhase : r.phase ≠ .returned) :
    s.sink.sent.filter (fun chunk => chunk.stream = stream) =
      numbered sha256 invocationId stream 0 pieces := by
  rw [h.chunks, if_neg hPhase, List.append_nil]

/-- A reader in its loop has in its buffer what it has not sent. -/
theorem looping (hPhase : r.phase = phase) (hLoop : ¬ phase.Stopping) :
    cut = false ∧ pieces.flatten ++ r.buf = bytesRead done ∧
      ({ r with phase } : Reader).Fits config (done.any ReadEvent.ends) := by
  subst hPhase
  cases hCut : cut with
  | true => exact absurd (h.short hCut).1 hLoop
  | false =>
    obtain ⟨hBytes, hFits⟩ := h.whole hCut
    rw [Phase.inFlight_of_idle (Phase.idle_of_not_stopping hLoop)] at hBytes
    exact ⟨rfl, hBytes, hFits⟩

/-- A read takes the next event of the stream. -/
theorem next_event (hPhase : r.phase = .reading) {event : ReadEvent} {input : List ReadEvent}
    (hInput : r.input = event :: input) :
    (done ++ [event]) ++ input = events ∧
      bytesRead (done ++ [event]) = bytesRead done ++ event.bytes ∧
      (done ++ [event]).any ReadEvent.ends = event.ends := by
  obtain ⟨-, -, hOngoing, -⟩ := h.looping hPhase id
  refine ⟨?_, ?_, ?_⟩
  · rw [List.append_assoc, List.singleton_append, ← hInput, h.input]
  · rw [bytesRead_concat, hOngoing, if_neg (by decide)]
  · rw [List.any_append, hOngoing, Bool.false_or, List.any_cons, List.any_nil, Bool.or_false]

variable (hOpen : s.sink.takes = none)

include hOpen

/-- The granted bytes are sent, as one more piece. -/
theorem sent {exhausted : Bool} (hPhase : r.phase = .sending data exhausted site) {next : Phase}
    (hNext : next.idle)
    (hFits : cut = false → ({ r with seq := r.seq + 1, phase := next } : Reader).Fits config
      (done.any ReadEvent.ends)) (hStop : cut → next.Stopping) :
    Continues sha256 config invocationId stream events pieces cut (.sending data exhausted site) s
      (r.send sha256 invocationId data false (fun _ => next) s) := by
  obtain ⟨hData, hSize, -⟩ := h.sending data exhausted site hPhase
  have hRunning : r.phase ≠ .returned := by simp [hPhase]
  have hSeq := h.seq hRunning
  have hFlight :
      pieces.flatten ++ r.phase.inFlight = (pieces ++ [data]).flatten ++ next.inFlight := by
    simp [hPhase, Phase.inFlight_of_idle hNext]
  rw [send_open hOpen]
  refine ⟨done, pieces ++ [data], cut, ⟨h.own, h.input, fun _ => ?_, ?_, ?_, fun _ _ _ hSending =>
    absurd hSending (Phase.ne_sending_of_idle hNext _ _ _), fun hWhole => ⟨?_, hFits hWhole⟩,
    fun hCut => ⟨hStop hCut, ?_⟩⟩, 0, [_], by rw [reserve_zero], ?_, by simp, ?_⟩
  · simp [hSeq]
  · rw [List.forall_mem_append, List.forall_mem_singleton]
    exact ⟨h.sizes, hData, hSize⟩
  · dsimp only
    rw [if_neg (Phase.ne_returned_of_idle hNext), List.append_nil, numbered_concat,
      filter_concat_own (show (buildChunk sha256 invocationId r.stream r.seq data false).stream =
        stream from h.own), h.unreturned hRunning, hSeq, h.own]
  · rw [← List.append_assoc, ← hFlight, List.append_assoc]
    exact (h.whole hWhole).1
  · rw [← hFlight]
    exact (h.short hCut).2
  · rw [← hFlight, hPhase, reserve_zero]
    rfl
  · rw [List.forall_mem_singleton]
    exact h.own

/-- The step of a reader that sends what was granted. -/
theorem step_sending {exhausted : Bool} (hPhase : r.phase = .sending data exhausted site) :
    Continues sha256 config invocationId stream events pieces cut (.sending data exhausted site) s
      (r.step sha256 config invocationId s) := by
  obtain ⟨-, -, rfl⟩ := h.sending data exhausted site hPhase
  have hStep : r.step sha256 config invocationId s = r.send sha256 invocationId data false
      (fun _ => site.next (if exhausted then .budgetExhausted else .sent)) s := by
    simp only [Reader.step, hPhase, send_open hOpen, if_true]
  rw [hStep]
  cases exhausted with
  | true =>
    rw [if_pos rfl, Site.next_exhausted]
    exact h.sent hOpen hPhase rfl (fun hWhole => by cases hWhole) fun _ => trivial
  | false =>
    have hFits := (h.whole rfl).2
    have hPos := config.maxChunkBytes_pos
    rw [Reader.Fits, hPhase] at hFits
    refine h.sent hOpen hPhase (by cases site <;> rfl) (fun _ => ?_) fun hCut => by cases hCut
    cases site with
    | elapsed => exact ⟨hFits.1, by simpa [hFits.2] using hPos⟩
    | _ => exact hFits

/-- The step of a reader that sends the EOF marker. -/
theorem step_closing (hPhase : r.phase = .closing) :
    Continues sha256 config invocationId stream events pieces cut .closing s
      (r.step sha256 config invocationId s) := by
  have hRunning : r.phase ≠ .returned := by simp [hPhase]
  simp only [Reader.step, hPhase, send_open hOpen]
  refine ⟨done, pieces, cut, ⟨h.own, h.input, fun hNe => absurd rfl hNe, h.sizes, ?_,
    fun _ _ _ hNext => absurd hNext (by simp), fun hWhole => ?_, fun hCut => ?_⟩, 0, [_],
    by rw [reserve_zero], by rw [reserve_zero]; rfl, by simp, ?_⟩
  · dsimp only
    rw [if_pos rfl, filter_concat_own (show (buildChunk sha256 invocationId r.stream r.seq []
      true).stream = stream from h.own), h.unreturned hRunning, h.seq hRunning, h.own]
  · have hBefore := h.whole hWhole
    rw [Reader.Fits, hPhase] at hBefore
    exact hBefore
  · have hBefore := h.short hCut
    rw [hPhase] at hBefore
    exact ⟨trivial, hBefore.2⟩
  · rw [List.forall_mem_singleton]
    exact h.own

section Loop

variable (hPhase : r.phase = phase) (hLoop : ¬ phase.Stopping) {read input : List ReadEvent}
  {buf : List UInt8} (hInput : read ++ input = events)

include hPhase hLoop hInput

/-- A step inside the loop that sends nothing. -/
theorem silent {next : Phase} (hNext : next.idle)
    (hBytes : pieces.flatten ++ buf = bytesRead read)
    (hFits : ({ r with input, buf, phase := next } : Reader).Fits config
      (read.any ReadEvent.ends)) :
    Continues sha256 config invocationId stream events pieces cut phase s
      ({ r with input, buf, phase := next }, s) := by
  obtain ⟨rfl, -⟩ := h.looping hPhase hLoop
  have hIdle := Phase.idle_of_not_stopping hLoop
  have hRunning : r.phase ≠ .returned := hPhase ▸ Phase.ne_returned_of_idle hIdle
  have hFlight := Phase.inFlight_of_idle hNext
  refine ⟨read, pieces, false, ⟨h.own, hInput, fun _ => h.seq hRunning, h.sizes, ?_,
    fun _ _ _ hSending => absurd hSending (Phase.ne_sending_of_idle hNext _ _ _),
    fun _ => ⟨?_, hFits⟩, nofun⟩, .silent hOpen (hFlight.trans (Phase.inFlight_of_idle hIdle).symm)⟩
  · rw [if_neg (Phase.ne_returned_of_idle hNext), List.append_nil]
    exact h.unreturned hRunning
  · rw [hFlight]
    exact hBytes

/-- Bytes from the front of the buffer are granted, or the reader is cut short. -/
theorem take {later : Phase} (hData : data ≠ [] ∧ data.length ≤ config.maxChunkBytes)
    (hBytes : pieces.flatten ++ (data ++ buf) = bytesRead read)
    (hFits : ∀ data, ({ r with input, buf, phase := .sending data false site } : Reader).Fits
      config (read.any ReadEvent.ends)) :
    Continues sha256 config invocationId stream events pieces cut phase s
      (Reader.emit site data { r with input, buf, phase := later } s) := by
  obtain ⟨rfl, -⟩ := h.looping hPhase hLoop
  have hIdle := Phase.idle_of_not_stopping hLoop
  have hRunning : r.phase ≠ .returned := hPhase ▸ Phase.ne_returned_of_idle hIdle
  have hFlight := Phase.inFlight_of_idle hIdle
  have hChunks := h.unreturned hRunning
  have hSeq := h.seq hRunning
  have hPos : 0 < data.length := List.length_pos_iff.mpr hData.1
  have hLe := reserve_le s.limiter data.length
  have hLength := congrArg List.length hBytes
  simp only [List.length_append] at hLength
  refine ⟨read, pieces, decide ((s.limiter.reserve data.length).1 < data.length), ?_⟩
  unfold Reader.emit
  dsimp only
  split
  · rename_i hGrant
    refine ⟨⟨h.own, hInput, fun _ => hSeq, h.sizes, by simpa using hChunks, ?_, ?_, ?_⟩,
      data.length, [], ?_, ?_, by simp, by simp⟩
    · rintro _ _ _ ⟨⟩
      refine ⟨?_, ?_, rfl⟩
      · rw [← List.length_pos_iff, List.length_take]
        omega
      · rw [List.length_take]
        omega
    · intro hWhole
      rw [decide_eq_false_iff_not, not_lt] at hWhole
      rw [List.take_of_length_le hWhole, decide_eq_false_iff_not.mpr (not_lt.mpr hWhole)]
      exact ⟨hBytes, hFits data⟩
    · intro hCut
      rw [decide_eq_true_iff] at hCut
      refine ⟨trivial, ?_, ?_⟩
      · rw [← hBytes, List.prefix_append_right_inj]
        exact (List.take_prefix ..).trans (List.prefix_append ..)
      · rw [List.length_append, Phase.inFlight_sending, List.length_take]
        omega
    · rw [List.append_nil, ← hOpen]
    · simp only [Phase.inFlight_sending, List.length_append, List.length_take, hFlight,
        List.length_nil]
      omega
  · rename_i hNone
    have hCut : (s.limiter.reserve data.length).1 < data.length := by omega
    rw [decide_eq_true hCut, if_pos rfl, Site.next_exhausted]
    refine ⟨⟨h.own, hInput, fun _ => hSeq, h.sizes, by simpa using hChunks, nofun, nofun, fun _ =>
      ⟨trivial, ?_, ?_⟩⟩, data.length, [], ?_, ?_, ?_, by simp⟩
    · rw [← hBytes, Phase.inFlight_closing, List.append_nil]
      exact List.prefix_append ..
    · rw [Phase.inFlight_closing, List.append_nil]
      omega
    · rw [List.append_nil, ← hOpen]
    · simp only [Phase.inFlight_closing, hFlight]
      omega
    · simp [hCut]

omit hInput in
/-- Some bytes from the front of the buffer are emitted. -/
theorem take_front {later : Phase} {count : Nat} (hSome : 0 < count) (hAll : count ≤ r.buf.length)
    (hSmall : count ≤ config.maxChunkBytes)
    (hFits : ∀ data, ({ r with buf := r.buf.drop count, phase := .sending data false site } :
      Reader).Fits config (done.any ReadEvent.ends)) :
    Continues sha256 config invocationId stream events pieces cut phase s
      (Reader.emit site (r.buf.take count)
        { r with buf := r.buf.drop count, phase := later } s) := by
  obtain ⟨-, hBytes, -⟩ := h.looping hPhase hLoop
  refine h.take hOpen hPhase hLoop h.input ⟨?_, ?_⟩ ?_ hFits
  · rw [← List.length_pos_iff, List.length_take]
    omega
  · rw [List.length_take]
    omega
  · rw [List.take_append_drop, hBytes]

end Loop

/-- The step that cuts full chunks. -/
theorem step_cutting (hPhase : r.phase = .cutting) :
    Continues sha256 config invocationId stream events pieces cut .cutting s
      (r.step sha256 config invocationId s) := by
  obtain ⟨-, hBytes, hFits⟩ := h.looping hPhase id
  simp only [Reader.step, hPhase]
  split
  · rename_i hShort
    exact h.silent hOpen hPhase id h.input rfl hBytes ⟨hFits, hShort⟩
  · rename_i hFull
    exact h.take_front hOpen hPhase id config.maxChunkBytes_pos (not_lt.mp hFull) le_rfl
      fun _ => hFits

/-- The step that cuts lines, in interactive mode. -/
theorem step_lines (hPhase : r.phase = .lines) :
    Continues sha256 config invocationId stream events pieces cut .lines s
      (r.step sha256 config invocationId s) := by
  obtain ⟨-, hBytes, hOngoing, hSmall⟩ := h.looping hPhase id
  simp only [Reader.step, hPhase]
  split
  · exact h.silent hOpen hPhase id h.input rfl hBytes ⟨hOngoing, hSmall⟩
  · rename_i hSome
    have hLength : completeLines r.buf ≤ r.buf.length := by
      unfold completeLines
      split <;> omega
    simp only [Bool.or_eq_true, beq_iff_eq, not_or] at hSome
    have hSmall : r.buf.length < config.maxChunkBytes := hSmall
    refine h.take_front hOpen hPhase id (Nat.pos_of_ne_zero hSome.2) hLength (by omega)
      fun _ => ⟨hOngoing, ?_⟩
    rw [List.length_drop]
    omega

/-- An event without bytes flushes what is in the buffer. -/
theorem flush (hPhase : r.phase = .reading) {event : ReadEvent} {input : List ReadEvent}
    (hInput : r.input = event :: input) (hNone : event.bytes = []) {next later : Phase}
    (hNext : next.idle)
    (hEmpty : r.buf = [] → ({ r with input, phase := next } : Reader).Fits config event.ends)
    (hSome : ∀ data, ({ r with input, buf := [], phase := .sending data false site } :
      Reader).Fits config event.ends) :
    Continues sha256 config invocationId stream events pieces cut .reading s
      (if r.buf.isEmpty then ({ r with input, phase := next }, s)
        else Reader.emit site r.buf { r with input, buf := [], phase := later } s) := by
  obtain ⟨-, hBytes, -, hSmall⟩ := h.looping hPhase id
  obtain ⟨hEvents, hRead, hEnds⟩ := h.next_event hPhase hInput
  rw [hNone, List.append_nil] at hRead
  split
  · rename_i hBuf
    refine h.silent hOpen hPhase id hEvents hNext (hBytes.trans hRead.symm) ?_
    rw [hEnds]
    exact hEmpty (List.isEmpty_iff.mp hBuf)
  · rename_i hBuf
    refine h.take hOpen hPhase id hEvents ⟨by simpa using hBuf, hSmall.le⟩ ?_ ?_
    · rw [List.append_nil, hBytes, hRead]
    · rw [hEnds]
      exact hSome

/-- The step of a reader that reads. -/
theorem step_reading (hPhase : r.phase = .reading) :
    Continues sha256 config invocationId stream events pieces cut .reading s
      (r.step sha256 config invocationId s) := by
  obtain ⟨-, hBytes, -, hSmall⟩ := h.looping hPhase id
  cases hInput : r.input with
  | nil =>
    simp only [Reader.step, hPhase, hInput]
    exact ⟨done, pieces, cut, h, .silent hOpen (by rw [hPhase])⟩
  | cons event input =>
    rcases event with _ | (_ | ⟨byte, bytes⟩) | _ <;> simp only [Reader.step, hPhase, hInput]
    · exact h.flush hOpen hPhase hInput rfl rfl (fun _ => ⟨rfl, hSmall⟩) fun _ => ⟨rfl, rfl⟩
    · exact h.flush hOpen hPhase hInput rfl rfl (fun hBuf => ⟨rfl, hBuf⟩) fun _ => ⟨rfl, rfl⟩
    · obtain ⟨hEvents, hRead, hEnds⟩ := h.next_event hPhase hInput
      refine h.silent hOpen hPhase id hEvents rfl ?_ hEnds
      rw [← List.append_assoc, hBytes, hRead]
      rfl
    · exact h.flush hOpen hPhase hInput rfl rfl (fun hBuf => ⟨rfl, hBuf⟩) fun _ => ⟨rfl, rfl⟩

/-- Whatever the phase, a step continues the account. -/
theorem step : Continues sha256 config invocationId stream events pieces cut r.phase s
    (r.step sha256 config invocationId s) := by
  cases hPhase : r.phase with
  | reading => exact h.step_reading hOpen hPhase
  | cutting => exact h.step_cutting hOpen hPhase
  | lines => exact h.step_lines hOpen hPhase
  | sending data exhausted site => exact h.step_sending hOpen hPhase
  | closing => exact h.step_closing hOpen hPhase
  | returned =>
    simp only [Reader.step, hPhase]
    exact ⟨done, pieces, cut, h, .silent hOpen (by rw [hPhase])⟩

end Account

section Moved

variable {more : List (List UInt8)} {after : Bool} {next : Phase} {s' : CaptureOutput}
  (hMoved : Moved stream pieces more cut after phase next s s')

include hMoved

theorem Moved.sink_open : s'.sink.takes = none := by
  obtain ⟨len, chunks, rfl, -⟩ := hMoved
  rfl

theorem Moved.streams {stream' : StreamKind}
    (h : ∀ chunk ∈ s.sink.sent, chunk.stream = stream ∨ chunk.stream = stream') :
    ∀ chunk ∈ s'.sink.sent, chunk.stream = stream ∨ chunk.stream = stream' := by
  obtain ⟨len, chunks, rfl, -, -, hOwn⟩ := hMoved
  exact List.forall_mem_append.mpr ⟨h, fun chunk hChunk => .inl (hOwn chunk hChunk)⟩

/-- What a step takes from the budget is in flight or sent after it. -/
theorem Moved.budget {cap : Option Nat} {taken : Nat} {other : Bool}
    (h : Budget cap ((pieces.flatten ++ phase.inFlight).length + taken) (cut || other) s.limiter) :
    Budget cap ((more.flatten ++ next.inFlight).length + taken) (after || other) s'.limiter := by
  obtain ⟨len, chunks, rfl, hTaken, rfl, -⟩ := hMoved
  have hNext := h.reserve len
  rwa [hTaken, Nat.add_right_comm, Bool.or_right_comm]

/-- One reader's steps do not change the other's account. -/
theorem Account.other {stream' : StreamKind} (hOther : stream ≠ stream')
    {events' done' pieces' cut'}
    {r' : Reader}
    (h : Account sha256 config invocationId stream' events' done' pieces' cut' r' s.sink.sent) :
    Account sha256 config invocationId stream' events' done' pieces' cut' r' s'.sink.sent := by
  obtain ⟨len, chunks, rfl, -, -, hOwn⟩ := hMoved
  have hNone : chunks.filter (fun chunk => chunk.stream = stream') = [] := by
    rw [List.filter_eq_nil_iff]
    intro chunk hChunk
    simpa [hOwn chunk hChunk] using hOther
  refine ⟨h.own, h.input, h.seq, h.sizes, ?_, h.sending, h.whole, h.short⟩
  rw [List.filter_append, hNone, List.append_nil, h.chunks]

end Moved

end Steps

section Runs

variable {sha256 : List UInt8 → List UInt8} {config : StreamCaptureConfig} {invocationId : String}
  {out err : List ReadEvent} {child : Child}

variable (sha256 config invocationId) in
/-- The accounts of both readers and the budget agree. -/
def Books (out err : List ReadEvent) (child : Child) : Prop :=
  ∃ outRead errRead outPieces errPieces outCut errCut,
    Account sha256 config invocationId .stdout out outRead outPieces outCut child.stdout
      child.output.sink.sent ∧
    Account sha256 config invocationId .stderr err errRead errPieces errCut child.stderr
      child.output.sink.sent ∧
    child.output.sink.takes = none ∧
    Budget config.maxOutputBytes ((outPieces.flatten ++ child.stdout.phase.inFlight).length +
      (errPieces.flatten ++ child.stderr.phase.inFlight).length) (outCut || errCut)
      child.output.limiter ∧
    ∀ chunk ∈ child.output.sink.sent, chunk.stream = .stdout ∨ chunk.stream = .stderr

theorem Books.start (out err : List ReadEvent) :
    Books sha256 config invocationId out err (.start config none out err) := by
  refine ⟨[], [], [], [], false, false, ?_, ?_, rfl, ⟨rfl, rfl, ?_, ?_, fun _ => rfl⟩, nofun⟩
  · exact ⟨rfl, rfl, fun _ => rfl, by simp, rfl, nofun,
      fun _ => ⟨rfl, rfl, config.maxChunkBytes_pos⟩, nofun⟩
  · exact ⟨rfl, rfl, fun _ => rfl, by simp, rfl, nofun,
      fun _ => ⟨rfl, rfl, config.maxChunkBytes_pos⟩, nofun⟩
  · simp [Child.start, Phase.inFlight]
  · simp [Child.start, Phase.inFlight]

/-- One step of the child keeps the books of both readers. -/
theorem Books.step (h : Books sha256 config invocationId out err child) (side : Side) :
    Books sha256 config invocationId out err (child.step sha256 config invocationId side) := by
  obtain ⟨outRead, errRead, outPieces, errPieces, outCut, errCut, hOut, hErr, hOpen, hBudget,
    hStreams⟩ := h
  cases side with
  | stdout =>
    obtain ⟨read, more, after, hAccount, hMoved⟩ := hOut.step hOpen
    exact ⟨read, errRead, more, errPieces, after, errCut, hAccount,
      hErr.other hMoved (by decide), hMoved.sink_open, hMoved.budget hBudget,
      hMoved.streams hStreams⟩
  | stderr =>
    obtain ⟨read, more, after, hAccount, hMoved⟩ := hErr.step hOpen
    rw [Nat.add_comm, Bool.or_comm] at hBudget
    have hNext := hMoved.budget hBudget
    rw [Nat.add_comm, Bool.or_comm] at hNext
    exact ⟨outRead, read, outPieces, more, outCut, after, hOut.other hMoved (by decide), hAccount,
      hMoved.sink_open, hNext, fun chunk hChunk =>
        (hMoved.streams (fun chunk hChunk => (hStreams chunk hChunk).symm) chunk hChunk).symm⟩

/-- The books are in order after every schedule. -/
theorem Books.run (h : Books sha256 config invocationId out err child) (schedule : List Side) :
    Books sha256 config invocationId out err (child.run sha256 config invocationId schedule) := by
  induction schedule generalizing child with
  | nil => exact h
  | cons side schedule ih => exact ih (h.step side)

/-- The books are right under every schedule. -/
theorem books_capture (out err : List ReadEvent) (schedule : List Side) :
    Books sha256 config invocationId out err
      (capture sha256 config invocationId none out err schedule) :=
  (Books.start out err).run schedule

theorem capture_concat (takes : Option Nat) (out err : List ReadEvent) (schedule : List Side)
    (side : Side) :
    capture sha256 config invocationId takes out err (schedule ++ [side]) =
      (capture sha256 config invocationId takes out err schedule).step sha256 config invocationId
        side := by
  rw [capture, Child.run, List.foldl_append]
  rfl

/-- The account of a reader at the end of a turn, if it has not been cut short. -/
theorem Account.captured {stream : StreamKind} {events done : List ReadEvent}
    {pieces : List (List UInt8)} {c : StreamCapture} {r : Reader} {sent : List StreamChunk}
    (h : Account sha256 config invocationId stream events done pieces false r sent)
    (hMatches : Matches c [] r) : Captured sha256 invocationId stream events c sent := by
  have hOwn : c.stream = stream := hMatches.stream.symm.trans h.own
  have hNonempty : ∀ piece ∈ pieces, piece ≠ [] := fun piece hPiece => (h.sizes piece hPiece).1
  obtain ⟨hBytes, hFits⟩ := h.whole rfl
  have hChunks := h.chunks
  cases hDone : c.done with
  | true =>
    have hPhase := hMatches.returned hDone
    rw [Reader.Fits, hPhase] at hFits
    rw [hPhase, hFits.2] at hBytes
    rw [if_pos hPhase] at hChunks
    refine ⟨hOwn, ?_, pieces, hNonempty, fun hRunning => ?_, ?_, ?_⟩
    · rw [hDone, ← h.input, List.any_append, hFits.1, Bool.true_or]
    · exact absurd (hDone.symm.trans hRunning) (by decide)
    · rw [hDone, ← h.input, bytesRead_append_of_ends hFits.1]
      exact hBytes
    · rw [hDone]
      exact hChunks
  | false =>
    obtain rfl := hMatches.running hDone
    have hEvents : done = events := by rw [← h.input]; exact (List.append_nil done).symm
    subst hEvents
    refine ⟨hOwn, hDone.trans hFits.1.symm, pieces, hNonempty, fun _ => h.seq nofun, ?_, ?_⟩
    · rw [hDone]
      exact hBytes
    · rw [hDone]
      exact hChunks

end Runs

end MxAgent.Daemon.Interleaved

/-! ## Whole turns -/

namespace MxAgent.Daemon

open Interleaved

variable {sha256 : List UInt8 → List UInt8} {config : StreamCaptureConfig} {invocationId : String}

/-- With an open sink and within the budget, the chunks of each stream are what its reader got,
however the reads are split and take turns. -/
theorem captureChildOutput_captured (reads : List ChildRead)
    (h : (captureChildOutput sha256 config invocationId none reads).output.limiter.truncated =
      false) :
    ChildCaptured sha256 invocationId reads
      (captureChildOutput sha256 config invocationId none reads) := by
  obtain ⟨schedule, hStdout, hStderr, hOutput⟩ : ∃ schedule,
      ChildMatches (captureChildOutput sha256 config invocationId none reads) [] _ :=
    captureChildOutput_scheduled none reads
  obtain ⟨outRead, errRead, outPieces, errPieces, outCut, errCut, hOut, hErr, hOpen, hBudget,
    hStreams⟩ : Books sha256 config invocationId (eventsOn .stdout reads)
      (eventsOn .stderr reads) _ :=
    books_capture _ _ schedule
  have hCut := hBudget.truncated
  rw [hOutput, h, eq_comm, Bool.or_eq_false_iff] at hCut
  obtain ⟨rfl, rfl⟩ := hCut
  rw [hOutput] at hOut hErr hOpen
  exact ⟨hOut.captured hStdout, hErr.captured hStderr, hOpen,
    hOutput ▸ hStreams⟩

/-- Without a byte cap nothing is truncated. -/
theorem captureChildOutput_uncapped (hCap : config.maxOutputBytes = none)
    (reads : List ChildRead) :
    (captureChildOutput sha256 config invocationId none reads).output.limiter.truncated =
      false := by
  obtain ⟨schedule, -, -, hOutput⟩ : ∃ schedule,
      ChildMatches (captureChildOutput sha256 config invocationId none reads) [] _ :=
    captureChildOutput_scheduled none reads
  obtain ⟨_, _, _, _, _, _, _, _, _, hBudget, -⟩ :
    Books sha256 config invocationId (eventsOn .stdout reads) (eventsOn .stderr reads) _ :=
    books_capture _ _ schedule
  rw [← hOutput, hBudget.truncated]
  exact hBudget.uncapped hCap

end MxAgent.Daemon
