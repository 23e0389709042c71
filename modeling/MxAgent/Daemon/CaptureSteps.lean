import Mathlib.Logic.Function.Iterate
import MxAgent.Daemon.CapturedChunks

/-! The two readers of a child in small steps. A reader gives way to the other one when it
waits for bytes, for the event rate or for the sink, so the budget may be taken and chunks
may be sent by the other one in between. Here a step ends at each of these places at the
latest, and any order of the steps of the two readers is a schedule. The turns of
`captureChildOutput` are runs of such steps of one reader. -/
namespace MxAgent.Daemon.Interleaved

open Protocol

inductive Site where
  | elapsed
  | ended
  | failed
  | full
  | line
  deriving DecidableEq

/-- Where a reader stands. In `sending` the bytes are taken from the budget, and rate and sink are
waited for. -/
inductive Phase where
  | reading
  | cutting
  | lines
  | sending (data : List UInt8) (exhausted : Bool) (site : Site)
  | closing
  | returned
  deriving DecidableEq

/-- Where the loop goes after an emission. A read error ends the stream whatever became of the
chunk. -/
def Site.next : Site → Emit → Phase
  | .failed, _ => .closing
  | .ended, .closed => .returned
  | .ended, _ => .closing
  | _, .closed => .returned
  | _, .budgetExhausted => .closing
  | .full, .sent => .cutting
  | .elapsed, .sent => .reading
  | .line, .sent => .reading

structure Reader where
  stream : StreamKind
  input : List ReadEvent
  buf : List UInt8
  seq : Nat
  phase : Phase
  deriving DecidableEq

/-- The first half of `emit_chunk`: take bytes from the budget. -/
def Reader.emit (site : Site) (data : List UInt8) (r : Reader) (s : CaptureOutput) :
    Reader × CaptureOutput :=
  let (allowed, limiter) := s.limiter.reserve data.length
  let exhausted := decide (allowed < data.length)
  if 0 < allowed then
    ({ r with phase := .sending (data.take allowed) exhausted site }, { s with limiter })
  else
    ({ r with phase := site.next (if exhausted then .budgetExhausted else .sent) },
      { s with limiter })

section Steps

variable (sha256 : List UInt8 → List UInt8) (config : StreamCaptureConfig) (invocationId : String)

def Reader.send (data : List UInt8) (eof : Bool) (next : Bool → Phase) (r : Reader)
    (s : CaptureOutput) : Reader × CaptureOutput :=
  let (delivered, sink) := s.sink.send (buildChunk sha256 invocationId r.stream r.seq data eof)
  ({ r with seq := r.seq + 1, phase := next delivered }, { s with sink })

/-- One step of `capture_stream_limited`. A read may never come back. -/
def Reader.step (r : Reader) (s : CaptureOutput) : Reader × CaptureOutput :=
  match r.phase with
  | .reading =>
    match r.input with
    | [] => (r, s)
    | .elapsed :: input =>
      if r.buf.isEmpty then ({ r with input }, s)
      else Reader.emit .elapsed r.buf { r with input, buf := [] } s
    | .read [] :: input =>
      if r.buf.isEmpty then ({ r with input, phase := .closing }, s)
      else Reader.emit .ended r.buf { r with input, buf := [] } s
    | .read (byte :: bytes) :: input =>
      ({ r with input, buf := r.buf ++ byte :: bytes, phase := .cutting }, s)
    | .failed :: input =>
      if r.buf.isEmpty then ({ r with input, phase := .closing }, s)
      else Reader.emit .failed r.buf { r with input, buf := [] } s
  | .cutting =>
    if r.buf.length < config.maxChunkBytes then ({ r with phase := .lines }, s)
    else
      Reader.emit .full (r.buf.take config.maxChunkBytes)
        { r with buf := r.buf.drop config.maxChunkBytes } s
  | .lines =>
    if !config.flushOnNewline || completeLines r.buf == 0 then ({ r with phase := .reading }, s)
    else
      Reader.emit .line (r.buf.take (completeLines r.buf))
        { r with buf := r.buf.drop (completeLines r.buf) } s
  | .sending data exhausted site =>
    r.send sha256 invocationId data false (fun delivered => site.next
      (if delivered then if exhausted then .budgetExhausted else .sent else .closed)) s
  | .closing => r.send sha256 invocationId [] true (fun _ => .returned) s
  | .returned => (r, s)

inductive Side where
  | stdout
  | stderr
  deriving DecidableEq

structure Child where
  stdout : Reader
  stderr : Reader
  output : CaptureOutput
  deriving DecidableEq

def Child.step (child : Child) : Side → Child
  | .stdout =>
    let (stdout, output) := child.stdout.step sha256 config invocationId child.output
    { child with stdout, output }
  | .stderr =>
    let (stderr, output) := child.stderr.step sha256 config invocationId child.output
    { child with stderr, output }

def Child.start (takes : Option Nat) (out err : List ReadEvent) : Child where
  stdout := ⟨.stdout, out, [], 0, .reading⟩
  stderr := ⟨.stderr, err, [], 0, .reading⟩
  output := ⟨⟨[], takes⟩, ⟨config.maxOutputBytes, 0, false⟩⟩

def Child.run (child : Child) (schedule : List Side) : Child :=
  schedule.foldl (Child.step sha256 config invocationId) child

/-- `capture_child_output` under a schedule. It returns once both readers have. -/
def capture (takes : Option Nat) (out err : List ReadEvent) (schedule : List Side) : Child :=
  (Child.start config takes out err).run sha256 config invocationId schedule

end Steps

variable {c : StreamCapture} {child : Child}

section Turns

variable {sha256 : List UInt8 → List UInt8} {config : StreamCaptureConfig} {invocationId : String}

variable (sha256 config invocationId) in
def Reaches (start finish : Reader × CaptureOutput) : Prop :=
  ∃ steps, (fun p : Reader × CaptureOutput => p.1.step sha256 config invocationId p.2)^[steps]
    start = finish

theorem Reaches.refl (p : Reader × CaptureOutput) : Reaches sha256 config invocationId p p :=
  ⟨0, rfl⟩

theorem Reaches.of_step {p q : Reader × CaptureOutput}
    (h : p.1.step sha256 config invocationId p.2 = q) : Reaches sha256 config invocationId p q :=
  ⟨1, h⟩

theorem Reaches.trans {p q r : Reader × CaptureOutput}
    (left : Reaches sha256 config invocationId p q)
    (right : Reaches sha256 config invocationId q r) : Reaches sha256 config invocationId p r := by
  obtain ⟨m, rfl⟩ := left
  obtain ⟨n, rfl⟩ := right
  exact ⟨n + m, Function.iterate_add_apply ..⟩

/-- A loop of the coarse model at some place of its turn. -/
def place (c : StreamCapture) (input : List ReadEvent) (phase : Phase) : Reader :=
  ⟨c.stream, input, c.buf, c.seq, phase⟩

/-- Taking bytes and then sending them is `emit_chunk`. -/
theorem reaches_emit (site : Site) (data : List UInt8) (c : StreamCapture) (input : List ReadEvent)
    (phase : Phase) (s : CaptureOutput) :
    Reaches sha256 config invocationId (Reader.emit site data (place c input phase) s)
      (place (emitChunk sha256 invocationId data false c s).2.1 input
          (site.next (emitChunk sha256 invocationId data false c s).1),
        (emitChunk sha256 invocationId data false c s).2.2) := by
  unfold Reader.emit emitChunk
  simp only [Bool.false_eq_true, if_false]
  split
  · apply Reaches.of_step
    simp only [Reader.step, Reader.send, sendChunk, place, decide_eq_true_eq]
    rfl
  · simp only [decide_eq_true_eq]
    exact .refl _

theorem reaches_finish (c : StreamCapture) (input : List ReadEvent) (s : CaptureOutput) :
    Reaches sha256 config invocationId (place c input .closing, s)
      (place (finish sha256 invocationId c s).1 input .returned,
        (finish sha256 invocationId c s).2) := by
  apply Reaches.of_step
  rfl

theorem emitChunk_done (data : List UInt8) (c : StreamCapture) (s : CaptureOutput) :
    (emitChunk sha256 invocationId data false c s).2.1.done = c.done := by
  unfold emitChunk
  simp only [Bool.false_eq_true, if_false]
  split <;> rfl

/-- The phase after a part of a turn: the reader may have returned. -/
def phaseOf (c : StreamCapture) (next : Phase) : Phase := if c.done then .returned else next

theorem phaseOf_running (h : c.done = false) (next : Phase) : phaseOf c next = next := by
  rw [phaseOf, h]
  rfl

theorem phaseOf_done (h : c.done) (next : Phase) : phaseOf c next = .returned := by
  rw [phaseOf, if_pos h]

theorem reaches_emitPiece {site : Site} (hClosed : site.next .closed = .returned)
    (hExhausted : site.next .budgetExhausted = .closing) (data : List UInt8)
    (hRunning : c.done = false) (input : List ReadEvent) (phase : Phase) (s : CaptureOutput) :
    Reaches sha256 config invocationId (Reader.emit site data (place c input phase) s)
      (place (emitPiece sha256 invocationId data c s).1 input
          (phaseOf (emitPiece sha256 invocationId data c s).1 (site.next .sent)),
        (emitPiece sha256 invocationId data c s).2) := by
  have hEmit :
      Reaches sha256 config invocationId (Reader.emit site data (place c input phase) s) _ :=
    reaches_emit site data c input phase s
  have hDone : (emitChunk sha256 invocationId data false c s).2.1.done = false := by
    rw [emitChunk_done, hRunning]
  unfold emitPiece
  split <;> rename_i hOutcome <;> rw [hOutcome] at hEmit hDone
  · rw [phaseOf_running hDone]
    exact hEmit
  · rw [hClosed] at hEmit
    exact hEmit
  · rw [hExhausted] at hEmit
    exact hEmit.trans (reaches_finish _ input _)

theorem emitPiece_buf (data : List UInt8) (c : StreamCapture) (s : CaptureOutput) :
    (emitPiece sha256 invocationId data c s).1.buf = c.buf := by
  have hBuf : (emitChunk sha256 invocationId data false c s).2.1.buf = c.buf := by
    unfold emitChunk
    simp only [Bool.false_eq_true, if_false]
    split <;> rfl
  unfold emitPiece
  split <;> rename_i hOutcome <;> rw [hOutcome] at hBuf <;> exact hBuf

theorem cutFull_done (fuel : Nat) (h : c.done) (s : CaptureOutput) :
    cutFull sha256 config invocationId fuel c s = (c, s) := by
  cases fuel with
  | zero => rfl
  | succ fuel => rw [cutFull, h, Bool.true_or, if_pos rfl]

theorem cutFull_short (fuel : Nat) (h : c.buf.length < config.maxChunkBytes)
    (s : CaptureOutput) : cutFull sha256 config invocationId fuel c s = (c, s) := by
  cases fuel with
  | zero => rfl
  | succ fuel => rw [cutFull, if_pos (by simp [h])]

theorem cutFull_piece (fuel : Nat) (hRunning : c.done = false)
    (h : ¬ c.buf.length < config.maxChunkBytes) (s : CaptureOutput) :
    cutFull sha256 config invocationId (fuel + 1) c s =
      cutFull sha256 config invocationId fuel
        (emitPiece sha256 invocationId (c.buf.take config.maxChunkBytes)
          { c with buf := c.buf.drop config.maxChunkBytes } s).1
        (emitPiece sha256 invocationId (c.buf.take config.maxChunkBytes)
          { c with buf := c.buf.drop config.maxChunkBytes } s).2 := by
  rw [cutFull, if_neg (by simpa [hRunning] using h)]

/-- The loop that cuts full chunks. It takes a byte a turn at least. -/
theorem reaches_cutFull (fuel : Nat) (hFuel : c.buf.length ≤ fuel) (hRunning : c.done = false)
    (input : List ReadEvent) (s : CaptureOutput) :
    Reaches sha256 config invocationId (place c input .cutting, s)
      (place (cutFull sha256 config invocationId fuel c s).1 input
          (phaseOf (cutFull sha256 config invocationId fuel c s).1 .lines),
        (cutFull sha256 config invocationId fuel c s).2) := by
  have hPos := config.maxChunkBytes_pos
  induction fuel generalizing c s with
  | zero =>
    rw [cutFull, phaseOf_running hRunning]
    exact .of_step (if_pos (show c.buf.length < config.maxChunkBytes by omega))
  | succ fuel ih =>
    by_cases hLength : c.buf.length < config.maxChunkBytes
    · rw [cutFull_short (fuel + 1) hLength, phaseOf_running hRunning]
      exact .of_step (if_pos hLength)
    · have hDrained : ({ c with buf := c.buf.drop config.maxChunkBytes } : StreamCapture).done =
          false := hRunning
      have hPiece : Reaches sha256 config invocationId (place c input .cutting, s) _ :=
        .trans (.of_step (if_neg hLength)) (reaches_emitPiece rfl rfl
          (c.buf.take config.maxChunkBytes) hDrained input .cutting s)
      have hBuf : (emitPiece sha256 invocationId (c.buf.take config.maxChunkBytes)
          { c with buf := c.buf.drop config.maxChunkBytes } s).1.buf.length ≤ fuel := by
        rw [emitPiece_buf, List.length_drop]
        omega
      refine hPiece.trans ?_
      rw [cutFull_piece fuel hRunning hLength]
      generalize emitPiece sha256 invocationId (c.buf.take config.maxChunkBytes)
        { c with buf := c.buf.drop config.maxChunkBytes } s = emitted at hBuf ⊢
      cases hDone : emitted.1.done with
      | false =>
        rw [phaseOf_running hDone]
        exact ih hBuf hDone emitted.2
      | true =>
        rw [phaseOf_done hDone, cutFull_done fuel hDone, phaseOf_done hDone]
        exact .refl _

theorem reaches_cutLines (hRunning : c.done = false) (input : List ReadEvent) (s : CaptureOutput) :
    Reaches sha256 config invocationId (place c input .lines, s)
      (place (cutLines sha256 config invocationId c s).1 input
          (phaseOf (cutLines sha256 config invocationId c s).1 .reading),
        (cutLines sha256 config invocationId c s).2) := by
  by_cases hNone : (!config.flushOnNewline || completeLines c.buf == 0)
  · have hStop : (c.done || !config.flushOnNewline || completeLines c.buf == 0) := by
      rw [hRunning, Bool.false_or, hNone]
    rw [cutLines, if_pos hStop, phaseOf_running hRunning]
    exact .of_step (if_pos hNone)
  · have hGo : ¬ (c.done || !config.flushOnNewline || completeLines c.buf == 0) := by
      rwa [hRunning, Bool.false_or]
    have hDrained : ({ c with buf := c.buf.drop (completeLines c.buf) } : StreamCapture).done =
        false := hRunning
    rw [cutLines, if_neg hGo]
    exact .trans (.of_step (if_neg hNone)) (reaches_emitPiece rfl rfl _ hDrained input .lines s)

theorem emitChunk_drained (data buf : List UInt8) (c : StreamCapture) (s : CaptureOutput) :
    emitChunk sha256 invocationId data false { c with buf } s =
      ((emitChunk sha256 invocationId data false c s).1,
        { (emitChunk sha256 invocationId data false c s).2.1 with buf },
        (emitChunk sha256 invocationId data false c s).2.2) := by
  unfold emitChunk
  simp only [Bool.false_eq_true, if_false]
  split <;> rfl

/-- A reader is where a turn of the loop has left it. The buffer of one that has returned is
ignored. -/
structure Matches (c : StreamCapture) (input : List ReadEvent) (r : Reader) : Prop where
  stream : r.stream = c.stream
  seq : r.seq = c.seq
  returned : c.done → r.phase = .returned
  running : c.done = false → r = place c input .reading

theorem matches_place (c : StreamCapture) (input : List ReadEvent) :
    Matches c input (place c input (phaseOf c .reading)) :=
  ⟨rfl, rfl, fun h => phaseOf_done h _, fun h => by rw [phaseOf_running h]⟩

theorem matches_finish (c : StreamCapture) (buf : List UInt8) (input : List ReadEvent)
    (s : CaptureOutput) :
    Matches (finish sha256 invocationId c s).1 input
      (place (finish sha256 invocationId { c with buf } s).1 input .returned) :=
  ⟨rfl, rfl, fun _ => rfl, nofun⟩

variable (sha256 config invocationId) in
/-- The reader gets to where the turn for an event leaves the stream. -/
def TurnReached (event : ReadEvent) (c : StreamCapture) (input : List ReadEvent)
    (s : CaptureOutput) : Prop :=
  ∃ r, Matches (captureStreamLimited sha256 config invocationId event c s).1 input r ∧
    Reaches sha256 config invocationId (place c (event :: input) .reading, s)
      (r, (captureStreamLimited sha256 config invocationId event c s).2)

section Turn

variable {c : StreamCapture} (hRunning : c.done = false) (input : List ReadEvent)
  (s : CaptureOutput)

include hRunning

theorem reaches_elapsed : TurnReached sha256 config invocationId .elapsed c input s := by
  have hDrained : ({ c with buf := [] } : StreamCapture).done = false := hRunning
  unfold TurnReached captureStreamLimited
  rw [if_neg (by simp [hRunning])]
  dsimp only
  split
  · rename_i hEmpty
    refine ⟨_, matches_place c input, .of_step ?_⟩
    rw [phaseOf_running hRunning]
    exact if_pos hEmpty
  · rename_i hSome
    exact ⟨_, matches_place _ input, .trans (.of_step (if_neg hSome))
      (reaches_emitPiece rfl rfl c.buf hDrained input .reading s)⟩

theorem reaches_failed : TurnReached sha256 config invocationId .failed c input s := by
  unfold TurnReached captureStreamLimited
  rw [if_neg (by simp [hRunning])]
  dsimp only
  split
  · rename_i hEmpty
    exact ⟨_, matches_finish c c.buf input s,
      .trans (.of_step (if_pos hEmpty)) (reaches_finish c input s)⟩
  · rename_i hSome
    have hEmit : Reaches sha256 config invocationId (place c (.failed :: input) .reading, s) _ :=
      .trans (.of_step (if_neg hSome))
        (reaches_emit .failed c.buf { c with buf := [] } input .reading s)
    rw [emitChunk_drained] at hEmit
    exact ⟨_, matches_finish _ [] input _, hEmit.trans (reaches_finish _ input _)⟩

theorem reaches_ended : TurnReached sha256 config invocationId (.read []) c input s := by
  unfold TurnReached captureStreamLimited
  rw [if_neg (by simp [hRunning])]
  dsimp only
  split
  · rename_i hEmpty
    exact ⟨_, matches_finish c c.buf input s,
      .trans (.of_step (if_pos hEmpty)) (reaches_finish c input s)⟩
  · rename_i hSome
    have hEmit : Reaches sha256 config invocationId (place c (.read [] :: input) .reading, s) _ :=
      .trans (.of_step (if_neg hSome))
        (reaches_emit .ended c.buf { c with buf := [] } input .reading s)
    rw [emitChunk_drained] at hEmit
    generalize emitChunk sha256 invocationId c.buf false c s = emitted at hEmit ⊢
    obtain ⟨outcome, next, output⟩ := emitted
    cases outcome with
    | closed => exact ⟨_, ⟨rfl, rfl, fun _ => rfl, nofun⟩, hEmit⟩
    | _ => exact ⟨_, matches_finish _ [] input _, hEmit.trans (reaches_finish _ input _)⟩

theorem reaches_data (byte : UInt8) (bytes : List UInt8) :
    TurnReached sha256 config invocationId (.read (byte :: bytes)) c input s := by
  have hRead : ({ c with buf := c.buf ++ byte :: bytes } : StreamCapture).done = false := hRunning
  have hFull : Reaches sha256 config invocationId
      (place c (.read (byte :: bytes) :: input) .reading, s) _ :=
    .trans (.of_step rfl) (reaches_cutFull _ le_rfl hRead input s)
  unfold TurnReached captureStreamLimited
  rw [if_neg (by simp [hRunning])]
  dsimp only
  generalize cutFull sha256 config invocationId (c.buf ++ byte :: bytes).length
    { c with buf := c.buf ++ byte :: bytes } s = cut at hFull ⊢
  cases hDone : cut.1.done with
  | false =>
    rw [phaseOf_running hDone] at hFull
    exact ⟨_, matches_place _ input, hFull.trans (reaches_cutLines hDone input cut.2)⟩
  | true =>
    have hStop : cutLines sha256 config invocationId cut.1 cut.2 = cut := by
      rw [cutLines, hDone, Bool.true_or, Bool.true_or, if_pos rfl]
    rw [hStop, phaseOf_done hDone, ← phaseOf_done hDone .reading] at *
    exact ⟨_, matches_place _ input, hFull⟩

/-- A turn of the loop is a run of steps of its reader. -/
theorem reaches_turn (event : ReadEvent) : TurnReached sha256 config invocationId event c input s :=
  match event with
  | .elapsed => reaches_elapsed hRunning input s
  | .failed => reaches_failed hRunning input s
  | .read [] => reaches_ended hRunning input s
  | .read (byte :: bytes) => reaches_data hRunning input s byte bytes

end Turn

/-- The next turn, which is no step for a reader that has returned. -/
theorem Matches.turn {event : ReadEvent} {input : List ReadEvent} {r : Reader}
    (h : Matches c (event :: input) r) (s : CaptureOutput) :
    ∃ next, Matches (captureStreamLimited sha256 config invocationId event c s).1 input next ∧
      Reaches sha256 config invocationId (r, s)
        (next, (captureStreamLimited sha256 config invocationId event c s).2) := by
  cases hDone : c.done with
  | true =>
    rw [captureStreamLimited_done event hDone]
    exact ⟨r, ⟨h.stream, h.seq, h.returned, fun hRunning =>
      absurd (hDone.symm.trans hRunning) (by decide)⟩, .refl _⟩
  | false =>
    rw [h.running hDone]
    exact reaches_turn hDone input s event

theorem Reaches.stdout {finish : Reader × CaptureOutput}
    (h : Reaches sha256 config invocationId (child.stdout, child.output) finish) :
    ∃ schedule, child.run sha256 config invocationId schedule =
      { child with stdout := finish.1, output := finish.2 } := by
  obtain ⟨steps, rfl⟩ := h
  induction steps generalizing child with
  | zero => exact ⟨[], rfl⟩
  | succ steps ih =>
    obtain ⟨schedule, hRun⟩ := @ih (child.step sha256 config invocationId .stdout)
    exact ⟨.stdout :: schedule, hRun⟩

theorem Reaches.stderr {finish : Reader × CaptureOutput}
    (h : Reaches sha256 config invocationId (child.stderr, child.output) finish) :
    ∃ schedule, child.run sha256 config invocationId schedule =
      { child with stderr := finish.1, output := finish.2 } := by
  obtain ⟨steps, rfl⟩ := h
  induction steps generalizing child with
  | zero => exact ⟨[], rfl⟩
  | succ steps ih =>
    obtain ⟨schedule, hRun⟩ := @ih (child.step sha256 config invocationId .stderr)
    exact ⟨.stderr :: schedule, hRun⟩

/-- The two readers are where the turns so far have left them. -/
structure ChildMatches (coarse : ChildCapture) (reads : List ChildRead) (child : Child) :
    Prop where
  stdout : Matches coarse.stdout (eventsOn .stdout reads) child.stdout
  stderr : Matches coarse.stderr (eventsOn .stderr reads) child.stderr
  output : child.output = coarse.output

theorem ChildMatches.step {coarse : ChildCapture} {read : ChildRead} {reads : List ChildRead}
    (h : ChildMatches coarse (read :: reads) child) :
    ∃ schedule, ChildMatches (coarse.step sha256 config invocationId read) reads
      (child.run sha256 config invocationId schedule) := by
  obtain ⟨hStdout, hStderr, hOutput⟩ := h
  cases read with
  | stdout event =>
    obtain ⟨r, hMatches, hReaches⟩ : ∃ r, Matches (captureStreamLimited sha256 config
        invocationId event coarse.stdout coarse.output).1 (eventsOn .stdout reads) r ∧ _ :=
      hStdout.turn coarse.output
    rw [← hOutput] at hReaches
    obtain ⟨schedule, hRun⟩ := hReaches.stdout
    rw [hOutput] at hRun
    exact ⟨schedule, by rw [hRun]; exact ⟨hMatches, hStderr, rfl⟩⟩
  | stderr event =>
    obtain ⟨r, hMatches, hReaches⟩ : ∃ r, Matches (captureStreamLimited sha256 config
        invocationId event coarse.stderr coarse.output).1 (eventsOn .stderr reads) r ∧ _ :=
      hStderr.turn coarse.output
    rw [← hOutput] at hReaches
    obtain ⟨schedule, hRun⟩ := hReaches.stderr
    rw [hOutput] at hRun
    exact ⟨schedule, by rw [hRun]; exact ⟨hStdout, hMatches, rfl⟩⟩

theorem ChildMatches.run {coarse : ChildCapture} {reads : List ChildRead}
    (h : ChildMatches coarse reads child) :
    ∃ schedule, ChildMatches (reads.foldl (ChildCapture.step sha256 config invocationId) coarse) []
      (child.run sha256 config invocationId schedule) := by
  induction reads generalizing coarse child with
  | nil => exact ⟨[], h⟩
  | cons read reads ih =>
    obtain ⟨first, hFirst⟩ : ∃ schedule,
        ChildMatches (coarse.step sha256 config invocationId read) reads
          (child.run sha256 config invocationId schedule) := h.step
    obtain ⟨rest, hRest⟩ := ih hFirst
    refine ⟨first ++ rest, ?_⟩
    rw [Child.run, List.foldl_append]
    exact hRest

/-- Taking whole turns is one of the schedules. -/
theorem captureChildOutput_scheduled (takes : Option Nat) (reads : List ChildRead) :
    ∃ schedule, ChildMatches (captureChildOutput sha256 config invocationId takes reads) []
      (capture sha256 config invocationId takes (eventsOn .stdout reads) (eventsOn .stderr reads)
        schedule) :=
  ChildMatches.run ⟨⟨rfl, rfl, nofun, fun _ => rfl⟩, ⟨rfl, rfl, nofun, fun _ => rfl⟩, rfl⟩

end Turns

end MxAgent.Daemon.Interleaved
