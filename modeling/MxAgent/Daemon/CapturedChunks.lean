import MxAgent.Daemon.Stream

/-! What the capture stage is to have sent of what its readers got: nonempty pieces, numbered
in order, and then the EOF marker. -/
namespace MxAgent.Daemon

open Protocol

/-- The stream ends with this event: at EOF or a read error. -/
def ReadEvent.ends : ReadEvent → Bool
  | .read [] => true
  | .read (_ :: _) => false
  | .failed => true
  | .elapsed => false

def ReadEvent.bytes : ReadEvent → List UInt8
  | .read bytes => bytes
  | .failed => []
  | .elapsed => []

/-- What a stream was read to be, up to its end. -/
def bytesRead : List ReadEvent → List UInt8
  | [] => []
  | event :: events => if event.ends then [] else event.bytes ++ bytesRead events

variable {event : ReadEvent}

theorem ReadEvent.bytes_of_ends (h : event.ends) : event.bytes = [] := by
  cases event with
  | elapsed => cases h
  | failed => rfl
  | read bytes =>
    cases bytes with
    | nil => rfl
    | cons byte bytes => cases h

theorem bytesRead_concat (events : List ReadEvent) (event : ReadEvent) :
    bytesRead (events ++ [event]) =
      bytesRead events ++ if events.any ReadEvent.ends then [] else event.bytes := by
  induction events with
  | nil =>
    cases hEnds : event.ends with
    | false => simp [bytesRead, hEnds]
    | true => simp [bytesRead, hEnds, ReadEvent.bytes_of_ends hEnds]
  | cons first events ih =>
    cases hEnds : first.ends with
    | false => simp [bytesRead, hEnds, ih]
    | true => simp [bytesRead, hEnds]

theorem bytesRead_append_of_ends {done : List ReadEvent} (h : done.any ReadEvent.ends)
    (input : List ReadEvent) : bytesRead (done ++ input) = bytesRead done := by
  induction done with
  | nil => cases h
  | cons event done ih =>
    rw [List.cons_append, bytesRead, bytesRead]
    by_cases hEnds : event.ends
    · rw [if_pos hEnds, if_pos hEnds]
    · rw [if_neg hEnds, if_neg hEnds, ih (by simpa [hEnds] using h)]

section Captured

variable {sha256 : List UInt8 → List UInt8} {config : StreamCaptureConfig} {invocationId : String}

variable (sha256 invocationId) in
/-- The chunks of some pieces, numbered from `seq` on. -/
def numbered (stream : StreamKind) : Nat → List (List UInt8) → List StreamChunk
  | _, [] => []
  | seq, piece :: pieces =>
    buildChunk sha256 invocationId stream seq piece false :: numbered stream (seq + 1) pieces

theorem numbered_append (stream : StreamKind) (seq : Nat) (pieces more : List (List UInt8)) :
    numbered sha256 invocationId stream seq (pieces ++ more) =
      numbered sha256 invocationId stream seq pieces ++
        numbered sha256 invocationId stream (seq + pieces.length) more := by
  induction pieces generalizing seq with
  | nil => rfl
  | cons piece pieces ih =>
    have hLength : seq + 1 + pieces.length = seq + (pieces.length + 1) := by omega
    simp [numbered, ih, hLength]

variable (sha256 invocationId) in
/-- What a reader has sent: nonempty pieces in order, then the EOF marker. -/
structure Captured (stream : StreamKind) (events : List ReadEvent) (c : StreamCapture)
    (sent : List StreamChunk) : Prop where
  own : c.stream = stream
  done : c.done = events.any ReadEvent.ends
  chunks : ∃ pieces : List (List UInt8), (∀ piece ∈ pieces, piece ≠ []) ∧
    (c.done = false → c.seq = pieces.length) ∧
    pieces.flatten ++ (if c.done then [] else c.buf) = bytesRead events ∧
    sent.filter (fun chunk => chunk.stream = stream) =
      numbered sha256 invocationId stream 0 pieces ++
        if c.done then [buildChunk sha256 invocationId stream pieces.length [] true] else []

theorem captureStreamLimited_done {c : StreamCapture} {s : CaptureOutput}
    (event : ReadEvent) (hDone : c.done) :
    captureStreamLimited sha256 config invocationId event c s = (c, s) := by
  unfold captureStreamLimited
  rw [if_pos hDone]

def ChildRead.eventOn (stream : StreamKind) : ChildRead → Option ReadEvent
  | .stdout event => if stream = .stdout then some event else none
  | .stderr event => if stream = .stderr then some event else none

/-- The events of one of the two streams. -/
def eventsOn (stream : StreamKind) (reads : List ChildRead) : List ReadEvent :=
  reads.filterMap (ChildRead.eventOn stream)

variable (sha256 invocationId) in
/-- Both readers have sent what they have read. -/
structure ChildCaptured (reads : List ChildRead) (child : ChildCapture) : Prop where
  stdout : Captured sha256 invocationId .stdout (eventsOn .stdout reads) child.stdout
    child.output.sink.sent
  stderr : Captured sha256 invocationId .stderr (eventsOn .stderr reads) child.stderr
    child.output.sink.sent
  takes : child.output.sink.takes = none
  streams : ∀ chunk ∈ child.output.sink.sent, chunk.stream = .stdout ∨ chunk.stream = .stderr

end Captured

end MxAgent.Daemon
