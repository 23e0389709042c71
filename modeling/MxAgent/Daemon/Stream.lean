import MxAgent.Foundations.Base64
import MxAgent.Protocol.Schema

/-! The capture stage. Two readers cut what a child writes into numbered chunks and put
them on one sink, under one budget of bytes. Everything the environment decides about a
reader is in its events: what a read returns and when the flush interval elapses. -/
namespace MxAgent.Daemon

open Protocol

/-- `StreamCaptureConfig` without what only delays chunks. With chunks of size zero the cutting loop
would not end. -/
structure StreamCaptureConfig where
  maxChunkBytes : Nat
  flushOnNewline : Bool
  maxOutputBytes : Option Nat
  maxChunkBytes_pos : 0 < maxChunkBytes

/-- `CaptureLimiter`: the byte budget that the streams of an invocation share. -/
structure CaptureLimiter where
  maxOutputBytes : Option Nat
  emitted : Nat
  truncated : Bool
  deriving DecidableEq

def CaptureLimiter.reserve (limiter : CaptureLimiter) (len : Nat) : Nat × CaptureLimiter :=
  match limiter.maxOutputBytes with
  | none => (len, limiter)
  | some max =>
    let grant := min len (max - limiter.emitted)
    (grant, { limiter with
      emitted := limiter.emitted + grant
      truncated := limiter.truncated || decide (grant < len) })

/-- The receiving end of the chunks. It may go away after some number of them. -/
structure ChunkSink where
  sent : List StreamChunk
  takes : Option Nat
  deriving DecidableEq

def ChunkSink.send (sink : ChunkSink) (chunk : StreamChunk) : Bool × ChunkSink :=
  if sink.takes.all fun takes => sink.sent.length < takes then
    (true, { sink with sent := sink.sent ++ [chunk] })
  else (false, sink)

structure CaptureOutput where
  sink : ChunkSink
  limiter : CaptureLimiter
  deriving DecidableEq

/-- The loop of one reader: its stream, buffer and next number. -/
structure StreamCapture where
  stream : StreamKind
  buf : List UInt8
  seq : Nat
  done : Bool
  deriving DecidableEq

/-- What one timed read comes back with; a read of nothing is EOF. -/
inductive ReadEvent where
  | elapsed
  | read (bytes : List UInt8)
  | failed
  deriving DecidableEq

inductive Emit where
  | sent
  | closed
  | budgetExhausted
  deriving DecidableEq

def encodeChunk (data : List UInt8) : String × String :=
  match String.fromUTF8? ⟨data.toArray⟩ with
  | some text => ("utf-8", text)
  | none => ("base64", Base64.encode data)

section Capture

variable (sha256 : List UInt8 → List UInt8) (config : StreamCaptureConfig) (invocationId : String)

def chunkSha256 (data : List UInt8) : Option String :=
  if data.isEmpty then none else some (Base64.encode (sha256 data))

def buildChunk (stream : StreamKind) (seq : Nat) (data : List UInt8) (eof : Bool) :
    StreamChunk where
  invocationId
  stream
  seq
  encoding := (encodeChunk data).1
  data := (encodeChunk data).2
  eof
  sha256 := chunkSha256 sha256 data

def sendChunk (data : List UInt8) (eof : Bool) (c : StreamCapture) (s : CaptureOutput) :
    Bool × StreamCapture × CaptureOutput :=
  let (delivered, sink) := s.sink.send (buildChunk sha256 invocationId c.stream c.seq data eof)
  (delivered, { c with seq := c.seq + 1 }, { s with sink })

/-- `emit_chunk`. The EOF marker is not subject to the budget. -/
def emitChunk (data : List UInt8) (eof : Bool) (c : StreamCapture) (s : CaptureOutput) :
    Emit × StreamCapture × CaptureOutput :=
  if eof then
    let (delivered, c, s) := sendChunk sha256 invocationId [] true c s
    (if delivered then .sent else .closed, c, s)
  else
    let (allowed, limiter) := s.limiter.reserve data.length
    let s := { s with limiter }
    let outcome : Emit := if allowed < data.length then .budgetExhausted else .sent
    if 0 < allowed then
      let (delivered, c, s) := sendChunk sha256 invocationId (data.take allowed) false c s
      (if delivered then outcome else .closed, c, s)
    else (outcome, c, s)

def finish (c : StreamCapture) (s : CaptureOutput) : StreamCapture × CaptureOutput :=
  let (_, c, s) := emitChunk sha256 invocationId [] true c s
  ({ c with done := true }, s)

/-- Emit a piece inside the loop: a closed sink ends it, and so does an exhausted budget after the
EOF marker. -/
def emitPiece (data : List UInt8) (c : StreamCapture) (s : CaptureOutput) :
    StreamCapture × CaptureOutput :=
  match emitChunk sha256 invocationId data false c s with
  | (.sent, c, s) => (c, s)
  | (.closed, c, s) => ({ c with done := true }, s)
  | (.budgetExhausted, c, s) => finish sha256 invocationId c s

/-- Flush whole chunks while the buffer is at or over the cap. -/
def cutFull : Nat → StreamCapture → CaptureOutput → StreamCapture × CaptureOutput
  | 0, c, s => (c, s)
  | fuel + 1, c, s =>
    if c.done || c.buf.length < config.maxChunkBytes then (c, s)
    else
      let (c, s) := emitPiece sha256 invocationId (c.buf.take config.maxChunkBytes)
        { c with buf := c.buf.drop config.maxChunkBytes } s
      cutFull fuel c s

def completeLines (buf : List UInt8) : Nat :=
  match buf.reverse.findIdx? fun byte => byte == 10 with
  | none => 0
  | some after => buf.length - after

/-- In interactive mode, flush complete lines as they arrive. -/
def cutLines (c : StreamCapture) (s : CaptureOutput) : StreamCapture × CaptureOutput :=
  if c.done || !config.flushOnNewline || completeLines c.buf == 0 then (c, s)
  else
    emitPiece sha256 invocationId (c.buf.take (completeLines c.buf))
      { c with buf := c.buf.drop (completeLines c.buf) } s

/-- One turn of the loop of `capture_stream_limited`. -/
def captureStreamLimited (event : ReadEvent) (c : StreamCapture) (s : CaptureOutput) :
    StreamCapture × CaptureOutput :=
  if c.done then (c, s)
  else match event with
    | .elapsed =>
      if c.buf.isEmpty then (c, s)
      else emitPiece sha256 invocationId c.buf { c with buf := [] } s
    | .read [] =>
      if c.buf.isEmpty then finish sha256 invocationId c s
      else match emitChunk sha256 invocationId c.buf false c s with
        | (.closed, c, s) => ({ c with done := true }, s)
        | (_, c, s) => finish sha256 invocationId c s
    | .read (byte :: bytes) =>
      let c := { c with buf := c.buf ++ byte :: bytes }
      let (c, s) := cutFull sha256 config invocationId c.buf.length c s
      cutLines sha256 config invocationId c s
    | .failed =>
      if c.buf.isEmpty then finish sha256 invocationId c s
      else
        let (_, c, s) := emitChunk sha256 invocationId c.buf false c s
        finish sha256 invocationId c s

/-- The two readers of a child, in whatever order they are polled. -/
structure ChildCapture where
  stdout : StreamCapture
  stderr : StreamCapture
  output : CaptureOutput
  deriving DecidableEq

inductive ChildRead where
  | stdout (event : ReadEvent)
  | stderr (event : ReadEvent)
  deriving DecidableEq

def ChildCapture.step (child : ChildCapture) : ChildRead → ChildCapture
  | .stdout event =>
    let (stdout, output) :=
      captureStreamLimited sha256 config invocationId event child.stdout child.output
    { child with stdout, output }
  | .stderr event =>
    let (stderr, output) :=
      captureStreamLimited sha256 config invocationId event child.stderr child.output
    { child with stderr, output }

def ChildCapture.start (takes : Option Nat) : ChildCapture where
  stdout := ⟨.stdout, [], 0, false⟩
  stderr := ⟨.stderr, [], 0, false⟩
  output := ⟨⟨[], takes⟩, ⟨config.maxOutputBytes, 0, false⟩⟩

/-- `capture_child_output` after some reads. It returns once both readers are done, with the
limiter's `truncated` and `emitted`. -/
def captureChildOutput (takes : Option Nat) (reads : List ChildRead) : ChildCapture :=
  reads.foldl (ChildCapture.step sha256 config invocationId) (.start config takes)

end Capture

end MxAgent.Daemon
