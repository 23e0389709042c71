import MxAgent.Foundations.Base64
import MxAgent.Foundations.Reorder
import MxAgent.Policy.Engine
import MxAgent.Protocol.Schema

/-! The renderer of a forwarded stream. Frames come in any order, more than once or not at
all. Chunks are put back into the order of their stream and written out; what is found
missing or invalid is reported on the error output, and in strict mode fails the stream. -/
namespace MxAgent.Cli

open Protocol

def exitProtocolFailure : UInt8 := 128

/-- What a renderer receives: chunks, artifacts and the finished event. -/
inductive StreamFrame where
  | chunk (chunk : StreamChunk)
  | artifact (artifact : StreamArtifact)
  | finished (finished : ExecFinished)
  deriving DecidableEq

structure RenderConfig where
  reorderWindow : Nat
  strict : Bool
  deriving DecidableEq

structure MissingChunk where
  stream : StreamKind
  seq : Nat
  deriving DecidableEq

structure StreamOutcome where
  exitCode : Option UInt8
  missing : List MissingChunk
  integrityFailure : Bool
  artifacts : List StreamArtifact
  truncated : Bool
  deriving DecidableEq

abbrev StreamReorder := Reorder.Buffer StreamChunk

/-- `ReorderBuffer`. A stream without an entry has an empty buffer. -/
structure ReorderBuffer where
  streams : StreamKind → StreamReorder
  window : Nat

/-- The order in which `flush` meets the streams of a hash map. -/
structure StreamOrder where
  kinds : List StreamKind
  complete : kinds.Perm [.stdin, .stdout, .stderr, .pty, .control]

namespace ReorderBuffer

def new (window : Nat) : ReorderBuffer := ⟨fun _ => .empty, max window 1⟩

/-- `accept`: what is released, what is declared missing, and the buffer. -/
def accept (chunk : StreamChunk) (buf : ReorderBuffer) :
    List StreamChunk × List MissingChunk × ReorderBuffer :=
  let (ready, lost, state) := (buf.streams chunk.stream).push chunk.seq chunk buf.window
  (ready, lost.map (MissingChunk.mk chunk.stream),
    { buf with streams := Function.update buf.streams chunk.stream state })

/-- `flush`: what every stream has left, with its gaps. -/
def flush (order : StreamOrder) (buf : ReorderBuffer) :
    List StreamChunk × List MissingChunk × ReorderBuffer :=
  (order.kinds.flatMap fun stream => (buf.streams stream).flush.1,
    order.kinds.flatMap fun stream =>
      (buf.streams stream).flush.2.1.map (MissingChunk.mk stream),
    { buf with streams := fun stream => (buf.streams stream).flush.2.2 })

end ReorderBuffer

def signalNumber (name : String) : Option UInt8 :=
  match name with
  | "SIGHUP" => some 1
  | "SIGINT" => some 2
  | "SIGQUIT" => some 3
  | "SIGILL" => some 4
  | "SIGABRT" => some 6
  | "SIGIOT" => some 6
  | "SIGFPE" => some 8
  | "SIGKILL" => some 9
  | "SIGSEGV" => some 11
  | "SIGPIPE" => some 13
  | "SIGALRM" => some 14
  | "SIGTERM" => some 15
  | _ => none

/-- `resolve_exit_code`: the child's code, or one for its signal. -/
def resolveExitCode (finished : ExecFinished) : UInt8 :=
  match finished.exitCode, finished.signal with
  | some code, _ => if 0 ≤ code ∧ code < 256 then UInt8.ofNat code.toNat else 1
  | none, some signal =>
    match signalNumber signal with
    | some number => 128 + number
    | none => exitProtocolFailure
  | none, none => exitProtocolFailure

def textBytes (text : String) : List UInt8 := text.toUTF8.data.toList

/-- `decode_chunk`: the bytes of a chunk in its encoding. -/
def decodeChunk (chunk : StreamChunk) : List UInt8 :=
  if chunk.encoding = "base64" then
    match Base64.decode chunk.data with
    | some bytes => bytes
    | none => textBytes chunk.data
  else textBytes chunk.data

def streamLabel : StreamKind → String
  | .stdout => "stdout"
  | .stderr => "stderr"
  | .pty => "pty"
  | .stdin => "stdin"
  | .control => "control"

/-- The state of `render_stream_with`, with what was written to the outputs. -/
structure Renderer where
  outcome : StreamOutcome
  buf : ReorderBuffer
  out : List UInt8
  err : List UInt8

namespace Renderer

def writeOut (bytes : List UInt8) (r : Renderer) : Renderer := { r with out := r.out ++ bytes }

def writeErr (bytes : List UInt8) (r : Renderer) : Renderer := { r with err := r.err ++ bytes }

def report (line : String) (r : Renderer) : Renderer := r.writeErr (textBytes (line ++ "\n"))

def renderChunk (chunk : StreamChunk) (r : Renderer) : Renderer :=
  if chunk.data.isEmpty then r
  else match chunk.stream with
    | .stdout | .pty => r.writeOut (decodeChunk chunk)
    | .stderr => r.writeErr (decodeChunk chunk)
    | .stdin | .control => r

def renderArtifact (artifact : StreamArtifact) (r : Renderer) : Renderer :=
  let location :=
    if artifact.mxcUri.isEmpty then "(captured locally; not uploaded)" else artifact.mxcUri
  let r := r.report ("mx-agent: " ++ streamLabel artifact.stream ++
    " exceeded the timeline budget; full log uploaded as artifact " ++
    debugString artifact.name ++ " (" ++ toString artifact.sizeBytes ++ " bytes, sha256=" ++
    artifact.sha256 ++ ") at " ++ location)
  if artifact.tailPreview.isEmpty then r
  else
    let r := r.report "mx-agent: tail preview follows:"
    match artifact.stream with
    | .stderr => r.writeErr (textBytes artifact.tailPreview)
    | _ => r.writeOut (textBytes artifact.tailPreview)

/-- Report a chunk that is lost; a strict renderer fails. -/
def surfaceMissing (strict : Bool) (r : Renderer) (missing : MissingChunk) : Renderer :=
  let r :=
    if strict then
      let r := r.report ("mx-agent: error: " ++ streamLabel missing.stream ++
        " stream integrity failure: missing chunk " ++ toString missing.seq)
      { r with outcome := { r.outcome with integrityFailure := true } }
    else
      r.report ("mx-agent: warning: " ++ streamLabel missing.stream ++
        " stream degraded: missing chunk " ++ toString missing.seq ++
        " (best-effort output continues)")
  { r with outcome := { r.outcome with missing := r.outcome.missing ++ [missing] } }

end Renderer

section Render

/- `describeError` is what the decoder reports of a text that is not base64. -/
variable (sha256 : List UInt8 → List UInt8) (describeError : String → String)
  (order : StreamOrder) (config : RenderConfig)

/-- `chunk_integrity_error`: the encoding, then the digest. -/
def chunkIntegrityError (chunk : StreamChunk) : Option String :=
  let decoded : Except String (List UInt8) :=
    if chunk.encoding = "base64" then
      match Base64.decode chunk.data with
      | some bytes => .ok bytes
      | none => .error (streamLabel chunk.stream ++ " chunk " ++ toString chunk.seq ++
          ": invalid base64 payload: " ++ describeError chunk.data)
    else .ok (textBytes chunk.data)
  match decoded with
  | .error reason => some reason
  | .ok bytes =>
    match chunk.sha256 with
    | none => none
    | some expected =>
      if Base64.encode (sha256 bytes) = expected then none
      else some (streamLabel chunk.stream ++ " chunk " ++ toString chunk.seq ++
        ": sha256 digest mismatch")

namespace Renderer

def checkChunkIntegrity (chunk : StreamChunk) (r : Renderer) : Renderer :=
  if config.strict then
    match chunkIntegrityError sha256 describeError chunk with
    | none => r
    | some reason =>
      let r := r.report ("mx-agent: error: stream integrity failure: " ++ reason)
      { r with outcome := { r.outcome with integrityFailure := true } }
  else r

/-- Render the chunks that are ready, then report what was declared lost. -/
def release (ready : List StreamChunk) (detected : List MissingChunk) (r : Renderer) : Renderer :=
  let r := ready.foldl (fun r chunk =>
    (r.checkChunkIntegrity sha256 describeError config chunk).renderChunk chunk) r
  detected.foldl (surfaceMissing config.strict) r

/-- Take in a chunk and render what is ready. -/
def acceptChunk (chunk : StreamChunk) (r : Renderer) : Renderer :=
  let (ready, detected, buf) := r.buf.accept chunk
  { r with buf }.release sha256 describeError config ready detected

/-- Render what is left when the stream has ended. -/
def flushAll (r : Renderer) : Renderer :=
  let (ready, detected, buf) := r.buf.flush order
  { r with buf }.release sha256 describeError config ready detected

/-- The loop over the frames. It stops at a finished frame; without one, the buffer is flushed and
there is no exit code. -/
def renderFrames : List StreamFrame → Renderer → Renderer
  | [], r => r.flushAll sha256 describeError order config
  | .chunk chunk :: frames, r =>
    renderFrames frames (r.acceptChunk sha256 describeError config chunk)
  | .artifact artifact :: frames, r =>
    let r := r.renderArtifact artifact
    renderFrames frames
      { r with outcome := { r.outcome with artifacts := r.outcome.artifacts ++ [artifact] } }
  | .finished finished :: _, r =>
    let r := r.flushAll sha256 describeError order config
    { r with outcome := { r.outcome with
      truncated := finished.truncated
      exitCode := some (resolveExitCode finished) } }

def start : Renderer := ⟨⟨none, [], false, [], false⟩, .new config.reorderWindow, [], []⟩

end Renderer

/-- `render_stream_with`: the outcome, and what was written. -/
def renderStreamWith (frames : List StreamFrame) : Renderer :=
  Renderer.renderFrames sha256 describeError order config frames (.start config)

end Render

end MxAgent.Cli
