import MxAgent.Cli.ReorderRuns
import MxAgent.Daemon.CaptureBudget

/-! A child's output from the daemon that captures it to the terminal that shows it. The
chunks may be dropped, repeated and reordered on the way. What is written is decided by
which sequence numbers arrive before the finished event, and by how far they overtake each
other. -/
namespace MxAgent.System.StreamDelivery

open Protocol Daemon Cli Reorder

variable (sha256 : List UInt8 → List UInt8) (invocationId : String)
  (describeError : String → String) (order : StreamOrder) (config : RenderConfig)

/-! ## One chunk -/

def payload (pieces : StreamKind → List (List UInt8)) (stream : StreamKind) (seq : Nat) :
    List UInt8 :=
  (pieces stream).getD seq []

/-- The chunk of a stream under a sequence number: a piece, or the EOF marker. -/
def chunkAt (pieces : StreamKind → List (List UInt8)) (stream : StreamKind) (seq : Nat) :
    StreamChunk :=
  buildChunk sha256 invocationId stream seq (payload pieces stream seq)
    (decide ((pieces stream).length ≤ seq))

/-- What the capture has sent: the pieces and their EOF markers. -/
structure Produced (pieces : StreamKind → List (List UInt8)) (sent : List StreamChunk) :
    Prop where
  nonempty : ∀ stream, ∀ piece ∈ pieces stream, piece ≠ []
  mem_iff : ∀ chunk, chunk ∈ sent ↔ (chunk.stream = .stdout ∨ chunk.stream = .stderr) ∧
    chunk.seq ≤ (pieces chunk.stream).length ∧
    chunk = chunkAt sha256 invocationId pieces chunk.stream chunk.seq

variable {sha256 invocationId describeError order config}

theorem textBytes_of_fromUTF8 {data : List UInt8} {text : String}
    (h : String.fromUTF8? ⟨data.toArray⟩ = some text) : textBytes text = data := by
  unfold String.fromUTF8? at h
  split at h
  · cases h
    simp [textBytes, String.fromUTF8, String.toUTF8]
  · cases h

theorem decodeChunk_buildChunk (stream : StreamKind) (seq : Nat) (data : List UInt8)
    (eof : Bool) : decodeChunk (buildChunk sha256 invocationId stream seq data eof) = data := by
  unfold decodeChunk buildChunk encodeChunk
  cases hText : String.fromUTF8? ⟨data.toArray⟩ with
  | some text => simp [textBytes_of_fromUTF8 hText]
  | none => simp

theorem chunkIntegrityError_buildChunk (stream : StreamKind) (seq : Nat) (data : List UInt8)
    (eof : Bool) :
    chunkIntegrityError sha256 describeError
      (buildChunk sha256 invocationId stream seq data eof) = none := by
  unfold chunkIntegrityError buildChunk encodeChunk chunkSha256
  cases hText : String.fromUTF8? ⟨data.toArray⟩ with
  | some text =>
    cases data with
    | nil => simp
    | cons byte bytes => simp [textBytes_of_fromUTF8 hText]
  | none =>
    cases data with
    | nil => simp
    | cons byte bytes => simp

variable {pieces : StreamKind → List (List UInt8)} {stream : StreamKind} {r : Renderer}
  {chunk : StreamChunk} {chunks : List StreamChunk} {frames : List StreamFrame}

variable (sha256 invocationId) in
def Genuine (pieces : StreamKind → List (List UInt8)) (chunk : StreamChunk) : Prop :=
  (chunk.stream = .stdout ∨ chunk.stream = .stderr) ∧
    chunk = chunkAt sha256 invocationId pieces chunk.stream chunk.seq

def bytesOn (stream : StreamKind) (chunks : List StreamChunk) : List UInt8 :=
  (ofStream chunks stream).flatMap decodeChunk

theorem bytesOn_append (chunks more : List StreamChunk) :
    bytesOn stream (chunks ++ more) = bytesOn stream chunks ++ bytesOn stream more := by
  simp [bytesOn, ofStream]

theorem decodeChunk_of_isEmpty (h : chunk.data.isEmpty) : decodeChunk chunk = [] := by
  rw [decodeChunk, String.isEmpty_iff.mp h]
  split <;> rfl

theorem render_genuine (h : Genuine sha256 invocationId pieces chunk) (r : Renderer) :
    (r.checkChunkIntegrity sha256 describeError config chunk).renderChunk chunk =
      { r with
        out := r.out ++ bytesOn .stdout [chunk]
        err := r.err ++ bytesOn .stderr [chunk] } := by
  have hIntact : r.checkChunkIntegrity sha256 describeError config chunk = r := by
    rw [Renderer.checkChunkIntegrity, h.2, chunkAt, chunkIntegrityError_buildChunk]
    split <;> rfl
  rw [hIntact, Renderer.renderChunk]
  split
  next hEmpty =>
    have hNone : ∀ stream, bytesOn stream [chunk] = [] := by
      intro stream
      rw [bytesOn, List.flatMap_eq_nil_iff]
      intro other hOther
      rw [List.mem_singleton.mp (List.mem_filter.mp hOther).1, decodeChunk_of_isEmpty hEmpty]
    simp [hNone]
  next =>
    rcases h.1 with hStream | hStream <;>
      simp [hStream, bytesOn, ofStream, Renderer.writeOut, Renderer.writeErr]

/-- Chunks are written in order, then what is missing is reported. -/
theorem release_genuine {ready : List StreamChunk}
    (h : ∀ chunk ∈ ready, Genuine sha256 invocationId pieces chunk)
    (detected : List MissingChunk) (r : Renderer) :
    r.release sha256 describeError config ready detected =
      detected.foldl (Renderer.surfaceMissing config.strict)
        { r with
          out := r.out ++ bytesOn .stdout ready
          err := r.err ++ bytesOn .stderr ready } := by
  unfold Renderer.release
  induction ready generalizing r with
  | nil => simp [bytesOn, ofStream]
  | cons chunk ready ih =>
    have hSplit : ∀ stream, bytesOn stream (chunk :: ready) =
        bytesOn stream [chunk] ++ bytesOn stream ready := fun stream => bytesOn_append [chunk] ready
    rw [List.foldl_cons, render_genuine (h chunk List.mem_cons_self), hSplit, hSplit]
    refine (ih (fun other hOther => h other (List.mem_cons_of_mem _ hOther)) _).trans ?_
    simp

/-! ## A list of chunks -/

def seqsOn (stream : StreamKind) (chunks : List StreamChunk) : List Nat :=
  (chunks.filter fun chunk => chunk.stream = stream).map StreamChunk.seq

theorem seqsOn_concat (stream : StreamKind) (chunks : List StreamChunk) (chunk : StreamChunk) :
    seqsOn stream (chunks ++ [chunk]) =
      seqsOn stream chunks ++ if chunk.stream = stream then [chunk.seq] else [] := by
  unfold seqsOn
  by_cases hStream : chunk.stream = stream <;> simp [hStream]

theorem foldl_surfaceMissing (strict : Bool) (detected : List MissingChunk) (r : Renderer) :
    (detected.foldl (Renderer.surfaceMissing strict) r).buf = r.buf ∧
      (strict → detected ≠ [] ∨ r.outcome.integrityFailure →
        (detected.foldl (Renderer.surfaceMissing strict) r).outcome.integrityFailure) := by
  induction detected generalizing r with
  | nil => exact ⟨rfl, by simp⟩
  | cons missing detected ih =>
    obtain ⟨hBuf, hFailed⟩ := ih (r.surfaceMissing strict missing)
    refine ⟨hBuf.trans ?_, fun hStrict _ => hFailed hStrict (.inr ?_)⟩
    · cases strict <;> rfl
    · rw [hStrict]
      rfl

variable (config) in
/-- A renderer goes along with its reorder buffer. While nothing is missing it has written what was
released and reported nothing; then a strict one has failed. -/
structure Follows (d : Delivery) (r : Renderer) : Prop where
  buf : r.buf = d.buf
  written : d.missing = [] → r.out = bytesOn .stdout d.released ∧
    r.err = bytesOn .stderr d.released ∧ r.outcome = (Renderer.start config).outcome
  failed : config.strict → d.missing ≠ [] → r.outcome.integrityFailure

theorem Follows.extend {d : Delivery} (h : Follows config d r)
    (result : List StreamChunk × List MissingChunk × ReorderBuffer)
    (hReady : ∀ chunk ∈ result.1, Genuine sha256 invocationId pieces chunk) :
    Follows config (d.extend result)
      (Renderer.release sha256 describeError config result.1 result.2.1
        { r with buf := result.2.2 }) := by
  obtain ⟨ready, detected, buf⟩ := result
  rw [release_genuine hReady]
  refine ⟨(foldl_surfaceMissing ..).1, fun hNone => ?_, fun hStrict hSome => ?_⟩
  · obtain ⟨hBefore, rfl⟩ := List.append_eq_nil_iff.mp hNone
    obtain ⟨hOut, hErr, hOutcome⟩ := h.written hBefore
    rw [Delivery.extend, bytesOn_append, bytesOn_append, ← hOut, ← hErr]
    exact ⟨rfl, rfl, hOutcome⟩
  · refine (foldl_surfaceMissing ..).2 hStrict ?_
    by_cases hDetected : detected = []
    · refine .inr (h.failed hStrict fun hBefore => hSome ?_)
      rw [Delivery.extend, hBefore, hDetected]
      rfl
    · exact .inl hDetected

variable (describeError) in
theorem follows_acceptAll (hGenuine : ∀ chunk ∈ chunks, Genuine sha256 invocationId pieces chunk) :
    Follows config (Delivery.acceptAll config.reorderWindow chunks)
      (chunks.foldl (fun r chunk => r.acceptChunk sha256 describeError config chunk)
        (Renderer.start config)) := by
  induction chunks using List.reverseRecOn with
  | nil => exact ⟨rfl, fun _ => ⟨rfl, rfl, rfl⟩, fun _ hSome => absurd rfl hSome⟩
  | append_singleton chunks chunk ih =>
    have hBefore := ih fun other hOther => hGenuine other (List.mem_append_left _ hOther)
    have hRun : Delivery.acceptAll config.reorderWindow (chunks ++ [chunk]) =
        (Delivery.acceptAll config.reorderWindow chunks).extend
          ((Delivery.acceptAll config.reorderWindow chunks).buf.accept chunk) := by
      simp [Delivery.acceptAll]
    have hReady : ∀ ready ∈ ((Delivery.acceptAll config.reorderWindow chunks).buf.accept chunk).1,
        Genuine sha256 invocationId pieces ready := by
      intro ready hMem
      have hReleased : ready ∈
          (Delivery.acceptAll config.reorderWindow (chunks ++ [chunk])).released := by
        rw [hRun]
        exact List.mem_append_right _ hMem
      exact hGenuine ready (mem_of_mem_acceptAll hReleased)
    rw [hRun, List.foldl_append, List.foldl_cons, List.foldl_nil, Renderer.acceptChunk, hBefore.buf]
    exact hBefore.extend _ hReady

theorem follows_run (hGenuine : ∀ chunk ∈ chunks, Genuine sha256 invocationId pieces chunk) :
    Follows config (Delivery.run order config.reorderWindow chunks)
      (Renderer.flushAll sha256 describeError order config
        (chunks.foldl (fun r chunk => r.acceptChunk sha256 describeError config chunk)
          (Renderer.start config))) := by
  have hBefore : Follows config (Delivery.acceptAll config.reorderWindow chunks) _ :=
    follows_acceptAll describeError hGenuine
  rw [Renderer.flushAll, hBefore.buf]
  refine hBefore.extend _ fun ready hMem => hGenuine ready ?_
  have hReleased : ready ∈ (Delivery.run order config.reorderWindow chunks).released :=
    List.mem_append_right _ hMem
  exact mem_of_mem_run hReleased

variable (config) in
def InWindow (chunks : List StreamChunk) : Prop :=
  ∀ stream, WithinWindow (max config.reorderWindow 1) (seqsOn stream chunks)

def Gapless (chunks : List StreamChunk) : Prop := ∀ stream, Contiguous (seqsOn stream chunks)

/-! ## All frames -/

def delivered : List StreamFrame → List StreamChunk
  | [] => []
  | .chunk chunk :: frames => chunk :: delivered frames
  | .artifact _ :: frames => delivered frames
  | .finished _ :: _ => []

def finishedBy : List StreamFrame → Option ExecFinished
  | [] => none
  | .chunk _ :: frames => finishedBy frames
  | .artifact _ :: frames => finishedBy frames
  | .finished finished :: _ => some finished

def concluded (finished : Option ExecFinished) (r : Renderer) : Renderer :=
  match finished with
  | none => r
  | some finished =>
    { r with outcome := { r.outcome with
      truncated := finished.truncated
      exitCode := some (resolveExitCode finished) } }

theorem renderFrames_eq (hPlain : ∀ artifact, StreamFrame.artifact artifact ∉ frames)
    (r : Renderer) :
    r.renderFrames sha256 describeError order config frames =
      concluded (finishedBy frames) (Renderer.flushAll sha256 describeError order config
        ((delivered frames).foldl
          (fun r chunk => r.acceptChunk sha256 describeError config chunk) r)) := by
  induction frames generalizing r with
  | nil => rfl
  | cons frame frames ih =>
    cases frame with
    | chunk chunk =>
      exact ih (fun artifact hMem => hPlain artifact (List.mem_cons_of_mem _ hMem)) _
    | artifact artifact => exact absurd List.mem_cons_self (hPlain artifact)
    | finished finished => rfl

theorem concluded_outcome (finished : Option ExecFinished) (r : Renderer) :
    (concluded finished r).out = r.out ∧ (concluded finished r).err = r.err ∧
      (concluded finished r).outcome.missing = r.outcome.missing ∧
      (concluded finished r).outcome.integrityFailure = r.outcome.integrityFailure := by
  cases finished <;> exact ⟨rfl, rfl, rfl, rfl⟩

/-- Rendering chunks that arrive as sent goes along with a run of the reorder buffer. -/
theorem renderStreamWith_follows (hPlain : ∀ artifact, StreamFrame.artifact artifact ∉ frames)
    (hGenuine : ∀ chunk ∈ delivered frames, Genuine sha256 invocationId pieces chunk) :
    ∃ r, renderStreamWith sha256 describeError order config frames =
        concluded (finishedBy frames) r ∧
      Follows config (Delivery.run order config.reorderWindow (delivered frames)) r :=
  ⟨_, renderFrames_eq hPlain _, follows_run hGenuine⟩

/-! ## Runs without a loss -/

theorem map_seq_ofStream (chunks : List StreamChunk) (stream : StreamKind) :
    (ofStream chunks stream).map StreamChunk.seq = seqsOn stream chunks := by
  simp [ofStream, seqsOn, beq_eq_decide]

theorem missing_eq_nil_iff {d : Delivery} : d.missing = [] ↔ ∀ stream, d.missingOn stream = [] := by
  constructor
  · intro hNone stream
    simp [Delivery.missingOn, hNone]
  · intro hNone
    rw [List.eq_nil_iff_forall_not_mem]
    intro lost hLost
    have hStream := hNone lost.stream
    rw [Delivery.missingOn, List.map_eq_nil_iff, List.filter_eq_nil_iff] at hStream
    exact hStream lost hLost (beq_self_eq_true _)

/-- Whether anything is lost is decided by the order of arrival. -/
theorem run_missing_eq_nil_iff :
    (Delivery.run order config.reorderWindow chunks).missing = [] ↔
      InWindow config chunks ∧ Gapless chunks := by
  rw [missing_eq_nil_iff, InWindow, Gapless, ← forall_and]
  refine forall_congr' fun stream => ?_
  rw [(run_on order config.reorderWindow chunks stream).2, ← map_seq_ofStream]
  exact (deliver_flush_lossless ..).1

/-! ## From the reads to the frames -/

theorem mem_numbered_iff {start : Nat} {parts : List (List UInt8)} :
    chunk ∈ numbered sha256 invocationId stream start parts ↔ ∃ index < parts.length,
      chunk =
        buildChunk sha256 invocationId stream (start + index) (parts.getD index []) false := by
  induction parts generalizing start with
  | nil => simp [numbered]
  | cons part parts ih =>
    rw [numbered, List.mem_cons, ih]
    constructor
    · rintro (rfl | ⟨index, hIndex, rfl⟩)
      · exact ⟨0, by simp, by simp⟩
      · refine ⟨index + 1, by simpa using hIndex, ?_⟩
        have hSeq : start + 1 + index = start + (index + 1) := by omega
        simp [hSeq]
    · rintro ⟨index, hIndex, rfl⟩
      cases index with
      | zero => exact .inl (by simp)
      | succ index =>
        have hSeq : start + 1 + index = start + (index + 1) := by omega
        exact .inr ⟨index, by simpa using hIndex, by simp [hSeq]⟩

/-- The chunks of a stream whose reader has returned, by their sequence numbers. -/
theorem mem_chunks_iff :
    chunk ∈ numbered sha256 invocationId stream 0 (pieces stream) ++
        [buildChunk sha256 invocationId stream (pieces stream).length [] true] ↔
      chunk.stream = stream ∧ chunk.seq ≤ (pieces stream).length ∧
        chunk = chunkAt sha256 invocationId pieces stream chunk.seq := by
  rw [List.mem_append, mem_numbered_iff, List.mem_singleton]
  constructor
  · rintro (⟨index, hIndex, rfl⟩ | rfl)
    · refine ⟨rfl, by simpa [buildChunk] using hIndex.le, ?_⟩
      simp [chunkAt, buildChunk, payload, hIndex]
    · refine ⟨rfl, le_refl _, ?_⟩
      simp [chunkAt, buildChunk, payload]
  · rintro ⟨-, hSeq, hChunk⟩
    rcases Nat.lt_or_eq_of_le hSeq with hLess | hLast
    · refine .inl ⟨chunk.seq, hLess, ?_⟩
      rw [Nat.zero_add]
      refine hChunk.trans ?_
      simp [chunkAt, payload, not_le.mpr hLess]
    · refine .inr (hChunk.trans ?_)
      rw [hLast]
      simp [chunkAt, payload]

/-- A finished capture has sent all that its readers got. -/
theorem exists_produced {reads : List ChildRead} {child : ChildCapture}
    (h : ChildCaptured sha256 invocationId reads child) (hOut : child.stdout.done)
    (hErr : child.stderr.done) :
    ∃ pieces, Produced sha256 invocationId pieces child.output.sink.sent ∧
      (pieces .stdout).flatten = bytesRead (eventsOn .stdout reads) ∧
      (pieces .stderr).flatten = bytesRead (eventsOn .stderr reads) := by
  obtain ⟨outPieces, hOutNonempty, -, hOutBytes, hOutSent⟩ := h.stdout.chunks
  obtain ⟨errPieces, hErrNonempty, -, hErrBytes, hErrSent⟩ := h.stderr.chunks
  rw [hOut, if_pos rfl] at hOutBytes hOutSent
  rw [hErr, if_pos rfl] at hErrBytes hErrSent
  let pieces : StreamKind → List (List UInt8) := fun stream =>
    match stream with
    | .stdout => outPieces
    | .stderr => errPieces
    | _ => []
  refine ⟨pieces, ⟨?_, fun chunk => ?_⟩, by simpa using hOutBytes, by simpa using hErrBytes⟩
  · intro stream
    cases stream with
    | stdout => exact hOutNonempty
    | stderr => exact hErrNonempty
    | _ => simp [pieces]
  · have hSent : ∀ stream, stream = .stdout ∨ stream = .stderr →
        child.output.sink.sent.filter (fun other => other.stream = stream) =
          numbered sha256 invocationId stream 0 (pieces stream) ++
            [buildChunk sha256 invocationId stream (pieces stream).length [] true] := by
      rintro stream (rfl | rfl)
      · exact hOutSent
      · exact hErrSent
    constructor
    · intro hMem
      have hOwn : chunk ∈ child.output.sink.sent.filter fun other => other.stream = chunk.stream :=
        List.mem_filter.mpr ⟨hMem, by simp⟩
      have hStream := h.streams chunk hMem
      rw [hSent chunk.stream hStream, mem_chunks_iff] at hOwn
      exact ⟨hStream, hOwn.2⟩
    · rintro ⟨hStream, hChunk⟩
      have hOwn := mem_chunks_iff.mpr ⟨rfl, hChunk⟩
      rw [← hSent chunk.stream hStream] at hOwn
      exact (List.mem_filter.mp hOwn).1

theorem flatten_payload (pieces : StreamKind → List (List UInt8)) (stream : StreamKind)
    (next : Nat) : ((List.range next).map (payload pieces stream)).flatten =
      ((pieces stream).take next).flatten := by
  unfold payload
  generalize pieces stream = parts
  induction parts generalizing next with
  | nil => simp
  | cons part parts ih =>
    cases next with
    | zero => simp
    | succ next =>
      rw [List.range_succ_eq_map, List.take_succ_cons, List.flatten_cons, ← ih next]
      simp [Function.comp_def]

/-- Pieces make up the whole exactly if there is no further one. -/
theorem flatten_take_eq_iff {pieces : List (List UInt8)} (hNonempty : ∀ piece ∈ pieces, piece ≠ [])
    {next : Nat} : (pieces.take next).flatten = pieces.flatten ↔ pieces.length ≤ next := by
  constructor
  · intro hAll
    have hSplit := congrArg List.flatten (List.take_append_drop next pieces)
    rw [List.flatten_append, hAll] at hSplit
    have hRest : (pieces.drop next).flatten = [] := List.append_right_eq_self.mp hSplit
    cases hDrop : pieces.drop next with
    | nil => exact List.drop_eq_nil_iff.mp hDrop
    | cons piece rest =>
      rw [hDrop, List.flatten_cons, List.append_eq_nil_iff] at hRest
      have hMem : piece ∈ pieces := List.mem_of_mem_drop (hDrop ▸ List.mem_cons_self)
      exact absurd hRest.1 (hNonempty piece hMem)
  · intro hLong
    rw [List.take_of_length_le hLong]

theorem mem_frames_of_mem_delivered (h : chunk ∈ delivered frames) : .chunk chunk ∈ frames := by
  induction frames with
  | nil => cases h
  | cons frame frames ih =>
    cases frame with
    | chunk first =>
      rcases List.mem_cons.mp h with rfl | hRest
      · exact List.mem_cons_self
      · exact List.mem_cons_of_mem _ (ih hRest)
    | artifact artifact => exact List.mem_cons_of_mem _ (ih h)
    | finished finished => cases h

theorem mem_seqsOn_iff (hGenuine : ∀ chunk ∈ chunks, Genuine sha256 invocationId pieces chunk)
    {seq : Nat} :
    seq ∈ seqsOn stream chunks ↔ chunkAt sha256 invocationId pieces stream seq ∈ chunks := by
  rw [seqsOn, List.mem_map]
  constructor
  · rintro ⟨chunk, hChunk, rfl⟩
    rw [List.mem_filter, decide_eq_true_eq] at hChunk
    obtain ⟨hMem, rfl⟩ := hChunk
    exact (hGenuine chunk hMem).2 ▸ hMem
  · intro hMem
    exact ⟨_, List.mem_filter.mpr ⟨hMem, by simp [chunkAt, buildChunk]⟩, rfl⟩

/-- Without a loss a stream is released up to the first missing piece. -/
theorem bytesOn_run (hGenuine : ∀ chunk ∈ chunks, Genuine sha256 invocationId pieces chunk)
    (hNone : (Delivery.run order config.reorderWindow chunks).missing = []) (stream : StreamKind) :
    ∃ next, bytesOn stream (Delivery.run order config.reorderWindow chunks).released =
        ((pieces stream).take next).flatten ∧
      ∀ seq, seq < next ↔ chunkAt sha256 invocationId pieces stream seq ∈ chunks := by
  obtain ⟨hReleased, hMissing⟩ := run_on order config.reorderWindow chunks stream
  rw [missing_eq_nil_iff.mp hNone] at hMissing
  obtain ⟨hRange, hCame⟩ := (deliver_flush_lossless ..).2 hMissing.symm
  refine ⟨_, ?_, fun seq => (hCame seq).trans ?_⟩
  · have hPayload : ∀ chunk ∈ (Delivery.run order config.reorderWindow chunks).releasedOn stream,
        decodeChunk chunk = payload pieces stream chunk.seq := by
      intro chunk hChunk
      obtain ⟨hMem, hStream⟩ := List.mem_filter.mp hChunk
      rw [(hGenuine chunk (mem_of_mem_run hMem)).2, chunkAt, decodeChunk_buildChunk,
        eq_of_beq hStream]
      rfl
    rw [hReleased] at hPayload
    rw [← flatten_payload, ← hRange, ← List.flatMap_def, List.flatMap_map]
    refine (congrArg (List.flatMap decodeChunk) hReleased).trans ?_
    exact List.flatMap_congr hPayload
  · rw [map_seq_ofStream, mem_seqsOn_iff hGenuine]

/-- Without a loss a stream is released in full if all pieces came. -/
theorem bytesOn_run_iff (hNonempty : ∀ piece ∈ pieces stream, piece ≠ [])
    (hGenuine : ∀ chunk ∈ chunks, Genuine sha256 invocationId pieces chunk)
    (hNone : (Delivery.run order config.reorderWindow chunks).missing = []) :
    bytesOn stream (Delivery.run order config.reorderWindow chunks).released =
        (pieces stream).flatten ↔
      ∀ seq < (pieces stream).length,
        chunkAt sha256 invocationId pieces stream seq ∈ chunks := by
  obtain ⟨next, hBytes, hNext⟩ := bytesOn_run hGenuine hNone stream
  rw [hBytes, flatten_take_eq_iff hNonempty]
  simp only [← hNext]
  constructor
  · intro hLength seq hSeq
    exact hSeq.trans_le hLength
  · intro hAll
    by_contra hShort
    exact absurd (hAll next (not_le.mp hShort)) (lt_irrefl _)

/-- Every frame is a chunk that was sent, or the finished event. -/
def DeliveredFrom (sent : List StreamChunk) (finished : ExecFinished)
    (frames : List StreamFrame) : Prop :=
  ∀ frame ∈ frames, (∃ chunk ∈ sent, frame = .chunk chunk) ∨ frame = .finished finished

/-- The finished event arrives, the chunks before it show no gap, and yet a piece at the end of a
stream is missing. -/
structure TailLost (config : RenderConfig) (sent : List StreamChunk)
    (frames : List StreamFrame) : Prop where
  finished : (finishedBy frames).isSome
  window : InWindow config (delivered frames)
  gapless : Gapless (delivered frames)
  missing : ∃ chunk ∈ sent, chunk.eof = false ∧ chunk ∉ delivered frames

/-- A rendering with an exit code and no integrity failure has written the child's two streams as
read. -/
def Faithful (reads : List ChildRead) (r : Renderer) : Prop :=
  r.outcome.exitCode.isSome → r.outcome.integrityFailure = false →
    r.out = bytesRead (eventsOn .stdout reads) ∧ r.err = bytesRead (eventsOn .stderr reads)

section Delivery

variable {sent : List StreamChunk} {finished : ExecFinished} {frames : List StreamFrame}

theorem Produced.genuine (h : Produced sha256 invocationId pieces sent)
    (hSent : chunk ∈ sent) : Genuine sha256 invocationId pieces chunk :=
  ⟨((h.mem_iff chunk).mp hSent).1, ((h.mem_iff chunk).mp hSent).2.2⟩

theorem DeliveredFrom.mem_sent (h : DeliveredFrom sent finished frames)
    (hChunk : chunk ∈ delivered frames) : chunk ∈ sent := by
  rcases h _ (mem_frames_of_mem_delivered hChunk) with ⟨other, hSent, hSame⟩ | hFinished
  · cases hSame
    exact hSent
  · cases hFinished

theorem DeliveredFrom.plain (h : DeliveredFrom sent finished frames)
    (artifact : StreamArtifact) : StreamFrame.artifact artifact ∉ frames := by
  intro hMem
  rcases h _ hMem with ⟨chunk, -, hSame⟩ | hFinished
  · cases hSame
  · cases hFinished

/-- Some of the chunks sent, in any number and order, and then the finished event. -/
theorem deliveredFrom_chunks {arrivals : List StreamChunk} (h : ∀ chunk ∈ arrivals, chunk ∈ sent)
    (finished : ExecFinished) :
    DeliveredFrom sent finished (arrivals.map .chunk ++ [.finished finished]) := by
  intro frame hFrame
  rcases List.mem_append.mp hFrame with hChunk | hLast
  · obtain ⟨chunk, hMem, rfl⟩ := List.mem_map.mp hChunk
    exact .inl ⟨chunk, h chunk hMem, rfl⟩
  · exact .inr (List.mem_singleton.mp hLast)

/-- All pieces have arrived: no chunk with data is missing. -/
theorem Produced.arrived_iff (h : Produced sha256 invocationId pieces sent)
    (chunks : List StreamChunk) :
    (∀ chunk ∈ sent, chunk.eof = false → chunk ∈ chunks) ↔
      ∀ stream, stream = .stdout ∨ stream = .stderr → ∀ seq < (pieces stream).length,
        chunkAt sha256 invocationId pieces stream seq ∈ chunks := by
  constructor
  · intro hAll stream hStream seq hSeq
    refine hAll _ ((h.mem_iff _).mpr ⟨hStream, hSeq.le, rfl⟩) ?_
    simpa [chunkAt, buildChunk] using hSeq
  · intro hAll chunk hSent hData
    obtain ⟨hStream, -, hChunk⟩ := (h.mem_iff chunk).mp hSent
    rw [hChunk] at hData ⊢
    refine hAll chunk.stream hStream chunk.seq ?_
    simpa [chunkAt, buildChunk] using hData

theorem concluded_exitCode (finished : Option ExecFinished) (r : Renderer) :
    (concluded finished r).outcome.exitCode =
      match finished with
      | none => r.outcome.exitCode
      | some finished => some (resolveExitCode finished) := by
  cases finished <;> rfl

/-- Without a loss both streams are in full if all pieces came. -/
theorem Follows.full_iff (h : Follows config (Delivery.run order config.reorderWindow chunks) r)
    (hNone : (Delivery.run order config.reorderWindow chunks).missing = [])
    (hProduced : Produced sha256 invocationId pieces sent)
    (hSent : ∀ chunk ∈ chunks, chunk ∈ sent) :
    (r.out = (pieces .stdout).flatten ∧ r.err = (pieces .stderr).flatten) ↔
      ∀ chunk ∈ sent, chunk.eof = false → chunk ∈ chunks := by
  have hGenuine : ∀ chunk ∈ chunks, Genuine sha256 invocationId pieces chunk :=
    fun chunk hChunk => hProduced.genuine (hSent chunk hChunk)
  obtain ⟨hOut, hErr, -⟩ := h.written hNone
  rw [hOut, hErr, bytesOn_run_iff (hProduced.nonempty .stdout) hGenuine hNone,
    bytesOn_run_iff (hProduced.nonempty .stderr) hGenuine hNone, hProduced.arrived_iff]
  constructor
  · rintro ⟨hOut, hErr⟩ stream (rfl | rfl)
    · exact hOut
    · exact hErr
  · intro hAll
    exact ⟨hAll .stdout (.inl rfl), hAll .stderr (.inr rfl)⟩

/-- Strict rendering is faithful unless a stream's end is lost. -/
theorem strict_faithful_iff {capture : StreamCaptureConfig} {reads : List ChildRead}
    (hStrict : config.strict)
    (hOut : (captureChildOutput sha256 capture invocationId none reads).stdout.done)
    (hErr : (captureChildOutput sha256 capture invocationId none reads).stderr.done)
    (hWhole : (captureChildOutput sha256 capture invocationId none
      reads).output.limiter.truncated = false)
    (hFrames : DeliveredFrom
      (captureChildOutput sha256 capture invocationId none reads).output.sink.sent finished
      frames) :
    Faithful reads (renderStreamWith sha256 describeError order config frames) ↔
      ¬ TailLost config
        (captureChildOutput sha256 capture invocationId none reads).output.sink.sent frames := by
  obtain ⟨pieces, hProduced, hOutBytes, hErrBytes⟩ :=
    exists_produced (captureChildOutput_captured reads hWhole) hOut hErr
  have hSent : ∀ chunk ∈ delivered frames, chunk ∈
      (captureChildOutput sha256 capture invocationId none reads).output.sink.sent :=
    fun chunk => hFrames.mem_sent
  obtain ⟨r, hRender, hFollows⟩ : ∃ r, renderStreamWith sha256 describeError order config frames =
      _ ∧ Follows config (Delivery.run order config.reorderWindow (delivered frames)) r :=
    renderStreamWith_follows hFrames.plain fun chunk hChunk =>
      hProduced.genuine (hSent chunk hChunk)
  have hOrder : (Delivery.run order config.reorderWindow (delivered frames)).missing = [] ↔
      InWindow config (delivered frames) ∧ Gapless (delivered frames) := run_missing_eq_nil_iff
  rw [hRender]
  obtain ⟨hSameOut, hSameErr, -, hFailure⟩ := concluded_outcome (finishedBy frames) r
  by_cases hNone : (Delivery.run order config.reorderWindow (delivered frames)).missing = []
  · have hFull := hFollows.full_iff hNone hProduced hSent
    rw [Faithful, concluded_exitCode, hSameOut, hSameErr, hFailure, (hFollows.written hNone).2.2,
      ← hOutBytes, ← hErrBytes, hFull]
    constructor
    · intro hFaithful hTail
      obtain ⟨last, hLast⟩ := Option.isSome_iff_exists.mp hTail.finished
      obtain ⟨chunk, hChunk, hData, hMissing⟩ := hTail.missing
      rw [hLast] at hFaithful
      exact hMissing (hFaithful rfl rfl chunk hChunk hData)
    · intro hTail hExit _ chunk hChunk hData
      by_contra hMissing
      refine hTail ⟨?_, (hOrder.mp hNone).1, (hOrder.mp hNone).2, chunk, hChunk, hData, hMissing⟩
      cases hLast : finishedBy frames with
      | none =>
        rw [hLast] at hExit
        cases hExit
      | some last => rfl
  · have hFailed := hFollows.failed hStrict hNone
    refine iff_of_true (fun _ hPassed => ?_) fun hTail =>
      hNone (hOrder.mpr ⟨hTail.window, hTail.gapless⟩)
    rw [hFailure, hFailed] at hPassed
    cases hPassed

end Delivery

section TwoPieces

def hiReads : List ChildRead :=
  [.stdout (.read [104]), .stdout .elapsed, .stderr (.read []), .stdout (.read [105]),
    .stdout (.read [])]

def batchConfig : StreamCaptureConfig := ⟨16384, false, none, by decide⟩

def hiCapture : ChildCapture := captureChildOutput id batchConfig "inv-1" none hiReads

def exited : ExecFinished := ⟨some 0, none, false⟩

def anyOrder : StreamOrder := ⟨[.stdin, .stdout, .stderr, .pty, .control], List.Perm.refl _⟩

def strictly (frames : List StreamFrame) : Renderer :=
  renderStreamWith id id anyOrder ⟨64, true⟩ frames

def hiFrames : List StreamFrame :=
  (hiCapture.output.sink.sent.reverse ++ hiCapture.output.sink.sent.take 1).map .chunk ++
    [.finished exited]

theorem strict_faithful_reversed :
    (strictly hiFrames).outcome.exitCode = some 0 ∧ (strictly hiFrames).out = [104, 105] ∧
      (strictly hiFrames).err = [] := by
  have hArrived : ∀ chunk ∈ hiCapture.output.sink.sent, chunk.eof = false →
      chunk ∈ delivered hiFrames := by
    decide +kernel
  have hFrames : DeliveredFrom hiCapture.output.sink.sent exited hiFrames := by
    refine deliveredFrom_chunks ?_ exited
    decide +kernel
  have hFaithful : Faithful hiReads (strictly hiFrames) :=
    (strict_faithful_iff rfl (by decide +kernel) (by decide +kernel) (by decide +kernel)
      hFrames).mpr fun hTail => by
        obtain ⟨chunk, hSent, hData, hMissing⟩ := hTail.missing
        exact hMissing (hArrived chunk hSent hData)
  have hExit : (strictly hiFrames).outcome.exitCode = some 0 := by decide +kernel
  exact ⟨hExit, hFaithful (by rw [hExit]; rfl) (by decide +kernel)⟩

/-- The last piece and the EOF marker are dropped. The rendering ends with zero and reports
nothing. -/
theorem tail_lost_unnoticed :
    ¬ ∀ (sha256 : List UInt8 → List UInt8) (invocationId : String)
        (describeError : String → String) (order : StreamOrder) (config : RenderConfig)
        (capture : StreamCaptureConfig) (reads : List ChildRead) (finished : ExecFinished)
        (frames : List StreamFrame),
        Function.Injective sha256 → config.strict →
        (captureChildOutput sha256 capture invocationId none reads).stdout.done →
        (captureChildOutput sha256 capture invocationId none reads).stderr.done →
        (captureChildOutput sha256 capture invocationId none
          reads).output.limiter.truncated = false →
        DeliveredFrom (captureChildOutput sha256 capture invocationId none
          reads).output.sink.sent finished frames →
        Faithful reads (renderStreamWith sha256 describeError order config frames) := by
  intro hClaim
  have hFrames : DeliveredFrom hiCapture.output.sink.sent exited
      ((hiCapture.output.sink.sent.take 2).map .chunk ++ [.finished exited]) :=
    deliveredFrom_chunks (fun _ => List.mem_of_mem_take) exited
  have hFaithful := hClaim id "inv-1" id anyOrder ⟨64, true⟩ batchConfig hiReads exited _
    Function.injective_id rfl (by decide +kernel) (by decide +kernel) (by decide +kernel) hFrames
  have hOut := (hFaithful (by decide +kernel) (by decide +kernel)).1
  revert hOut
  decide +kernel

end TwoPieces

section Overtaking

variable {sent : List StreamChunk}

def overtakers (chunks : List StreamChunk) (chunk : StreamChunk) : Nat :=
  (chunks.toFinset.filter fun other =>
    other.stream = chunk.stream ∧ chunk.seq < other.seq).card

theorem beyond_seqsOn_le (chunks : List StreamChunk) (chunk : StreamChunk) :
    beyond (seqsOn chunk.stream chunks) chunk.seq ≤ overtakers chunks chunk := by
  refine le_trans (Finset.card_le_card ?_) (Finset.card_image_le (f := StreamChunk.seq))
  intro seq hSeq
  rw [Finset.mem_filter, List.mem_toFinset, seqsOn, List.mem_map] at hSeq
  obtain ⟨⟨other, hOther, rfl⟩, hLater⟩ := hSeq
  rw [List.mem_filter, decide_eq_true_eq] at hOther
  exact Finset.mem_image.mpr ⟨other, Finset.mem_filter.mpr
    ⟨List.mem_toFinset.mpr hOther.1, hOther.2, hLater⟩, rfl⟩

theorem exists_arrival {arrived : List Nat} {seq : Nat}
    (h : arrived ++ [seq] <+: seqsOn stream chunks) :
    ∃ before chunk, before ++ [chunk] <+: chunks ∧ chunk.stream = stream ∧ chunk.seq = seq ∧
      seqsOn stream before = arrived := by
  induction chunks using List.reverseRecOn with
  | nil => simp [seqsOn] at h
  | append_singleton chunks last ih =>
    have hEarlier : arrived ++ [seq] <+: seqsOn stream chunks → ∃ before chunk,
        before ++ [chunk] <+: chunks ++ [last] ∧ chunk.stream = stream ∧ chunk.seq = seq ∧
          seqsOn stream before = arrived := by
      intro hBefore
      obtain ⟨before, chunk, hPrefix, hRest⟩ := ih hBefore
      exact ⟨before, chunk, hPrefix.trans (List.prefix_append ..), hRest⟩
    rw [seqsOn_concat] at h
    by_cases hStream : last.stream = stream
    · rw [if_pos hStream] at h
      rcases List.prefix_concat_iff.mp h with hLast | hBefore
      · obtain ⟨hArrived, hSeq⟩ := List.append_inj' hLast rfl
        exact ⟨chunks, last, List.prefix_refl _, hStream, (List.singleton_inj.mp hSeq).symm,
          hArrived.symm⟩
      · exact hEarlier hBefore
    · rw [if_neg hStream, List.append_nil] at h
      exact hEarlier h

/-- Once every chunk has arrived no stream has a gap. -/
theorem Produced.gapless (h : Produced sha256 invocationId pieces sent)
    (hSame : ∀ chunk, chunk ∈ chunks ↔ chunk ∈ sent) :
    Gapless chunks := by
  have hGenuine : ∀ chunk ∈ chunks, Genuine sha256 invocationId pieces chunk :=
    fun chunk hChunk => h.genuine ((hSame chunk).mp hChunk)
  intro stream seq hSeq earlier hEarlier
  rw [mem_seqsOn_iff hGenuine, hSame, h.mem_iff] at hSeq ⊢
  exact ⟨hSeq.1, hEarlier.le.trans hSeq.2.1, rfl⟩

theorem inWindow_of_overtakers (hGapless : Gapless chunks)
    (h : ∀ before chunk, before ++ [chunk] <+: chunks → chunk ∉ before →
      overtakers before chunk ≤ config.reorderWindow) : InWindow config chunks := by
  intro stream
  refine withinWindow_of_first_arrivals (hGapless stream) ?_
  intro arrived seq hPrefix hFirst
  obtain ⟨before, chunk, hBefore, rfl, rfl, rfl⟩ := exists_arrival hPrefix
  have hNew : chunk ∉ before := by
    intro hMem
    exact hFirst (List.mem_map_of_mem (List.mem_filter.mpr ⟨hMem, by simp⟩))
  exact (beyond_seqsOn_le before chunk).trans ((h before chunk hBefore hNew).trans (le_max_left ..))

theorem delivered_arrivals (arrivals : List StreamChunk) (finished : ExecFinished) :
    delivered (arrivals.map .chunk ++ [.finished finished]) = arrivals ∧
      finishedBy (arrivals.map .chunk ++ [.finished finished]) = some finished := by
  induction arrivals with
  | nil => exact ⟨rfl, rfl⟩
  | cons chunk arrivals ih => exact ⟨congrArg (List.cons chunk) ih.1, ih.2⟩

/-- From the child to the terminal. However the two streams are split and flushed: if every chunk
arrives, in any order and number, and none is overtaken by more chunks than the window holds, both
streams are written as read, nothing is reported, and the exit code is that of the finished
event. -/
theorem delivered_in_full {capture : StreamCaptureConfig} {reads : List ChildRead}
    (hCap : capture.maxOutputBytes = none)
    (hOut : (eventsOn .stdout reads).any ReadEvent.ends)
    (hErr : (eventsOn .stderr reads).any ReadEvent.ends) {arrivals : List StreamChunk}
    (hArrivals : ∀ chunk, chunk ∈ arrivals ↔ chunk ∈
      (captureChildOutput sha256 capture invocationId none reads).output.sink.sent)
    (hWindow : ∀ before chunk, before ++ [chunk] <+: arrivals → chunk ∉ before →
      overtakers before chunk ≤ config.reorderWindow) (finished : ExecFinished) :
    let r := renderStreamWith sha256 describeError order config
      (arrivals.map .chunk ++ [.finished finished])
    r.out = bytesRead (eventsOn .stdout reads) ∧ r.err = bytesRead (eventsOn .stderr reads) ∧
      r.outcome.missing = [] ∧ r.outcome.integrityFailure = false ∧
      r.outcome.exitCode = some (resolveExitCode finished) := by
  have hWhole : (captureChildOutput sha256 capture invocationId none
      reads).output.limiter.truncated = false := captureChildOutput_uncapped hCap reads
  have hCaptured := captureChildOutput_captured reads hWhole
  obtain ⟨pieces, hProduced, hOutBytes, hErrBytes⟩ := exists_produced hCaptured
    (hCaptured.stdout.done.trans hOut) (hCaptured.stderr.done.trans hErr)
  obtain ⟨hDelivered, hFinished⟩ := delivered_arrivals arrivals finished
  have hGapless : Gapless arrivals := hProduced.gapless hArrivals
  have hSent : ∀ chunk ∈ arrivals, chunk ∈
      (captureChildOutput sha256 capture invocationId none reads).output.sink.sent :=
    fun chunk => (hArrivals chunk).mp
  have hFrames := deliveredFrom_chunks hSent finished
  obtain ⟨r, hRender, hFollows⟩ : ∃ r, renderStreamWith sha256 describeError order config _ =
      _ ∧ Follows config (Delivery.run order config.reorderWindow _) r :=
    renderStreamWith_follows hFrames.plain fun chunk hChunk =>
      hProduced.genuine (hFrames.mem_sent hChunk)
  rw [hDelivered] at hFollows
  rw [hFinished] at hRender
  have hNone : (Delivery.run order config.reorderWindow arrivals).missing = [] :=
    run_missing_eq_nil_iff.mpr ⟨inWindow_of_overtakers hGapless hWindow, hGapless⟩
  obtain ⟨hAllOut, hAllErr⟩ := (hFollows.full_iff hNone hProduced hSent).mpr
    fun chunk hChunk _ => (hArrivals chunk).mpr hChunk
  obtain ⟨hSameOut, hSameErr, hMissing, hFailure⟩ := concluded_outcome (some finished) r
  intro rendered
  have hRendering : rendered = concluded (some finished) r := hRender
  rw [hRendering, concluded_exitCode, hSameOut, hSameErr, hMissing, hFailure,
    (hFollows.written hNone).2.2, ← hOutBytes, ← hErrBytes]
  exact ⟨hAllOut, hAllErr, rfl, rfl, rfl⟩

/-- The second piece overtakes the first one, which then arrives twice. -/
def hiArrivals : List StreamChunk :=
  let sent := hiCapture.output.sink.sent
  (sent.drop 2).take 1 ++ sent.take 2 ++ sent.take 1 ++ sent.drop 3

theorem delivered_in_full_overtaken :
    (renderStreamWith id id anyOrder ⟨1, false⟩
      (hiArrivals.map .chunk ++ [.finished exited])).out = [104, 105] := by
  have hArrivals : (∀ chunk ∈ hiArrivals, chunk ∈ hiCapture.output.sink.sent) ∧
      ∀ chunk ∈ hiCapture.output.sink.sent, chunk ∈ hiArrivals := by
    decide +kernel
  have hInits : ∀ upTo ∈ hiArrivals.inits, ∀ chunk ∈ upTo.getLast?, chunk ∉ upTo.dropLast →
      overtakers upTo.dropLast chunk ≤ 1 := by
    decide +kernel
  have hWindow : ∀ before chunk, before ++ [chunk] <+: hiArrivals → chunk ∉ before →
      overtakers before chunk ≤ 1 := by
    intro before chunk hPrefix
    simpa using hInits (before ++ [chunk]) ((List.mem_inits ..).mpr hPrefix) chunk (by simp)
  exact (delivered_in_full rfl (by decide) (by decide)
    (fun chunk => ⟨hArrivals.1 chunk, hArrivals.2 chunk⟩) hWindow exited).1

end Overtaking

end MxAgent.System.StreamDelivery
