import MxAgent.Daemon.CaptureBudget

/-! What `capture_child_output` leaves behind. Every schedule that gives each reader enough
steps comes to an end, and at the end of every schedule the chunks, the byte count and the
truncation flag are compared with the two streams. -/
namespace MxAgent.System.CaptureReport

open Protocol Daemon Daemon.Interleaved

variable {r : Reader} {done : List ReadEvent}

section Termination

/-- How many steps an emission may take to come back to its loop. -/
def siteWork : Site → Nat
  | .ended | .failed => 2
  | .elapsed | .line => 4
  | .full => 8

def phaseWork : Phase → Nat
  | .returned => 0
  | .closing => 1
  | .reading => 3
  | .lines => 5
  | .cutting => 6
  | .sending _ _ site => siteWork site

def inputWork : List ReadEvent → Nat
  | [] => 0
  | event :: input => 4 + 3 * event.bytes.length + inputWork input

/-- A bound on the steps a reader can take. Each step takes one off. -/
def work (r : Reader) : Nat := phaseWork r.phase + 3 * r.buf.length + inputWork r.input

variable {sha256 : List UInt8 → List UInt8} {config : StreamCaptureConfig} {invocationId : String}
  {out err : List ReadEvent} {child : Child}

theorem phaseWork_next (site : Site) (outcome : Emit) :
    phaseWork (site.next outcome) < siteWork site := by
  cases site <;> cases outcome <;> decide

theorem work_emit (site : Site) (data : List UInt8) (r : Reader) (s : CaptureOutput) :
    work (r.emit site data s).1 ≤ siteWork site + 3 * r.buf.length + inputWork r.input := by
  unfold Reader.emit
  dsimp only
  split
  · exact le_rfl
  · have hNext (outcome : Emit) : phaseWork (site.next outcome) ≤ siteWork site :=
      (phaseWork_next site outcome).le
    simp only [work]
    gcongr
    exact hNext _

theorem work_flush {site : Site} {next : Phase} (hSite : siteWork site ≤ 4)
    (hNext : phaseWork next ≤ 3) {event : ReadEvent} {input : List ReadEvent}
    (hInput : r.input = event :: input) (hPhase : r.phase = .reading) (s : CaptureOutput) :
    work (if r.buf.isEmpty then ({ r with input, phase := next }, s)
      else Reader.emit site r.buf { r with input, buf := [] } s).1 < work r := by
  have hWork : work r = 3 + 3 * r.buf.length + (4 + 3 * event.bytes.length + inputWork input) := by
    rw [work, hPhase, hInput]
    rfl
  rw [hWork]
  split
  · simp only [work]
    omega
  · have hEmit := work_emit site r.buf { r with input, buf := [] } s
    simp only [List.length_nil] at hEmit
    omega

theorem work_step_reading (s : CaptureOutput) (hPhase : r.phase = .reading)
    (hInput : r.input ≠ []) : work (r.step sha256 config invocationId s).1 < work r := by
  unfold Reader.step
  rw [hPhase]
  dsimp only
  split
  · rename_i hNone
    exact absurd hNone hInput
  · rename_i input hEvents
    have hFlush : work (if r.buf.isEmpty then ({ r with input, phase := .reading }, s)
        else Reader.emit .elapsed r.buf { r with input, buf := [] } s).1 < work r :=
      work_flush (by decide) (by decide) hEvents hPhase s
    rwa [hPhase] at hFlush
  · rename_i hEvents
    exact work_flush (by decide) (by decide) hEvents hPhase s
  · rename_i hEvents
    rw [work, work, hPhase, hEvents]
    simp only [phaseWork, inputWork, ReadEvent.bytes, List.length_append]
    omega
  · rename_i hEvents
    exact work_flush (by decide) (by decide) hEvents hPhase s

/-- A reader goes on unless its read never comes back, or it has returned. -/
theorem work_step (s : CaptureOutput) (hRunning : r.phase ≠ .returned)
    (hInput : r.phase = .reading → r.input ≠ []) :
    work (r.step sha256 config invocationId s).1 < work r := by
  by_cases hReading : r.phase = .reading
  · exact work_step_reading s hReading (hInput hReading)
  have hMax := config.maxChunkBytes_pos
  unfold Reader.step
  split
  · rename_i hPhase
    exact absurd hPhase hReading
  · rename_i hPhase
    have hWork : work r = 6 + 3 * r.buf.length + inputWork r.input := by rw [work, hPhase]; rfl
    split
    · rw [hWork]
      simp only [work, phaseWork]
      omega
    · rename_i hFull
      have hEmit := work_emit .full (r.buf.take config.maxChunkBytes)
        { r with buf := r.buf.drop config.maxChunkBytes } s
      simp only [List.length_drop, siteWork] at hEmit
      omega
  · rename_i hPhase
    have hWork : work r = 5 + 3 * r.buf.length + inputWork r.input := by rw [work, hPhase]; rfl
    split
    · rw [hWork]
      simp only [work, phaseWork]
      omega
    · have hEmit := work_emit .line (r.buf.take (completeLines r.buf))
        { r with buf := r.buf.drop (completeLines r.buf) } s
      simp only [List.length_drop, siteWork] at hEmit
      omega
  · rename_i data exhausted site hPhase
    have hNext (outcome : Emit) := phaseWork_next site outcome
    simp only [work, Reader.send, hPhase, phaseWork]
    gcongr
    exact hNext _
  · rename_i hPhase
    simp only [work, Reader.send, hPhase, phaseWork]
    omega
  · rename_i hPhase
    exact absurd hPhase hRunning

theorem advance {stream : StreamKind} {events : List ReadEvent} {pieces : List (List UInt8)}
    {cut : Bool} {s : CaptureOutput} (hEnds : events.any ReadEvent.ends)
    (h : Account sha256 config invocationId stream events done pieces cut r s.sink.sent)
    {steps bound : Nat} (hWork : r.phase = .returned ∨ work r + steps ≤ bound) :
    (r.step sha256 config invocationId s).1.phase = .returned ∨
      work (r.step sha256 config invocationId s).1 + (steps + 1) ≤ bound := by
  by_cases hPhase : r.phase = .returned
  · left
    simp only [Reader.step, hPhase]
  · right
    have hStep : work (r.step sha256 config invocationId s).1 < work r := by
      refine work_step s hPhase fun hReading hNone => ?_
      -- All events have been read, and among them the end of the stream.
      obtain ⟨-, -, hOngoing, -⟩ := h.looping hReading id
      have hAll := h.input
      rw [hNone, List.append_nil] at hAll
      rw [hAll, hEnds] at hOngoing
      cases hOngoing
    have := hWork.resolve_left hPhase
    omega

/-- Each reader has returned, or has taken its steps off its bound. -/
structure Advanced (out err : List ReadEvent) (schedule : List Side) (child : Child) : Prop where
  stdout : child.stdout.phase = .returned ∨
    work child.stdout + schedule.count .stdout ≤ 3 + inputWork out
  stderr : child.stderr.phase = .returned ∨
    work child.stderr + schedule.count .stderr ≤ 3 + inputWork err

theorem advanced_capture (hOut : out.any ReadEvent.ends)
    (hErr : err.any ReadEvent.ends) (schedule : List Side) :
    Advanced out err schedule (capture sha256 config invocationId none out err schedule) := by
  induction schedule using List.reverseRecOn with
  | nil => exact ⟨.inr (by simp [capture, Child.run, Child.start, work, phaseWork]),
      .inr (by simp [capture, Child.run, Child.start, work, phaseWork])⟩
  | append_singleton schedule side ih =>
    have hBooks : Books sha256 config invocationId out err
        (capture sha256 config invocationId none out err schedule) :=
      books_capture out err schedule
    obtain ⟨outRead, errRead, outPieces, errPieces, outCut, errCut, hOutBook, hErrBook, -⟩ :=
      hBooks
    rw [capture_concat]
    cases side with
    | stdout =>
      refine ⟨?_, ?_⟩
      · rw [List.count_append]
        exact advance hOut hOutBook ih.stdout
      · rw [List.count_append]
        exact ih.stderr
    | stderr =>
      refine ⟨?_, ?_⟩
      · rw [List.count_append]
        exact ih.stdout
      · rw [List.count_append]
        exact advance hErr hErrBook ih.stderr

end Termination

section Report

variable (sha256 : List UInt8 → List UInt8) (config : StreamCaptureConfig) (invocationId : String)

def Returned (child : Child) : Prop :=
  child.stdout.phase = .returned ∧ child.stderr.phase = .returned

def bytesTaken (events : List ReadEvent) (r : Reader) : List UInt8 :=
  bytesRead (events.take (events.length - r.input.length))

/-- The chunks of one stream: numbered from zero without gaps, with one empty EOF marker at the end;
the others nonempty and of at most the configured size; together the first bytes read. -/
structure StreamSent (stream : StreamKind) (events : List ReadEvent) (r : Reader)
    (sent : List StreamChunk) (pieces : List (List UInt8)) : Prop where
  chunks : sent.filter (fun chunk => chunk.stream = stream) =
    numbered sha256 invocationId stream 0 pieces ++
      [buildChunk sha256 invocationId stream pieces.length [] true]
  sizes : ∀ piece ∈ pieces, piece ≠ [] ∧ piece.length ≤ config.maxChunkBytes
  taken : pieces.flatten <+: bytesTaken events r
  front : pieces.flatten <+: bytesRead events

/-- What is expected of a finished capture: both streams' chunks, the byte count and the flag. -/
structure Expected (out err : List ReadEvent) (child : Child)
    (outPieces errPieces : List (List UInt8)) : Prop where
  stdout : StreamSent sha256 config invocationId .stdout out child.stdout child.output.sink.sent
    outPieces
  stderr : StreamSent sha256 config invocationId .stderr err child.stderr child.output.sink.sent
    errPieces
  outputBytes : outPieces.flatten.length + errPieces.flatten.length = child.output.limiter.emitted
  capped : ∀ max ∈ config.maxOutputBytes,
    outPieces.flatten.length + errPieces.flatten.length ≤ max
  truncated : child.output.limiter.truncated ↔
    outPieces.flatten ≠ bytesTaken out child.stdout ∨
      errPieces.flatten ≠ bytesTaken err child.stderr
  uncapped : config.maxOutputBytes = none →
    outPieces.flatten = bytesRead out ∧ errPieces.flatten = bytesRead err

def Counted (out err : List ReadEvent) : Prop :=
  config.maxOutputBytes ≠ none ∨ bytesRead out = [] ∧ bytesRead err = []

variable {sha256 config invocationId} {out err : List ReadEvent} {child : Child}

theorem bytesRead_prefix (done input : List ReadEvent) :
    bytesRead done <+: bytesRead (done ++ input) := by
  induction done with
  | nil => exact List.nil_prefix
  | cons event done ih =>
    rw [List.cons_append, bytesRead, bytesRead]
    split
    · exact List.prefix_rfl
    · rwa [List.prefix_append_right_inj]

theorem account_returned {stream : StreamKind} {events : List ReadEvent}
    {pieces : List (List UInt8)} {cut : Bool} {sent : List StreamChunk}
    (h : Account sha256 config invocationId stream events done pieces cut r sent)
    (hReturned : r.phase = .returned) :
    StreamSent sha256 config invocationId stream events r sent pieces ∧
      (cut ↔ pieces.flatten ≠ bytesTaken events r) ∧
      (cut = false → pieces.flatten = bytesRead events) := by
  have hTaken : bytesTaken events r = bytesRead done := by
    rw [bytesTaken, ← h.input, List.length_append, Nat.add_sub_cancel, List.take_left]
  have hFront : bytesRead done <+: bytesRead events := by
    rw [← h.input]
    exact bytesRead_prefix done r.input
  have hChunks := h.chunks
  rw [if_pos hReturned] at hChunks
  have hFlight : r.phase.inFlight = [] := by rw [hReturned]; rfl
  cases cut with
  | false =>
    obtain ⟨hBytes, hFits⟩ := h.whole rfl
    rw [Reader.Fits, hReturned] at hFits
    rw [hFlight, hFits.2, List.append_nil, List.append_nil] at hBytes
    have hWhole : pieces.flatten = bytesRead events := by
      rw [hBytes, ← h.input, bytesRead_append_of_ends hFits.1]
    refine ⟨⟨hChunks, h.sizes, ?_, ?_⟩, ?_, fun _ => hWhole⟩
    · rw [hTaken, hBytes]
    · rw [hWhole]
    · rw [hTaken, hBytes]
      simp
  | true =>
    obtain ⟨-, hPrefix, hLess⟩ := h.short rfl
    rw [hFlight, List.append_nil] at hPrefix hLess
    refine ⟨⟨hChunks, h.sizes, ?_, hPrefix.trans hFront⟩, ?_, fun hWhole => by cases hWhole⟩
    · rw [hTaken]
      exact hPrefix
    · rw [hTaken]
      exact iff_of_true rfl fun hEq => absurd hLess (by rw [hEq]; exact lt_irrefl _)

/-- The chunks and the flag are as expected, and the byte count if kept. -/
theorem expected_of_books (h : Books sha256 config invocationId out err child)
    (hReturned : Returned child) (hCounted : Counted config out err) :
    ∃ outPieces errPieces,
      Expected sha256 config invocationId out err child outPieces errPieces := by
  obtain ⟨outRead, errRead, outPieces, errPieces, outCut, errCut, hOut, hErr, -, hBudget, -⟩ := h
  obtain ⟨hOutSent, hOutCut, hOutWhole⟩ := account_returned hOut hReturned.1
  obtain ⟨hErrSent, hErrCut, hErrWhole⟩ := account_returned hErr hReturned.2
  rw [hReturned.1, hReturned.2] at hBudget
  simp only [Phase.inFlight, List.append_nil] at hBudget
  have hUncapped : config.maxOutputBytes = none →
      outPieces.flatten = bytesRead out ∧ errPieces.flatten = bytesRead err := by
    intro hNone
    have hCut := hBudget.uncapped hNone
    rw [Bool.or_eq_false_iff] at hCut
    exact ⟨hOutWhole hCut.1, hErrWhole hCut.2⟩
  refine ⟨outPieces, errPieces, hOutSent, hErrSent, ?_, hBudget.bounded, ?_, hUncapped⟩
  · rw [hBudget.emitted]
    cases hCap : config.maxOutputBytes with
    | some max => rfl
    | none =>
      obtain ⟨hOutBytes, hErrBytes⟩ := hCounted.resolve_left (not_not.mpr hCap)
      obtain ⟨hOutEq, hErrEq⟩ := hUncapped hCap
      rw [hOutEq, hErrEq, hOutBytes, hErrBytes]
      rfl
  · rw [hBudget.truncated, Bool.or_eq_true, hOutCut, hErrCut]

/-- Without a cap no bytes are reported, which is right for none. -/
theorem counted_of_expected (h : Books sha256 config invocationId out err child)
    {outPieces errPieces : List (List UInt8)}
    (hExpected : Expected sha256 config invocationId out err child outPieces errPieces) :
    Counted config out err := by
  cases hCap : config.maxOutputBytes with
  | some max => exact .inl (by simp [hCap])
  | none =>
    obtain ⟨outRead, errRead, sentOut, sentErr, outCut, errCut, -, -, -, hBudget, -⟩ := h
    have hEmitted := hBudget.emitted
    rw [hCap, ← hExpected.outputBytes] at hEmitted
    obtain ⟨hOut, hErr⟩ := hExpected.uncapped hCap
    rw [hOut, hErr] at hEmitted
    have hNone : (bytesRead out).length = 0 ∧ (bytesRead err).length = 0 := by
      simpa using hEmitted
    exact .inr ⟨List.length_eq_zero_iff.mp hNone.1, List.length_eq_zero_iff.mp hNone.2⟩

/-- Output capture, for streams that end in whatever way, every split into reads and every schedule,
with the sink open. A schedule with enough steps of each reader returns; then everything is as
expected exactly if a byte cap is configured or both streams are empty: without a cap no bytes are
counted. -/
theorem capture_expected_iff (out err : List ReadEvent) (hOut : out.any ReadEvent.ends)
    (hErr : err.any ReadEvent.ends) :
    (∀ schedule : List Side, 3 + inputWork out < schedule.count .stdout →
      3 + inputWork err < schedule.count .stderr →
        Returned (capture sha256 config invocationId none out err schedule)) ∧
    ∀ schedule, Returned (capture sha256 config invocationId none out err schedule) →
      ((∃ outPieces errPieces, Expected sha256 config invocationId out err
          (capture sha256 config invocationId none out err schedule) outPieces errPieces) ↔
        Counted config out err) := by
  refine ⟨fun schedule hStdout hStderr => ?_, fun schedule hReturned => ⟨?_, ?_⟩⟩
  · have hAdvanced : Advanced out err schedule
        (capture sha256 config invocationId none out err schedule) :=
      advanced_capture hOut hErr schedule
    exact ⟨hAdvanced.stdout.resolve_right (by omega), hAdvanced.stderr.resolve_right (by omega)⟩
  · rintro ⟨outPieces, errPieces, hExpected⟩
    exact counted_of_expected (books_capture out err schedule) hExpected
  · exact expected_of_books (books_capture out err schedule) hReturned

def hiOut : List ReadEvent := [.read [104, 105], .read []]

def noErr : List ReadEvent := [.read []]

def smallChunks (cap : Option Nat) : StreamCaptureConfig := ⟨4, false, cap, by decide⟩

def hiSchedule : List Side := .replicate 18 .stdout ++ .replicate 18 .stderr

instance (child : Child) : Decidable (Returned child) := inferInstanceAs (Decidable (_ ∧ _))

theorem hi_expected :
    Returned (capture id (smallChunks (some 100)) "inv-1" none hiOut noErr hiSchedule) ∧
      ∃ outPieces errPieces, Expected id (smallChunks (some 100)) "inv-1" hiOut noErr
        (capture id (smallChunks (some 100)) "inv-1" none hiOut noErr hiSchedule)
        outPieces errPieces :=
  have hCapture := capture_expected_iff hiOut noErr (by decide) (by decide)
  have hReturned := hCapture.1 hiSchedule (by decide) (by decide)
  ⟨hReturned, (hCapture.2 hiSchedule hReturned).mpr (.inl (by decide))⟩

/-- Without a cap the two bytes are sent and none is counted. -/
theorem hi_not_counted :
    Returned (capture id (smallChunks none) "inv-1" none hiOut noErr hiSchedule) ∧
      (capture id (smallChunks none) "inv-1" none hiOut noErr hiSchedule).output =
        ⟨⟨[buildChunk id "inv-1" .stdout 0 [104, 105] false,
          buildChunk id "inv-1" .stdout 1 [] true, buildChunk id "inv-1" .stderr 0 [] true], none⟩,
          ⟨none, 0, false⟩⟩ ∧
      ¬ ∃ outPieces errPieces, Expected id (smallChunks none) "inv-1" hiOut noErr
        (capture id (smallChunks none) "inv-1" none hiOut noErr hiSchedule)
        outPieces errPieces := by
  refine ⟨by decide +kernel, by decide +kernel, ?_⟩
  rintro ⟨outPieces, errPieces, hExpected⟩
  have hCounted := counted_of_expected (books_capture hiOut noErr hiSchedule) hExpected
  exact hCounted.elim (fun hCap => hCap rfl) fun hNone => absurd hNone.1 (by decide)

end Report

end MxAgent.System.CaptureReport
