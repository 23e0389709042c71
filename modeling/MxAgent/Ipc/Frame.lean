import Mathlib.Tactic.Ring
import MxAgent.Foundations.ByteSource

/-! Length-delimited framing of the daemon's local socket: a frame is the length of its payload
as four bytes, most significant first, and then the payload. -/

namespace MxAgent.Ipc

inductive ErrorKind
  | invalidData
  | unexpectedEof
  deriving DecidableEq, Repr

structure FrameError where
  kind : ErrorKind
  message : String
  deriving DecidableEq, Repr

def maxFrameLen : Nat := 16 * 1024 * 1024

def invalidData (message : String) : FrameError :=
  { kind := .invalidData, message }

def toBeBytes (n : Nat) : List UInt8 :=
  [UInt8.ofNat (n / 2 ^ 24), UInt8.ofNat (n / 2 ^ 16), UInt8.ofNat (n / 2 ^ 8), UInt8.ofNat n]

def fromBeBytes (bytes : List UInt8) : Nat :=
  bytes.foldl (fun value byte => value * 256 + byte.toNat) 0

/-- `write_frame`: the length in four bytes, then the payload. -/
def writeFrame (payload : List UInt8) : Except FrameError (List UInt8) :=
  if maxFrameLen < payload.length then
    .error (invalidData "frame exceeds maximum length")
  else if 2 ^ 32 ≤ payload.length then
    .error (invalidData "frame too large")
  else
    .ok (toBeBytes payload.length ++ payload)

/-- The frames of some payloads in a row. -/
def writeFrames (payloads : List (List UInt8)) : Except FrameError (List UInt8) := do
  let frames ← payloads.mapM writeFrame
  return frames.flatten

section Reading

variable {σ : Type} (source : ByteSource σ)

/-- `Read::read_exact`: fills the buffer or fails, with what came consumed. -/
def readExact (len : Nat) (s : σ) : Option (List UInt8) × σ :=
  let (got, next) := source.fill len s
  (if got.length < len then none else some got, next)

/-- Read a length-delimited frame. `ok none` is a clean end. -/
def readFrame (s : σ) : Except FrameError (Option (List UInt8)) × σ :=
  let (lenBuf, afterLength) := source.fill 4 s
  match lenBuf.length with
  | 0 => (.ok none, afterLength)
  | 4 =>
    let len := fromBeBytes lenBuf
    if maxFrameLen < len then
      (.error (invalidData "frame exceeds maximum length"), afterLength)
    else
      match readExact source len afterLength with
      | (none, next) =>
        (.error { kind := .unexpectedEof, message := "truncated frame body" }, next)
      | (some payload, next) => (.ok (some payload), next)
  | _ =>
    (.error { kind := .unexpectedEof, message := "truncated frame length prefix" }, afterLength)

/-- The answers of so many calls of `read_frame`, one after the other. -/
def readFrames : Nat → σ → List (Except FrameError (Option (List UInt8)))
  | 0, _ => []
  | calls + 1, s => (readFrame source s).1 :: readFrames calls (readFrame source s).2

end Reading

@[simp]
theorem length_toBeBytes (n : Nat) : (toBeBytes n).length = 4 := rfl

theorem fromBeBytes_toBeBytes {n : Nat} (hn : n < 2 ^ 32) : fromBeBytes (toBeBytes n) = n := by
  simp only [fromBeBytes, toBeBytes, List.foldl_cons, List.foldl_nil, UInt8.toNat_ofNat']
  omega

def frame (payload : List UInt8) : List UInt8 :=
  toBeBytes payload.length ++ payload

theorem length_frame (payload : List UInt8) : (frame payload).length = 4 + payload.length := by
  simp [frame]

variable {payload : List UInt8}

theorem writeFrame_of_le (hLength : payload.length ≤ maxFrameLen) :
    writeFrame payload = .ok (frame payload) := by
  have hSmall : ¬ 2 ^ 32 ≤ payload.length := by
    unfold maxFrameLen at hLength
    omega
  rw [writeFrame, if_neg (Nat.not_lt.mpr hLength), if_neg hSmall, frame]

theorem writeFrames_of_le {payloads : List (List UInt8)}
    (hLength : ∀ payload ∈ payloads, payload.length ≤ maxFrameLen) :
    writeFrames payloads = .ok (payloads.flatMap frame) := by
  have hFrames : payloads.mapM writeFrame = .ok (payloads.map frame) := by
    induction payloads with
    | nil => rfl
    | cons payload payloads ih =>
      rw [List.mapM_cons, writeFrame_of_le (hLength payload List.mem_cons_self),
        ih fun other hOther => hLength other (List.mem_cons_of_mem _ hOther)]
      rfl
  rw [writeFrames, hFrames, List.flatMap_def]
  rfl

section Answers

variable {σ : Type} (source : ByteSource σ)

theorem readFrame_ended {s : σ} (hPending : source.pending s = []) :
    (readFrame source s).1 = .ok none := by
  have hFill := source.fill_fst 4 s
  rw [hPending] at hFill
  rcases hRead : source.fill 4 s with ⟨lenBuf, next⟩
  simp only [hRead, List.take_nil] at hFill
  simp [readFrame, hRead, hFill]

/-- Once the length prefix is there, the length decides the answer. -/
theorem readFrame_length {s : σ} {n : Nat} {rest : List UInt8} (hn : n < 2 ^ 32)
    (hMax : n ≤ maxFrameLen) (hPending : source.pending s = toBeBytes n ++ rest) :
    (readFrame source s).1 =
        (if rest.length < n then
          .error { kind := .unexpectedEof, message := "truncated frame body" }
        else .ok (some (rest.take n))) ∧
      source.pending (readFrame source s).2 = rest.drop n := by
  have hFill := source.fill_fst 4 s
  have hAfter := source.pending_fill 4 s
  rcases hRead : source.fill 4 s with ⟨lenBuf, afterLength⟩
  rw [hPending, hRead] at hFill hAfter
  obtain rfl : lenBuf = toBeBytes n := hFill
  replace hAfter : source.pending afterLength = rest := hAfter
  have hBody := source.fill_fst n afterLength
  have hLeft := source.pending_fill n afterLength
  rcases hReadBody : source.fill n afterLength with ⟨payload, next⟩
  rw [hAfter, hReadBody] at hBody hLeft
  obtain rfl : payload = rest.take n := hBody
  simp only [readFrame, hRead, length_toBeBytes, fromBeBytes_toBeBytes hn,
    Nat.not_lt.mpr hMax, if_false, readExact, hReadBody, List.length_take]
  by_cases hShort : rest.length < n
  · rw [if_pos (by omega), if_pos hShort]
    exact ⟨rfl, hLeft⟩
  · rw [if_neg (by omega), if_neg hShort]
    exact ⟨rfl, hLeft⟩

/-- A frame that is there in full is read back. -/
theorem readFrame_frame {s : σ} {rest : List UInt8} (hLength : payload.length ≤ maxFrameLen)
    (hPending : source.pending s = frame payload ++ rest) :
    (readFrame source s).1 = .ok (some payload) ∧
      source.pending (readFrame source s).2 = rest := by
  have hSmall : payload.length < 2 ^ 32 := by
    unfold maxFrameLen at hLength
    omega
  rw [frame, List.append_assoc] at hPending
  obtain ⟨hAnswer, hLeft⟩ := readFrame_length source hSmall hLength hPending
  rw [hAnswer, hLeft]
  simp

/-- A frame cut anywhere but before its first byte is an error. -/
theorem readFrame_truncated {s : σ} (hLength : payload.length ≤ maxFrameLen)
    (hPart : source.pending s <+: frame payload) (hSome : source.pending s ≠ [])
    (hCut : source.pending s ≠ frame payload) :
    (readFrame source s).1 =
      .error
        { kind := .unexpectedEof
          message :=
            if (source.pending s).length < 4 then "truncated frame length prefix"
            else "truncated frame body" } := by
  by_cases hShort : (source.pending s).length < 4
  · have hFill := source.fill_fst 4 s
    rcases hRead : source.fill 4 s with ⟨lenBuf, next⟩
    rw [hRead, List.take_of_length_le (by omega)] at hFill
    obtain rfl : lenBuf = source.pending s := hFill
    have hPositive : 0 < (source.pending s).length := List.length_pos_iff.mpr hSome
    have hCases : (source.pending s).length = 1 ∨ (source.pending s).length = 2 ∨
        (source.pending s).length = 3 := by omega
    rcases hCases with hOne | hTwo | hThree
    · simp [readFrame, hRead, hOne]
    · simp [readFrame, hRead, hTwo]
    · simp [readFrame, hRead, hThree]
  · obtain ⟨cut, hWhole⟩ := hPart
    have hSmall : payload.length < 2 ^ 32 := by
      unfold maxFrameLen at hLength
      omega
    -- the prefix is there in full, so what is missing is missing from the body
    obtain ⟨body, hBody⟩ : ∃ body, source.pending s = toBeBytes payload.length ++ body := by
      have hPrefix : toBeBytes payload.length <+: source.pending s :=
        List.prefix_of_prefix_length_le (List.prefix_append _ payload) ⟨cut, hWhole⟩
          (by simp; omega)
      exact hPrefix.imp fun body hBody => hBody.symm
    have hMissing : body.length < payload.length := by
      rw [hBody, frame, List.append_assoc] at hWhole
      have hJoin : body ++ cut = payload := List.append_cancel_left hWhole
      have hNonempty : cut ≠ [] := by
        intro hNone
        rw [hNone, List.append_nil] at hJoin
        rw [hBody, hJoin] at hCut
        exact hCut rfl
      have hPositive : 0 < cut.length := List.length_pos_iff.mpr hNonempty
      rw [← hJoin, List.length_append]
      omega
    rw [(readFrame_length source hSmall hLength hBody).1, if_pos hMissing, if_neg hShort]

end Answers

end MxAgent.Ipc
