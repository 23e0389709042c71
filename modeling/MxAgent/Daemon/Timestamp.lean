import Mathlib.Data.Int.Basic

/-! Timestamps as the daemon reads and writes them: the RFC 3339 parser of the
replay cache and the formatter of the approval queue. Both work on Unix seconds.
The parser indexes bytes, so the model reads the UTF-8 bytes of the text. -/
namespace MxAgent.Daemon

def utf8 (s : String) : List UInt8 := s.toUTF8.data.toList

def isAsciiDigit (b : UInt8) : Bool := 48 ≤ b && b ≤ 57

/-- The decimal value of a nonempty run of ASCII digits. -/
def parseDigits (digits : List UInt8) : Option Nat :=
  if digits.isEmpty || !digits.all isAsciiDigit then none
  else some (digits.foldl (fun value b => 10 * value + (b.toNat - 48)) 0)

/-- `str::parse::<u32>` on a short slice. A leading `+` is accepted. -/
def parseUnsigned : List UInt8 → Option Nat
  | 43 :: digits => parseDigits digits
  | digits => parseDigits digits

/-- `str::parse::<i64>` on a short slice. Either sign is accepted. -/
def parseSigned : List UInt8 → Option Int
  | 45 :: digits => (parseDigits digits).map fun value => -(value : Int)
  | digits => (parseUnsigned digits).map fun value => (value : Int)

/-- `s.get(start..stop)` on bytes. A slice that would cut a character holds a byte that is no digit,
so the parsers reject it as the source does. -/
def slice (bytes : List UInt8) (start stop : Nat) : Option (List UInt8) :=
  if stop ≤ bytes.length then some ((bytes.drop start).take (stop - start)) else none

def daysFromCivil (year : Int) (month day : Nat) : Int :=
  let y := if month ≤ 2 then year - 1 else year
  let era := (if 0 ≤ y then y else y - 399).tdiv 400
  let yoe := y - era * 400
  let m : Int := month
  let doy := (153 * (if 2 < month then m - 3 else m + 9) + 2) / 5 + day - 1
  let doe := yoe * 365 + yoe / 4 - yoe / 100 + doy
  era * 146097 + doe - 719468

/-- The optional fraction after the seconds. A dot needs at least one digit. -/
def dropFraction : List UInt8 → Option (List UInt8)
  | 46 :: afterDot =>
    let digits := afterDot.takeWhile isAsciiDigit
    if digits.isEmpty then none else some (afterDot.drop digits.length)
  | rest => some rest

/-- The zone designator: `Z`, or a signed offset with an optional colon. What follows is not looked
at. -/
def parseOffset (rest : List UInt8) : Option Int :=
  match rest.head? with
  | some 90 | some 122 => some 0
  | some sign =>
    if sign = 43 ∨ sign = 45 then do
      let offHour ← parseSigned (← slice rest 1 3)
      let mmStart := if rest[3]? = some 58 then 4 else 3
      let offMin ← parseSigned (← slice rest mmStart (mmStart + 2))
      let sign : Int := if sign = 45 then -1 else 1
      pure (sign * (offHour * 3600 + offMin * 60))
    else none
  | none => none

def parseRfc3339ToUnix (s : String) : Option Int := do
  let bytes := utf8 s
  if bytes.length < 20 then none
  let year ← parseSigned (← slice bytes 0 4)
  if bytes[4]? ≠ some 45 then none
  let month ← parseUnsigned (← slice bytes 5 7)
  if bytes[7]? ≠ some 45 then none
  let day ← parseUnsigned (← slice bytes 8 10)
  if bytes[10]? ≠ some 84 ∧ bytes[10]? ≠ some 116 then none
  let hour ← parseUnsigned (← slice bytes 11 13)
  if bytes[13]? ≠ some 58 then none
  let minute ← parseUnsigned (← slice bytes 14 16)
  if bytes[16]? ≠ some 58 then none
  let second ← parseUnsigned (← slice bytes 17 19)
  let rest ← dropFraction (bytes.drop 19)
  let offsetSecs ← parseOffset rest
  if ¬ (1 ≤ month ∧ month ≤ 12) ∨ ¬ (1 ≤ day ∧ day ≤ 31) ∨ 23 < hour ∨ 59 < minute ∨ 60 < second
  then none
  pure (daysFromCivil year month day * 86400 + hour * 3600 + minute * 60 + second - offsetSecs)

/-- A decimal number padded with zeros on the left to a minimal width. -/
def zeroPadded (width value : Nat) : String :=
  let digits := toString value
  String.ofList (List.replicate (width - digits.length) '0') ++ digits

/-- `unix_to_rfc3339`, with the civil date recovered from the day number. -/
def unixToRfc3339 (secs : Nat) : String :=
  let days : Int := (secs / 86400 : Nat)
  let tod := secs % 86400
  let z := days + 719468
  let era := (if 0 ≤ z then z else z - 146096).tdiv 146097
  let doe := z - era * 146097
  let yoe := (doe - doe / 1460 + doe / 36524 - doe / 146096) / 365
  let y := yoe + era * 400
  let doy := doe - (365 * yoe + yoe / 4 - yoe / 100)
  let mp := (5 * doy + 2) / 153
  let day := doy - (153 * mp + 2) / 5 + 1
  let month := if mp < 10 then mp + 3 else mp - 9
  let year := if month ≤ 2 then y + 1 else y
  zeroPadded 4 year.toNat ++ "-" ++ zeroPadded 2 month.toNat ++ "-" ++ zeroPadded 2 day.toNat ++ "T"
    ++ zeroPadded 2 (tod / 3600) ++ ":" ++ zeroPadded 2 (tod % 3600 / 60) ++ ":"
    ++ zeroPadded 2 (tod % 60) ++ "Z"

example : parseRfc3339ToUnix "2026-06-02T14:05:00+02:00" =
    parseRfc3339ToUnix "2026-06-02T12:05:00Z" := by
  decide

end MxAgent.Daemon
