import Mathlib.Data.List.Induction
import MxAgent.Daemon.CivilDate
import MxAgent.Foundations.Decimal

/-! What the parser of timestamps accepts. Well-formed timestamps are given by their calendar
fields; the texts that the parser accepts are given by what stands where it looks. Every
well-formed text is accepted and read as the instant it denotes. The parser also accepts signs in
the fields, days that do not exist, offsets out of range and anything after the zone. -/
namespace MxAgent.Daemon

open Gregorian

/-! ## Numbers of a fixed width -/

def asciiByte (c : Char) : UInt8 := UInt8.ofNat c.toNat

theorem isDigit_iff_toNat {c : Char} : c.isDigit ↔ 48 ≤ c.toNat ∧ c.toNat ≤ 57 := by
  rw [Char.isDigit, Bool.and_eq_true, decide_eq_true_iff, decide_eq_true_iff]
  exact Iff.rfl

theorem toNat_asciiByte {c : Char} (h : c.toNat ≤ 127) : (asciiByte c).toNat = c.toNat := by
  rw [asciiByte, UInt8.toNat_ofNat']
  exact Nat.mod_eq_of_lt (by omega)

theorem isAsciiDigit_asciiByte {c : Char} (h : c.isDigit) : isAsciiDigit (asciiByte c) := by
  obtain ⟨hLow, hHigh⟩ := isDigit_iff_toNat.mp h
  have hByte := toNat_asciiByte (show c.toNat ≤ 127 by omega)
  simp only [isAsciiDigit, Bool.and_eq_true, decide_eq_true_iff, UInt8.le_iff_toNat_le, hByte]
  exact ⟨hLow, hHigh⟩

theorem parseDigits_asciiByte {digits : List Char} (hNonempty : digits ≠ [])
    (h : ∀ c ∈ digits, c.isDigit) :
    parseDigits (digits.map asciiByte) = some (Nat.ofDigitChars 10 digits 0) := by
  have hAll : (digits.map asciiByte).all isAsciiDigit := by
    rw [List.all_map, List.all_eq_true]
    exact fun c hMem => isAsciiDigit_asciiByte (h c hMem)
  have hValue : ∀ (rest : List Char) (value : Nat), (∀ c ∈ rest, c.isDigit) →
      (rest.map asciiByte).foldl (fun value b => 10 * value + (b.toNat - 48)) value =
        Nat.ofDigitChars 10 rest value := by
    intro rest
    induction rest with
    | nil => exact fun _ _ => rfl
    | cons c rest ih =>
      intro value hRest
      obtain ⟨hHead, hTail⟩ := List.forall_mem_cons.mp hRest
      have hSmall : c.toNat ≤ 127 := by
        have hDigit := isDigit_iff_toNat.mp hHead
        omega
      have hByte := toNat_asciiByte hSmall
      rw [List.map_cons, List.foldl_cons, ih _ hTail, hByte, Nat.ofDigitChars_cons]
      rfl
  rw [parseDigits, hAll, hValue digits 0 h]
  simp [hNonempty]

theorem parseUnsigned_of_digit {bytes : List UInt8}
    (h : ∀ b ∈ bytes.head?, isAsciiDigit b) : parseUnsigned bytes = parseDigits bytes := by
  unfold parseUnsigned
  split
  · exact absurd (h 43 rfl) (by decide)
  · rfl

theorem parseSigned_of_digit {bytes : List UInt8}
    (h : ∀ b ∈ bytes.head?, isAsciiDigit b) :
    parseSigned bytes = (parseDigits bytes).map fun value => (value : Int) := by
  unfold parseSigned
  split
  · exact absurd (h 45 rfl) (by decide)
  · rw [parseUnsigned_of_digit h]

def fieldBytes (width value : Nat) : List UInt8 := (Decimal.fixed width value).map asciiByte

section Field

variable {width value : Nat} (hWidth : 0 < width) (h : value < 10 ^ width)

theorem fieldBytes_head : ∀ b ∈ (fieldBytes width value).head?, isAsciiDigit b := by
  intro b hMem
  obtain ⟨c, hDigit, rfl⟩ := List.mem_map.mp (List.mem_of_mem_head? hMem)
  exact isAsciiDigit_asciiByte (Decimal.isDigit_of_mem_fixed c hDigit)

include hWidth h

theorem parseDigits_fieldBytes : parseDigits (fieldBytes width value) = some value := by
  have hNonempty : Decimal.fixed width value ≠ [] := by
    rw [← List.length_pos_iff, Decimal.length_fixed]
    exact hWidth
  rw [fieldBytes, parseDigits_asciiByte hNonempty Decimal.isDigit_of_mem_fixed,
    Decimal.ofDigitChars_fixed h]

theorem parseUnsigned_fieldBytes : parseUnsigned (fieldBytes width value) = some value := by
  rw [parseUnsigned_of_digit fieldBytes_head, parseDigits_fieldBytes hWidth h]

theorem parseSigned_fieldBytes : parseSigned (fieldBytes width value) = some (value : Int) := by
  rw [parseSigned_of_digit fieldBytes_head, parseDigits_fieldBytes hWidth h]
  rfl

end Field

/-! ## Well-formed timestamps -/

/-- A zone designator, whose offset is in range. -/
inductive Zone where
  | utc (lower : Bool)
  | offset (west colon : Bool) (hour minute : Nat) (hour_lt : hour < 24) (minute_lt : minute < 60)

/-- A timestamp with an existing date. A second of 60 is a leap second. -/
structure Timestamp where
  date : Date
  year_lt : date.year < 10000
  lower : Bool
  hour : Nat
  minute : Nat
  second : Nat
  hour_lt : hour < 24
  minute_lt : minute < 60
  second_le : second ≤ 60
  fraction : Option (List UInt8)
  fraction_digits : ∀ digits ∈ fraction, digits ≠ [] ∧ digits.all isAsciiDigit
  zone : Zone

def colonBytes (colon : Bool) : List UInt8 := if colon then [58] else []

def fractionBytes : Option (List UInt8) → List UInt8
  | none => []
  | some digits => 46 :: digits

def Zone.bytes : Zone → List UInt8
  | .utc lower => [if lower then 122 else 90]
  | .offset west colon hour minute _ _ =>
    (if west then 45 else 43) :: (fieldBytes 2 hour ++ (colonBytes colon ++ fieldBytes 2 minute))

/-- The seconds east of UTC. -/
def Zone.seconds : Zone → Int
  | .utc _ => 0
  | .offset west _ hour minute _ _ => (if west then -1 else 1) * (hour * 3600 + minute * 60)

namespace Timestamp

def bytes (t : Timestamp) : List UInt8 :=
  fieldBytes 4 t.date.year ++ 45 :: (fieldBytes 2 t.date.month ++ 45 ::
    (fieldBytes 2 t.date.day ++ (if t.lower then 116 else 84) :: (fieldBytes 2 t.hour ++ 58 ::
      (fieldBytes 2 t.minute ++ 58 :: (fieldBytes 2 t.second ++
        (fractionBytes t.fraction ++ t.zone.bytes))))))

/-- The instant in Unix seconds, without the fraction. A leap second is the first of the next
minute. -/
def instant (t : Timestamp) : Int :=
  ((t.date.dayNumber : Int) - epochDay) * 86400 + t.hour * 3600 + t.minute * 60 + t.second -
    t.zone.seconds

end Timestamp

/-! ## What the parser looks at -/

/-- The zone as a text, in whatever digits. -/
inductive ZoneText where
  | utc (letter : UInt8)
  | offset (sign : UInt8) (hour : List UInt8) (colon : Bool) (minute : List UInt8)

/-- The texts of the fields, the fraction, the zone and what follows. -/
structure Layout where
  year : List UInt8
  month : List UInt8
  day : List UInt8
  separator : UInt8
  hour : List UInt8
  minute : List UInt8
  second : List UInt8
  fraction : Option (List UInt8)
  zone : ZoneText
  after : List UInt8

/-- The numbers that the parser reads. -/
structure Fields where
  year : Int
  month : Nat
  day : Nat
  hour : Nat
  minute : Nat
  second : Nat
  offset : Int

/-- The instant that the parser computes from its numbers. -/
def Fields.instant (fields : Fields) : Int :=
  daysFromCivil fields.year fields.month fields.day * 86400 + fields.hour * 3600 +
    fields.minute * 60 + fields.second - fields.offset

namespace ZoneText

def bytes : ZoneText → List UInt8
  | .utc letter => [letter]
  | .offset sign hour colon minute => sign :: (hour ++ (colonBytes colon ++ minute))

def numbers : ZoneText → List (List UInt8)
  | .utc _ => []
  | .offset _ hour _ minute => [hour, minute]

/-- The zone is one that the parser reads, with this offset. -/
def Reads (offset : Int) : ZoneText → Prop
  | .utc letter => (letter = 90 ∨ letter = 122) ∧ offset = 0
  | .offset sign hour _ minute => (sign = 43 ∨ sign = 45) ∧ hour.length = 2 ∧ minute.length = 2 ∧
      ∃ offHour offMin, parseSigned hour = some offHour ∧ parseSigned minute = some offMin ∧
        offset = (if sign = 45 then -1 else 1) * (offHour * 3600 + offMin * 60)

/-- The offset is less than a day, and its minutes less than an hour. -/
def InRange : ZoneText → Prop
  | .utc _ => True
  | .offset _ hour _ minute => ∀ offHour offMin, parseSigned hour = some offHour →
      parseSigned minute = some offMin → offHour ≤ 23 ∧ offMin ≤ 59

end ZoneText

/-- The text has a sign in front. -/
def isSigned (text : List UInt8) : Bool := text.head? == some 43 || text.head? == some 45

namespace Layout

def tail (layout : Layout) : List UInt8 :=
  fractionBytes layout.fraction ++ (layout.zone.bytes ++ layout.after)

def bytes (layout : Layout) : List UInt8 :=
  layout.year ++ 45 :: (layout.month ++ 45 :: (layout.day ++ layout.separator ::
    (layout.hour ++ 58 :: (layout.minute ++ 58 :: (layout.second ++ layout.tail)))))

/-- The tests of the parser, for texts that stand at their places. -/
structure Reads (layout : Layout) (fields : Fields) : Prop where
  year : layout.year.length = 4 ∧ parseSigned layout.year = some fields.year
  month : layout.month.length = 2 ∧ parseUnsigned layout.month = some fields.month
  day : layout.day.length = 2 ∧ parseUnsigned layout.day = some fields.day
  separator : layout.separator = 84 ∨ layout.separator = 116
  hour : layout.hour.length = 2 ∧ parseUnsigned layout.hour = some fields.hour
  minute : layout.minute.length = 2 ∧ parseUnsigned layout.minute = some fields.minute
  second : layout.second.length = 2 ∧ parseUnsigned layout.second = some fields.second
  fraction : ∀ digits ∈ layout.fraction, digits ≠ [] ∧ digits.all isAsciiDigit
  zone : layout.zone.Reads fields.offset
  month_range : 1 ≤ fields.month ∧ fields.month ≤ 12
  day_range : 1 ≤ fields.day ∧ fields.day ≤ 31
  time_range : fields.hour ≤ 23 ∧ fields.minute ≤ 59 ∧ fields.second ≤ 60

/-- None of what the parser lets pass: a sign in a number, a day that its month lacks, an offset out
of range, and anything after the zone. -/
structure Flawless (layout : Layout) : Prop where
  unsigned : ∀ text ∈ [layout.year, layout.month, layout.day, layout.hour, layout.minute,
    layout.second] ++ layout.zone.numbers, isSigned text = false
  day_exists : ∀ year month day, parseSigned layout.year = some year →
    parseUnsigned layout.month = some month → parseUnsigned layout.day = some day →
      day ≤ monthLength year.toNat month
  zone : layout.zone.InRange
  after : layout.after = []

end Layout

/-! ## The tail of the text -/

variable {rest : List UInt8}

theorem takeWhile_digits {digits : List UInt8} (hDigits : digits.all isAsciiDigit)
    (hRest : ∀ b ∈ rest.head?, isAsciiDigit b = false) :
    (digits ++ rest).takeWhile isAsciiDigit = digits := by
  rw [List.takeWhile_append_of_pos (List.all_eq_true.mp hDigits)]
  cases rest with
  | nil => simp
  | cons b rest => rw [List.takeWhile_cons_of_neg (by simp [hRest b rfl]), List.append_nil]

variable {zone : ZoneText} {offset : Int}

theorem ZoneText.Reads.head (h : zone.Reads offset)
    (after : List UInt8) : ∃ b rest, zone.bytes ++ after = b :: rest ∧ b ≠ 46 ∧
      isAsciiDigit b = false := by
  cases zone with
  | utc letter =>
    obtain ⟨rfl | rfl, -⟩ := h
    · exact ⟨_, _, rfl, by decide, by decide⟩
    · exact ⟨_, _, rfl, by decide, by decide⟩
  | offset sign hour colon minute =>
    obtain ⟨rfl | rfl, -⟩ := h
    · exact ⟨_, _, rfl, by decide, by decide⟩
    · exact ⟨_, _, rfl, by decide, by decide⟩

theorem dropFraction_zone {fraction : Option (List UInt8)}
    (hFraction : ∀ digits ∈ fraction, digits ≠ [] ∧ digits.all isAsciiDigit)
    (hZone : zone.Reads offset) (after : List UInt8) :
    dropFraction (fractionBytes fraction ++ (zone.bytes ++ after)) =
      some (zone.bytes ++ after) := by
  obtain ⟨b, rest, hHead, hDot, hDigit⟩ := hZone.head after
  rw [hHead]
  cases fraction with
  | none =>
    rw [fractionBytes, List.nil_append, dropFraction]
    intro afterDot hSame
    exact hDot (List.cons.inj hSame).1
  | some digits =>
    obtain ⟨hNonempty, hDigits⟩ := hFraction digits rfl
    have hTaken : (digits ++ b :: rest).takeWhile isAsciiDigit = digits :=
      takeWhile_digits hDigits (by simpa using hDigit)
    simp [fractionBytes, dropFraction, hTaken, hNonempty]

/-- What the parser skips after the seconds is a fraction. -/
theorem exists_fraction {tail : List UInt8} (h : dropFraction tail = some rest) :
    ∃ fraction, (∀ digits ∈ fraction, digits ≠ [] ∧ digits.all isAsciiDigit) ∧
      tail = fractionBytes fraction ++ rest := by
  unfold dropFraction at h
  split at h
  · rename_i afterDot
    dsimp only at h
    split at h
    · cases h
    · rename_i hNonempty
      cases h
      refine ⟨some (afterDot.takeWhile isAsciiDigit), ?_, ?_⟩
      · rintro digits ⟨rfl⟩
        exact ⟨by simpa using hNonempty, List.all_takeWhile⟩
      · exact congrArg (46 :: ·)
          (List.prefix_iff_eq_append.mp (List.takeWhile_prefix isAsciiDigit)).symm
  · cases h
    exact ⟨none, fun _ hNone => (nomatch hNone), rfl⟩

theorem ne_colon_of_parseSigned {b : UInt8} {value : Int}
    (h : parseSigned (b :: rest) = some value) : b ≠ 58 := by
  rintro rfl
  simp [parseSigned, parseUnsigned, parseDigits, isAsciiDigit] at h

/-- The parser reads the offset off a zone designator. -/
theorem parseOffset_zone (h : zone.Reads offset)
    (after : List UInt8) : parseOffset (zone.bytes ++ after) = some offset := by
  cases zone with
  | utc letter =>
    obtain ⟨rfl | rfl, rfl⟩ := h <;> rfl
  | offset sign hour colon minute =>
    obtain ⟨hSign, hHour, hMinute, offHour, offMin, hOffHour, hOffMin, rfl⟩ := h
    obtain ⟨h₁, h₂, rfl⟩ := List.length_eq_two.mp hHour
    obtain ⟨m₁, m₂, rfl⟩ := List.length_eq_two.mp hMinute
    have hColon := ne_colon_of_parseSigned hOffMin
    rcases hSign with rfl | rfl <;> cases colon <;>
      simp [ZoneText.bytes, parseOffset, slice, hColon, hOffHour, hOffMin, colonBytes]

theorem slice_eq_some {bytes text : List UInt8} {start stop : Nat} (hOrder : start ≤ stop)
    (h : slice bytes start stop = some text) :
    bytes.drop start = text ++ bytes.drop stop ∧ text.length = stop - start := by
  unfold slice at h
  split at h
  · rename_i hStop
    cases h
    constructor
    · have hRest : bytes.drop stop = (bytes.drop start).drop (stop - start) := by
        rw [List.drop_drop, Nat.add_sub_cancel' hOrder]
      rw [hRest, List.take_append_drop]
    · rw [List.length_take, List.length_drop]
      omega
  · cases h

theorem drop_of_getElem? {bytes : List UInt8} {place : Nat} {b : UInt8}
    (h : bytes[place]? = some b) : bytes.drop place = b :: bytes.drop (place + 1) := by
  obtain ⟨hPlace, rfl⟩ := List.getElem?_eq_some_iff.mp h
  exact List.drop_eq_getElem_cons hPlace

/-- What the parser takes for an offset is a zone designator. -/
theorem exists_zone (h : parseOffset rest = some offset) :
    ∃ zone : ZoneText, ∃ after, zone.Reads offset ∧ rest = zone.bytes ++ after := by
  cases rest with
  | nil => cases h
  | cons sign rest =>
    simp only [parseOffset, List.head?_cons] at h
    split at h
    · rename_i hHead
      cases h
      exact ⟨.utc sign, rest, ⟨.inl (Option.some.inj hHead), rfl⟩, rfl⟩
    · rename_i hHead
      cases h
      exact ⟨.utc sign, rest, ⟨.inr (Option.some.inj hHead), rfl⟩, rfl⟩
    · rename_i hHead
      obtain rfl := Option.some.inj hHead
      split at h
      · rename_i hSign
        simp only [Option.bind_eq_bind, Option.bind_eq_some_iff, Option.pure_def,
          Option.some.injEq] at h
        obtain ⟨hour, hHour, offHour, hOffHour, minute, hMinute, offMin, hOffMin, rfl⟩ := h
        obtain ⟨hAtHour, hHourLength⟩ := slice_eq_some (by decide) hHour
        obtain ⟨hAtMinute, hMinuteLength⟩ := slice_eq_some (Nat.le_add_right _ 2) hMinute
        rw [Nat.add_sub_cancel_left] at hMinuteLength
        have hReads (colon : Bool) : (ZoneText.offset sign hour colon minute).Reads _ :=
          ⟨hSign, hHourLength, hMinuteLength, offHour, offMin, hOffHour, hOffMin, rfl⟩
        by_cases hColon : (sign :: rest)[3]? = some 58
        · rw [if_pos hColon] at hAtMinute
          refine ⟨.offset sign hour true minute, (sign :: rest).drop 6, hReads true, ?_⟩
          have hBytes := drop_of_getElem? hColon
          simp only [ZoneText.bytes, colonBytes, if_true, List.cons_append, List.append_assoc,
            List.nil_append]
          rw [← hAtMinute, ← hBytes, ← hAtHour]
          rfl
        · rw [if_neg hColon] at hAtMinute
          refine ⟨.offset sign hour false minute, (sign :: rest).drop 5, hReads false, ?_⟩
          simp only [ZoneText.bytes, colonBytes, Bool.false_eq_true, if_false, List.cons_append,
            List.append_assoc, List.nil_append]
          rw [← hAtMinute, ← hAtHour]
          rfl
      · cases h
    · cases h

/-! ## The whole text -/

theorem Layout.Reads.tail_nonempty {layout : Layout} {fields : Fields}
    (h : layout.Reads fields) : 1 ≤ layout.tail.length := by
  obtain ⟨b, rest, hHead, -⟩ := h.zone.head layout.after
  rw [Layout.tail, hHead, List.length_append, List.length_cons]
  omega

/-- The parser finds every text where it looks for it. -/
theorem Layout.Reads.places {layout : Layout} {fields : Fields} (h : layout.Reads fields) :
    (slice layout.bytes 0 4 = some layout.year ∧ slice layout.bytes 5 7 = some layout.month ∧
      slice layout.bytes 8 10 = some layout.day ∧ slice layout.bytes 11 13 = some layout.hour ∧
      slice layout.bytes 14 16 = some layout.minute ∧
      slice layout.bytes 17 19 = some layout.second) ∧
    layout.bytes[4]? = some 45 ∧ layout.bytes[7]? = some 45 ∧
      layout.bytes[10]? = some layout.separator ∧ layout.bytes[13]? = some 58 ∧
      layout.bytes[16]? = some 58 ∧ layout.bytes.drop 19 = layout.tail ∧
      layout.bytes.length = layout.tail.length + 19 := by
  obtain ⟨year, month, day, separator, hour, minute, second, fraction, zone, after⟩ := layout
  obtain ⟨y₁, y₂, y₃, y₄, rfl⟩ := List.length_eq_four.mp h.year.1
  obtain ⟨m₁, m₂, rfl⟩ := List.length_eq_two.mp h.month.1
  obtain ⟨d₁, d₂, rfl⟩ := List.length_eq_two.mp h.day.1
  obtain ⟨h₁, h₂, rfl⟩ := List.length_eq_two.mp h.hour.1
  obtain ⟨n₁, n₂, rfl⟩ := List.length_eq_two.mp h.minute.1
  obtain ⟨s₁, s₂, rfl⟩ := List.length_eq_two.mp h.second.1
  simp [Layout.bytes, slice]

/-- What the parser accepts is laid out as it expects. -/
theorem exists_layout_of_parse {s : String} {v : Int} (h : parseRfc3339ToUnix s = some v) :
    ∃ layout : Layout, ∃ fields : Fields,
      layout.bytes = utf8 s ∧ layout.Reads fields ∧ fields.instant = v := by
  unfold parseRfc3339ToUnix at h
  dsimp only [Option.bind_eq_bind, Option.bind_none, Option.pure_def] at h
  -- one test after the other, as the parser makes them
  obtain ⟨-, h⟩ := Option.ite_none_left_eq_some.mp h
  obtain ⟨yearText, hYearAt, h⟩ := Option.bind_eq_some_iff.mp h
  obtain ⟨year, hYear, h⟩ := Option.bind_eq_some_iff.mp h
  obtain ⟨hDash, h⟩ := Option.ite_none_left_eq_some.mp h
  obtain ⟨monthText, hMonthAt, h⟩ := Option.bind_eq_some_iff.mp h
  obtain ⟨month, hMonth, h⟩ := Option.bind_eq_some_iff.mp h
  obtain ⟨hDash', h⟩ := Option.ite_none_left_eq_some.mp h
  obtain ⟨dayText, hDayAt, h⟩ := Option.bind_eq_some_iff.mp h
  obtain ⟨day, hDay, h⟩ := Option.bind_eq_some_iff.mp h
  obtain ⟨hSeparator, h⟩ := Option.ite_none_left_eq_some.mp h
  obtain ⟨hourText, hHourAt, h⟩ := Option.bind_eq_some_iff.mp h
  obtain ⟨hour, hHour, h⟩ := Option.bind_eq_some_iff.mp h
  obtain ⟨hColon, h⟩ := Option.ite_none_left_eq_some.mp h
  obtain ⟨minuteText, hMinuteAt, h⟩ := Option.bind_eq_some_iff.mp h
  obtain ⟨minute, hMinute, h⟩ := Option.bind_eq_some_iff.mp h
  obtain ⟨hColon', h⟩ := Option.ite_none_left_eq_some.mp h
  obtain ⟨secondText, hSecondAt, h⟩ := Option.bind_eq_some_iff.mp h
  obtain ⟨second, hSecond, h⟩ := Option.bind_eq_some_iff.mp h
  obtain ⟨rest, hRest, h⟩ := Option.bind_eq_some_iff.mp h
  obtain ⟨offset, hOffset, h⟩ := Option.bind_eq_some_iff.mp h
  obtain ⟨hRange, h⟩ := Option.ite_none_left_eq_some.mp h
  have hInstant := Option.some.inj h
  have hMonthRange : 1 ≤ month ∧ month ≤ 12 := by omega
  have hDayRange : 1 ≤ day ∧ day ≤ 31 := by omega
  have hTimeRange : hour ≤ 23 ∧ minute ≤ 59 ∧ second ≤ 60 := by omega
  obtain ⟨fraction, hFraction, hTail⟩ := exists_fraction hRest
  obtain ⟨zone, after, hZone, rfl⟩ := exists_zone hOffset
  obtain ⟨hAtYear, hYearLength⟩ := slice_eq_some (by decide) hYearAt
  obtain ⟨hAtMonth, hMonthLength⟩ := slice_eq_some (by decide) hMonthAt
  obtain ⟨hAtDay, hDayLength⟩ := slice_eq_some (by decide) hDayAt
  obtain ⟨hAtHour, hHourLength⟩ := slice_eq_some (by decide) hHourAt
  obtain ⟨hAtMinute, hMinuteLength⟩ := slice_eq_some (by decide) hMinuteAt
  obtain ⟨hAtSecond, hSecondLength⟩ := slice_eq_some (by decide) hSecondAt
  obtain ⟨separator, hAtSeparator, hLetter⟩ : ∃ separator,
      (utf8 s)[10]? = some separator ∧ (separator = 84 ∨ separator = 116) := by
    rcases not_and_or.mp hSeparator with hUpper | hLower
    · exact ⟨84, not_not.mp hUpper, .inl rfl⟩
    · exact ⟨116, not_not.mp hLower, .inr rfl⟩
  refine ⟨⟨yearText, monthText, dayText, separator, hourText, minuteText, secondText, fraction,
    zone, after⟩, ⟨year, month, day, hour, minute, second, offset⟩, ?_, ?_, hInstant⟩
  · rw [Layout.bytes, Layout.tail, ← hTail, ← hAtSecond, ← drop_of_getElem? (not_not.mp hColon'),
      ← hAtMinute, ← drop_of_getElem? (not_not.mp hColon), ← hAtHour,
      ← drop_of_getElem? hAtSeparator, ← hAtDay, ← drop_of_getElem? (not_not.mp hDash'),
      ← hAtMonth, ← drop_of_getElem? (not_not.mp hDash), ← hAtYear]
    rfl
  · exact ⟨⟨hYearLength, hYear⟩, ⟨hMonthLength, hMonth⟩, ⟨hDayLength, hDay⟩, hLetter,
      ⟨hHourLength, hHour⟩, ⟨hMinuteLength, hMinute⟩, ⟨hSecondLength, hSecond⟩, hFraction, hZone,
      hMonthRange, hDayRange, hTimeRange⟩

/-- The parser reads a text that is laid out in this way. -/
theorem Layout.Reads.parse {layout : Layout} {fields : Fields} {s : String}
    (h : layout.Reads fields) (hBytes : layout.bytes = utf8 s) :
    parseRfc3339ToUnix s = some fields.instant := by
  obtain ⟨⟨hYear, hMonth, hDay, hHour, hMinute, hSecond⟩, hDash, hDash', hSeparator, hColon,
    hColon', hTail, hLength⟩ := h.places
  have hLong : ¬ layout.bytes.length < 20 := by
    have hNonempty := h.tail_nonempty
    omega
  have hLetter : ¬ (some layout.separator ≠ some 84 ∧ some layout.separator ≠ some 116) := by
    rcases h.separator with hUpper | hLower
    · exact fun hNot => hNot.1 (congrArg some hUpper)
    · exact fun hNot => hNot.2 (congrArg some hLower)
  have hRange : ¬ (¬ (1 ≤ fields.month ∧ fields.month ≤ 12) ∨
      ¬ (1 ≤ fields.day ∧ fields.day ≤ 31) ∨ 23 < fields.hour ∨ 59 < fields.minute ∨
        60 < fields.second) := by
    have hMonthRange := h.month_range
    have hDayRange := h.day_range
    have hTimeRange := h.time_range
    omega
  have hRest : dropFraction layout.tail = some (layout.zone.bytes ++ layout.after) :=
    dropFraction_zone h.fraction h.zone layout.after
  unfold parseRfc3339ToUnix
  dsimp only [Option.bind_eq_bind, Option.bind_none, Option.pure_def]
  rw [← hBytes, if_neg hLong, hYear, Option.bind_some, h.year.2, Option.bind_some,
    if_neg (not_not.mpr hDash), hMonth, Option.bind_some, h.month.2, Option.bind_some,
    if_neg (not_not.mpr hDash'), hDay, Option.bind_some, h.day.2, Option.bind_some, hSeparator,
    if_neg hLetter, hHour, Option.bind_some, h.hour.2, Option.bind_some,
    if_neg (not_not.mpr hColon), hMinute, Option.bind_some, h.minute.2, Option.bind_some,
    if_neg (not_not.mpr hColon'), hSecond, Option.bind_some, h.second.2, Option.bind_some, hTail,
    hRest, Option.bind_some, parseOffset_zone h.zone layout.after, Option.bind_some,
    if_neg hRange, Fields.instant]

/-! ## One reading -/

/-- A text is the zone designator of one zone only. -/
theorem ZoneText.Reads.unique {first second : ZoneText} {offset' : Int}
    (hFirst : first.Reads offset) (hSecond : second.Reads offset') {after after' : List UInt8}
    (h : first.bytes ++ after = second.bytes ++ after') : first = second ∧ after = after' := by
  cases first with
  | utc letter =>
    cases second with
    | utc letter' =>
      obtain ⟨rfl, rfl⟩ := List.cons.inj h
      exact ⟨rfl, rfl⟩
    | offset sign hour colon minute =>
      obtain ⟨rfl, -⟩ := List.cons.inj h
      obtain ⟨rfl | rfl, -⟩ := hFirst <;> exact absurd hSecond.1 (by decide)
  | offset sign hour colon minute =>
    cases second with
    | utc letter =>
      obtain ⟨rfl, -⟩ := List.cons.inj h
      obtain ⟨rfl | rfl, -⟩ := hSecond <;> exact absurd hFirst.1 (by decide)
    | offset sign' hour' colon' minute' =>
      obtain ⟨-, hHour, hMinute, _, _, -, hOffMin, -⟩ := hFirst
      obtain ⟨-, hHour', hMinute', _, _, -, hOffMin', -⟩ := hSecond
      obtain ⟨h₁, h₂, rfl⟩ := List.length_eq_two.mp hHour
      obtain ⟨m₁, m₂, rfl⟩ := List.length_eq_two.mp hMinute
      obtain ⟨h₁', h₂', rfl⟩ := List.length_eq_two.mp hHour'
      obtain ⟨m₁', m₂', rfl⟩ := List.length_eq_two.mp hMinute'
      have hColon := ne_colon_of_parseSigned hOffMin
      have hColon' := ne_colon_of_parseSigned hOffMin'
      cases colon <;> cases colon' <;> simp_all [ZoneText.bytes, colonBytes]

theorem fractionBytes_inj {first second : Option (List UInt8)}
    (h : fractionBytes first = fractionBytes second) : first = second := by
  cases first <;> cases second <;> simp_all [fractionBytes]

/-- The fraction, the zone and the rest are where they are. -/
theorem Layout.Reads.tail_unique {first second : Layout} {fields fields' : Fields}
    (hFirst : first.Reads fields) (hSecond : second.Reads fields')
    (h : first.tail = second.tail) :
    first.fraction = second.fraction ∧ first.zone = second.zone ∧ first.after = second.after := by
  have hRest : some (first.zone.bytes ++ first.after) =
      some (second.zone.bytes ++ second.after) := by
    rw [← dropFraction_zone hFirst.fraction hFirst.zone first.after,
      ← dropFraction_zone hSecond.fraction hSecond.zone second.after]
    exact congrArg dropFraction h
  refine ⟨?_, hFirst.zone.unique hSecond.zone (Option.some.inj hRest)⟩
  rw [Layout.tail, Layout.tail, Option.some.inj hRest] at h
  exact fractionBytes_inj (List.append_cancel_right h)

/-- A text that the parser accepts is laid out in one way. -/
theorem Layout.Reads.unique {first second : Layout} {fields fields' : Fields}
    (hFirst : first.Reads fields) (hSecond : second.Reads fields')
    (h : first.bytes = second.bytes) : first = second := by
  obtain ⟨⟨hYear, hMonth, hDay, hHour, hMinute, hSecond'⟩, -, -, hSeparator, -, -, hTail, -⟩ :=
    hFirst.places
  obtain ⟨⟨hYear', hMonth', hDay', hHour', hMinute', hSecond''⟩, -, -, hSeparator', -, -, hTail',
    -⟩ := hSecond.places
  rw [h] at hYear hMonth hDay hHour hMinute hSecond' hSeparator hTail
  obtain ⟨hFraction, hZone, hAfter⟩ := hFirst.tail_unique hSecond (hTail.symm.trans hTail')
  have hSame {α : Type} {x y : α} {found : Option α} (hOne : found = some x)
      (hTwo : found = some y) : x = y := Option.some.inj (hOne.symm.trans hTwo)
  cases first
  cases second
  simp only [Layout.mk.injEq]
  exact ⟨hSame hYear hYear', hSame hMonth hMonth', hSame hDay hDay',
    hSame hSeparator hSeparator', hSame hHour hHour', hSame hMinute hMinute',
    hSame hSecond' hSecond'', hFraction, hZone, hAfter⟩

/-! ## Flawless texts are the well-formed ones -/

theorem isSigned_fieldBytes (width value : Nat) : isSigned (fieldBytes width value) = false := by
  have hDigit := @fieldBytes_head width value
  cases hHead : (fieldBytes width value).head? with
  | none => simp [isSigned, hHead]
  | some b =>
    have hByte := hDigit b hHead
    simp only [isSigned, hHead, Bool.or_eq_false_iff, beq_eq_false_iff_ne, ne_eq,
      Option.some.injEq]
    constructor
    · rintro rfl
      exact absurd hByte (by decide)
    · rintro rfl
      exact absurd hByte (by decide)

theorem eq_fieldBytes {text : List UInt8} (h : text.all isAsciiDigit) :
    text = fieldBytes text.length (text.foldl (fun value b => 10 * value + (b.toNat - 48)) 0) ∧
      text.foldl (fun value b => 10 * value + (b.toNat - 48)) 0 < 10 ^ text.length := by
  induction text using List.reverseRecOn with
  | nil => exact ⟨rfl, by decide⟩
  | append_singleton text b ih =>
    rw [List.all_append, Bool.and_eq_true] at h
    obtain ⟨hText, hBound⟩ := ih h.1
    have hByte : 48 ≤ b.toNat ∧ b.toNat ≤ 57 := by
      have hDigit := h.2
      simp only [isAsciiDigit, List.all_cons, List.all_nil, Bool.and_true, Bool.and_eq_true,
        decide_eq_true_iff, UInt8.le_iff_toNat_le] at hDigit
      exact hDigit
    generalize hValue : text.foldl (fun value b => 10 * value + (b.toNat - 48)) 0 = value at *
    rw [List.foldl_append, hValue, List.length_append, List.length_singleton, List.foldl_cons,
      List.foldl_nil, Nat.pow_succ]
    refine ⟨?_, by omega⟩
    have hHigh : (10 * value + (b.toNat - 48)) / 10 = value := by omega
    have hLow : (10 * value + (b.toNat - 48)) % 10 = b.toNat - 48 := by omega
    have hDigit : asciiByte (Nat.digitChar (b.toNat - 48)) = b := by
      apply UInt8.toNat_inj.mp
      rw [toNat_asciiByte] <;> rw [Nat.toNat_digitChar_of_lt_ten (by omega)] <;> omega
    rw [fieldBytes, Decimal.fixed, List.map_append, hHigh, hLow, List.map_singleton, hDigit]
    exact congrArg (· ++ [b]) hText

theorem eq_fieldBytes_of_parseDigits {text : List UInt8} {value : Nat}
    (h : parseDigits text = some value) :
    text = fieldBytes text.length value ∧ value < 10 ^ text.length := by
  unfold parseDigits at h
  split at h
  · cases h
  · rename_i hDigits
    cases h
    simp only [Bool.or_eq_true, not_or, Bool.not_eq_true', Bool.not_eq_false] at hDigits
    exact eq_fieldBytes hDigits.2

theorem eq_fieldBytes_of_parseUnsigned {text : List UInt8} {value : Nat}
    (hUnsigned : isSigned text = false) (h : parseUnsigned text = some value) :
    text = fieldBytes text.length value ∧ value < 10 ^ text.length := by
  unfold parseUnsigned at h
  split at h
  · exact absurd hUnsigned (by simp [isSigned])
  · exact eq_fieldBytes_of_parseDigits h

theorem eq_fieldBytes_of_parseSigned {text : List UInt8} {value : Int}
    (hUnsigned : isSigned text = false) (h : parseSigned text = some value) :
    ∃ number : Nat, value = number ∧ text = fieldBytes text.length number ∧
      number < 10 ^ text.length := by
  unfold parseSigned at h
  split at h
  · exact absurd hUnsigned (by simp [isSigned])
  · simp only [Option.map_id', Option.bind_eq_bind, Option.bind_eq_some_iff, Option.pure_def,
      Option.some.injEq] at h
    obtain ⟨number, hNumber, rfl⟩ := h
    exact ⟨number, rfl, eq_fieldBytes_of_parseUnsigned hUnsigned hNumber⟩

def Zone.text : Zone → ZoneText
  | .utc lower => .utc (if lower then 122 else 90)
  | .offset west colon hour minute _ _ =>
    .offset (if west then 45 else 43) (fieldBytes 2 hour) colon (fieldBytes 2 minute)

namespace Timestamp

def layout (t : Timestamp) : Layout where
  year := fieldBytes 4 t.date.year
  month := fieldBytes 2 t.date.month
  day := fieldBytes 2 t.date.day
  separator := if t.lower then 116 else 84
  hour := fieldBytes 2 t.hour
  minute := fieldBytes 2 t.minute
  second := fieldBytes 2 t.second
  fraction := t.fraction
  zone := t.zone.text
  after := []

def fields (t : Timestamp) : Fields where
  year := t.date.year
  month := t.date.month
  day := t.date.day
  hour := t.hour
  minute := t.minute
  second := t.second
  offset := t.zone.seconds

end Timestamp

theorem Zone.text_bytes (zone : Zone) : zone.text.bytes = zone.bytes := by
  cases zone <;> rfl

theorem Zone.text_reads (zone : Zone) : zone.text.Reads zone.seconds := by
  cases zone with
  | utc lower => cases lower <;> simp [Zone.text, ZoneText.Reads, Zone.seconds]
  | offset west colon hour minute hHour hMinute =>
    refine ⟨?_, by simp [fieldBytes], by simp [fieldBytes], hour, minute,
      parseSigned_fieldBytes (by decide) (by omega), parseSigned_fieldBytes (by decide) (by omega),
      ?_⟩
    · cases west <;> decide
    · cases west <;> rfl

theorem Timestamp.layout_bytes (t : Timestamp) : t.layout.bytes = t.bytes := by
  simp only [Layout.bytes, Layout.tail, layout, bytes, Zone.text_bytes, List.append_nil]

theorem Timestamp.fields_instant (t : Timestamp) : t.fields.instant = t.instant := by
  simp only [Fields.instant, fields, instant, daysFromCivil_eq]

/-- A timestamp is read as its own fields. -/
theorem Timestamp.layout_reads (t : Timestamp) : t.layout.Reads t.fields := by
  have hYear := t.year_lt
  have hMonth := t.date.month_le
  have hDay := t.date.day_le_thirtyOne
  have hHour := t.hour_lt
  have hMinute := t.minute_lt
  have hSecond := t.second_le
  have hField {value : Nat} (hValue : value < 10 ^ 2) :
      (fieldBytes 2 value).length = 2 ∧ parseUnsigned (fieldBytes 2 value) = some value :=
    ⟨by simp [fieldBytes], parseUnsigned_fieldBytes (by decide) hValue⟩
  constructor
  case year => exact ⟨by simp [layout, fieldBytes], parseSigned_fieldBytes (by decide) hYear⟩
  case month => exact hField (by omega)
  case day => exact hField (by omega)
  case separator => cases hLower : t.lower <;> simp [layout, hLower]
  case hour => exact hField (by omega)
  case minute => exact hField (by omega)
  case second => exact hField (by omega)
  case fraction => exact t.fraction_digits
  case zone => exact t.zone.text_reads
  case month_range => exact ⟨t.date.month_pos, hMonth⟩
  case day_range => exact ⟨t.date.day_pos, hDay⟩
  case time_range => exact ⟨by simp only [fields]; omega, by simp only [fields]; omega, hSecond⟩

/-- A timestamp has no flaw. -/
theorem Timestamp.layout_flawless (t : Timestamp) : t.layout.Flawless := by
  have hReads := t.layout_reads
  constructor
  · have hZone : ∀ text ∈ t.zone.text.numbers, isSigned text = false := by
      cases t.zone <;> simp [Zone.text, ZoneText.numbers, isSigned_fieldBytes]
    simpa [layout, isSigned_fieldBytes] using hZone
  · intro year month day hYear hMonth hDay
    rw [hReads.year.2, Option.some.injEq] at hYear
    rw [hReads.month.2, Option.some.injEq] at hMonth
    rw [hReads.day.2, Option.some.injEq] at hDay
    rw [← hYear, ← hMonth, ← hDay]
    exact t.date.day_le
  · show t.zone.text.InRange
    cases t.zone with
    | utc lower => trivial
    | offset west colon hour minute hHour hMinute =>
      intro offHour offMin hOffHour hOffMin
      rw [parseSigned_fieldBytes (by decide) (by omega), Option.some.injEq] at hOffHour hOffMin
      omega
  · rfl

theorem ZoneText.Reads.exists_zone (h : zone.Reads offset)
    (hUnsigned : ∀ text ∈ zone.numbers, isSigned text = false) (hRange : zone.InRange) :
    ∃ strict : Zone, strict.text = zone ∧ strict.seconds = offset := by
  cases zone with
  | utc letter =>
    obtain ⟨rfl | rfl, rfl⟩ := h
    · exact ⟨.utc false, rfl, rfl⟩
    · exact ⟨.utc true, rfl, rfl⟩
  | offset sign hour colon minute =>
    obtain ⟨hSign, hHour, hMinute, offHour, offMin, hOffHour, hOffMin, rfl⟩ := h
    obtain ⟨hHourRange, hMinuteRange⟩ := hRange offHour offMin hOffHour hOffMin
    obtain ⟨hours, rfl, hHourText, -⟩ :=
      eq_fieldBytes_of_parseSigned (hUnsigned hour (by simp [numbers])) hOffHour
    obtain ⟨minutes, rfl, hMinuteText, -⟩ :=
      eq_fieldBytes_of_parseSigned (hUnsigned minute (by simp [numbers])) hOffMin
    rw [hHour] at hHourText
    rw [hMinute] at hMinuteText
    rw [hHourText, hMinuteText]
    rcases hSign with rfl | rfl
    · exact ⟨.offset false colon hours minutes (by omega) (by omega), rfl, rfl⟩
    · exact ⟨.offset true colon hours minutes (by omega) (by omega), rfl, rfl⟩

/-- What the parser accepts without a flaw is a timestamp. -/
theorem Layout.Reads.exists_timestamp {layout : Layout} {fields : Fields}
    (h : layout.Reads fields) (hFlawless : layout.Flawless) :
    ∃ t : Timestamp, t.layout = layout ∧ t.fields = fields := by
  obtain ⟨year, month, day, separator, hour, minute, second, fraction, zone, after⟩ := layout
  obtain ⟨yearValue, monthValue, dayValue, hourValue, minuteValue, secondValue, offset⟩ := fields
  obtain ⟨hUnsigned, hDay, hZone, rfl⟩ := hFlawless
  have hText (text : List UInt8) (hMem : text ∈ [month, day, hour, minute, second]) (value : Nat)
      (hField : text.length = 2 ∧ parseUnsigned text = some value) : text = fieldBytes 2 value := by
    rw [← hField.1]
    refine (eq_fieldBytes_of_parseUnsigned (hUnsigned text ?_) hField.2).1
    exact List.mem_append_left _ (List.mem_cons_of_mem _ hMem)
  obtain ⟨strict, hStrict, hSeconds⟩ := h.zone.exists_zone
    (fun text hMem => hUnsigned text (List.mem_append_right _ hMem)) hZone
  obtain ⟨number, hNumber, hYearText, hYearBound⟩ :=
    eq_fieldBytes_of_parseSigned (hUnsigned year (by simp)) h.year.2
  have hLower : (if separator == 116 then 116 else 84) = separator := by
    rcases h.separator with rfl | rfl <;> rfl
  have hExists := hDay _ _ _ h.year.2 h.month.2 h.day.2
  obtain ⟨hHourRange, hMinuteRange, hSecondRange⟩ := h.time_range
  dsimp only at hNumber hYearText hYearBound hExists hHourRange hMinuteRange hSecondRange
  rw [h.year.1] at hYearText hYearBound
  rw [hNumber, Int.toNat_natCast] at hExists
  refine ⟨{ date := ⟨number, monthValue, dayValue, h.month_range.1, h.month_range.2,
              h.day_range.1, hExists⟩
            year_lt := hYearBound
            lower := separator == 116
            hour := hourValue, minute := minuteValue, second := secondValue
            hour_lt := by omega, minute_lt := by omega, second_le := hSecondRange
            fraction := fraction, fraction_digits := h.fraction, zone := strict }, ?_, ?_⟩
  · simp only [Timestamp.layout, Layout.mk.injEq, true_and, and_true]
    exact ⟨hYearText.symm, (hText month (by simp) _ h.month).symm,
      (hText day (by simp) _ h.day).symm, hLower, (hText hour (by simp) _ h.hour).symm,
      (hText minute (by simp) _ h.minute).symm, (hText second (by simp) _ h.second).symm,
      hStrict⟩
  · simp only [Timestamp.fields, Fields.mk.injEq, true_and]
    exact ⟨hNumber.symm, hSeconds⟩

/-! ## Exactness -/

/-- The parser reads a text as the well-formed timestamp it is, and rejects it if it is none,
exactly if the text has no flaw that it lets pass. -/
theorem parse_exact_iff (s : String) :
    (∀ v, parseRfc3339ToUnix s = some v ↔ ∃ t : Timestamp, t.bytes = utf8 s ∧ t.instant = v) ↔
      ∀ (layout : Layout) (fields : Fields), layout.bytes = utf8 s → layout.Reads fields →
        layout.Flawless := by
  constructor
  · intro hExact layout fields hBytes hReads
    obtain ⟨t, hText, -⟩ := (hExact fields.instant).mp (hReads.parse hBytes)
    have hSame : layout = t.layout :=
      hReads.unique t.layout_reads (by rw [hBytes, t.layout_bytes, hText])
    rw [hSame]
    exact t.layout_flawless
  · intro hFlawless v
    constructor
    · intro hParse
      obtain ⟨layout, fields, hBytes, hReads, rfl⟩ := exists_layout_of_parse hParse
      obtain ⟨t, rfl, rfl⟩ := hReads.exists_timestamp (hFlawless layout fields hBytes hReads)
      exact ⟨t, t.layout_bytes.symm.trans hBytes, t.fields_instant.symm⟩
    · rintro ⟨t, hBytes, rfl⟩
      rw [t.layout_reads.parse (t.layout_bytes.trans hBytes), t.fields_instant]

/-- Text after the zone, a day that does not exist, an offset of 99:99 and signs in the fields are
all accepted; the first is no timestamp. -/
theorem flawed_texts_accepted :
    parseRfc3339ToUnix "2026-06-02T12:05:00Z or later" = some 1780401900 ∧
      parseRfc3339ToUnix "2026-02-30T12:00:00Z" = some 1772452800 ∧
      parseRfc3339ToUnix "2026-06-02T12:05:00+99:99" = some 1780039560 ∧
      parseRfc3339ToUnix "+026-+6-+2T+2:+5:+0Z" = some (-61333538100) ∧
      ¬ ∃ t : Timestamp, t.bytes = utf8 "2026-06-02T12:05:00Z or later" := by
  refine ⟨by decide +kernel, by decide +kernel, by decide +kernel, by decide +kernel, ?_⟩
  rintro ⟨t, hBytes⟩
  let layout : Layout := ⟨fieldBytes 4 2026, fieldBytes 2 6, fieldBytes 2 2, 84, fieldBytes 2 12,
    fieldBytes 2 5, fieldBytes 2 0, none, .utc 90, utf8 " or later"⟩
  have hReads : layout.Reads ⟨2026, 6, 2, 12, 5, 0, 0⟩ := by
    constructor
    case fraction => exact fun _ hNone => (nomatch hNone)
    case zone => exact ⟨.inl rfl, rfl⟩
    all_goals decide +kernel
  have hSame : t.layout = layout :=
    t.layout_reads.unique hReads (by rw [t.layout_bytes, hBytes]; decide +kernel)
  have hAfter : [] = utf8 " or later" := congrArg Layout.after hSame
  exact absurd hAfter (by decide +kernel)

end MxAgent.Daemon
