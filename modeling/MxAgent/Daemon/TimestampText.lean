import MxAgent.Daemon.TimestampGrammar

/-! The text of the formatter. It is a timestamp, so the parser reads it back, and every field
has a fixed width, so later times have greater texts. -/
namespace MxAgent.Daemon

open Gregorian

def lastSecond : Nat := 253402300799

structure TimeOfDay where
  hour : Nat
  minute : Nat
  second : Nat
  hour_lt : hour < 24
  minute_lt : minute < 60
  second_lt : second < 60

def TimeOfDay.seconds (time : TimeOfDay) : Nat := time.hour * 3600 + time.minute * 60 + time.second

def timestampChars (date : Date) (time : TimeOfDay) : List Char :=
  Decimal.fixed 4 date.year ++ '-' :: (Decimal.fixed 2 date.month ++ '-' ::
    (Decimal.fixed 2 date.day ++ 'T' :: (Decimal.fixed 2 time.hour ++ ':' ::
      (Decimal.fixed 2 time.minute ++ ':' :: (Decimal.fixed 2 time.second ++ ['Z'])))))

theorem toList_zeroPadded {width value : Nat} (hWidth : 0 < width) (h : value < 10 ^ width) :
    (zeroPadded width value).toList = Decimal.fixed width value := by
  have hLength : (toString value).length = (Nat.toDigits 10 value).length := by
    rw [← String.length_toList, Nat.toString_eq_repr, Nat.toList_repr]
  rw [← Decimal.replicate_append_toDigits hWidth h, ← hLength]
  simp [zeroPadded]

theorem utf8_ofList {text : List Char} (h : ∀ c ∈ text, c.toNat ≤ 127) :
    utf8 (String.ofList text) = text.map asciiByte := by
  have hEncode : text.flatMap String.utf8EncodeChar = text.map asciiByte := by
    induction text with
    | nil => rfl
    | cons c rest ih =>
      obtain ⟨hHead, hRest⟩ := List.forall_mem_cons.mp h
      have hByte : String.utf8EncodeChar c = [asciiByte c] := if_pos hHead
      rw [List.flatMap_cons, ih hRest, List.map_cons, hByte]
      rfl
  rw [utf8, String.toUTF8, String.toByteArray_ofList, List.utf8Encode, hEncode]
  simp

def formatted (date : Date) (year_lt : date.year < 10000) (time : TimeOfDay) : Timestamp where
  date := date
  year_lt := year_lt
  lower := false
  hour := time.hour
  minute := time.minute
  second := time.second
  hour_lt := time.hour_lt
  minute_lt := time.minute_lt
  second_le := time.second_lt.le
  fraction := none
  fraction_digits := nofun
  zone := .utc false

theorem bytes_formatted {date : Date} (hYear : date.year < 10000) (time : TimeOfDay) :
    (formatted date hYear time).bytes = utf8 (String.ofList (timestampChars date time)) := by
  have hAscii : ∀ width value, ∀ c ∈ Decimal.fixed width value, c.toNat ≤ 127 := by
    intro width value c hMem
    have hDigit := isDigit_iff_toNat.mp (Decimal.isDigit_of_mem_fixed c hMem)
    omega
  rw [utf8_ofList]
  · simp only [timestampChars, List.map_append, List.map_cons, List.map_nil]
    rfl
  · simp only [timestampChars, List.forall_mem_append, List.forall_mem_cons]
    refine ⟨hAscii _ _, by decide, hAscii _ _, by decide, hAscii _ _, by decide, hAscii _ _,
      by decide, hAscii _ _, by decide, hAscii _ _, by decide, by simp⟩

theorem parse_timestampChars {date : Date} (hYear : date.year < 10000) (time : TimeOfDay) :
    parseRfc3339ToUnix (String.ofList (timestampChars date time)) =
      some (((date.dayNumber : Int) - epochDay) * 86400 + time.seconds) := by
  have hBytes := (formatted date hYear time).layout_bytes.trans (bytes_formatted hYear time)
  rw [(formatted date hYear time).layout_reads.parse hBytes, Timestamp.fields_instant]
  simp only [Timestamp.instant, formatted, Zone.seconds, TimeOfDay.seconds, Option.some.injEq]
  omega

/-- Years of four digits, as far as a range of seconds goes. -/
theorem year_lt_of_dayNumber {date : Date} {secs : Nat} (h : secs ≤ lastSecond)
    (hNumber : date.dayNumber = secs / 86400 + epochDay) : date.year < 10000 := by
  by_contra hYear
  have hMono := daysBeforeYear_mono (not_lt.mp hYear)
  rw [daysBeforeYear_eq 10000] at hMono
  unfold Date.dayNumber epochDay at hNumber
  unfold lastSecond at h
  omega

/-- The formatter writes the date and the time of a number of seconds. -/
theorem unixToRfc3339_spec {secs : Nat} (h : secs ≤ lastSecond) :
    ∃ (date : Date) (time : TimeOfDay),
      unixToRfc3339 secs = String.ofList (timestampChars date time) ∧ date.year < 10000 ∧
      date.dayNumber = secs / 86400 + epochDay ∧ time.seconds = secs % 86400 := by
  obtain ⟨date, hCivil, hNumber⟩ := civilFromDays_spec (secs / 86400)
  have hYear := year_lt_of_dayNumber h hNumber
  let time : TimeOfDay := ⟨secs % 86400 / 3600, secs % 86400 % 3600 / 60, secs % 86400 % 60,
    by omega, by omega, by omega⟩
  refine ⟨date, time, ?_, hYear, hNumber, ?_⟩
  · have hMonth := date.month_le
    have hDay := date.day_le_thirtyOne
    have hHour := time.hour_lt
    have hMinute := time.minute_lt
    have hSecond := time.second_lt
    have hText : unixToRfc3339 secs = zeroPadded 4 (civilFromDays ↑(secs / 86400)).1.toNat ++ "-"
        ++ zeroPadded 2 (civilFromDays ↑(secs / 86400)).2.1.toNat ++ "-"
        ++ zeroPadded 2 (civilFromDays ↑(secs / 86400)).2.2.toNat ++ "T"
        ++ zeroPadded 2 time.hour ++ ":" ++ zeroPadded 2 time.minute ++ ":"
        ++ zeroPadded 2 time.second ++ "Z" := rfl
    rw [hText, hCivil]
    apply String.toList_injective
    simp only [String.toList_append, Int.toNat_natCast, String.toList_ofList]
    rw [toList_zeroPadded (by decide) (by omega), toList_zeroPadded (by decide) (by omega),
      toList_zeroPadded (by decide) (by omega), toList_zeroPadded (by decide) (by omega),
      toList_zeroPadded (by decide) (by omega), toList_zeroPadded (by decide) (by omega)]
    simp [timestampChars]
  · simp only [TimeOfDay.seconds, time]
    omega

/-- Fields of one width decide the order, or leave it to what follows. -/
theorem fixed_append_lt {width first second : Nat} {firstRest secondRest : List Char}
    (hSecond : second < 10 ^ width)
    (h : first < second ∨ first = second ∧ firstRest < secondRest) :
    Decimal.fixed width first ++ firstRest < Decimal.fixed width second ++ secondRest := by
  rcases h with hLt | ⟨rfl, hRest⟩
  · exact Decimal.append_lt_append (by simp) (Decimal.fixed_lt_fixed hLt hSecond) _ _
  · exact List.append_left_lt hRest

theorem cons_lt_of_lt {c : Char} {first second : List Char} (h : first < second) :
    c :: first < c :: second :=
  List.cons_lt_cons_iff.mpr (.inr ⟨rfl, h⟩)

/-- The fields of a time of day in order of weight. -/
theorem TimeOfDay.lt_of_seconds_lt {time later : TimeOfDay} (h : time.seconds < later.seconds) :
    time.hour < later.hour ∨ time.hour = later.hour ∧
      (time.minute < later.minute ∨ time.minute = later.minute ∧ time.second < later.second) := by
  have hMinute := later.minute_lt
  have hSecond := later.second_lt
  unfold seconds at h
  omega

/-- An earlier moment has a smaller text. -/
theorem timestampChars_lt {date later : Date} {time laterTime : TimeOfDay}
    (hYear : later.year < 10000)
    (h : date.Before later ∨ date = later ∧ time.seconds < laterTime.seconds) :
    timestampChars date time < timestampChars later laterTime := by
  have hMonth : later.month < 10 ^ 2 := by have := later.month_le; omega
  have hDay : later.day < 10 ^ 2 := by have := later.day_le_thirtyOne; omega
  have hHour : laterTime.hour < 10 ^ 2 := by have := laterTime.hour_lt; omega
  have hMinute : laterTime.minute < 10 ^ 2 := by have := laterTime.minute_lt; omega
  have hSecond : laterTime.second < 10 ^ 2 := by have := laterTime.second_lt; omega
  refine fixed_append_lt hYear ?_
  rcases h with (hLt | ⟨hEq, h⟩) | ⟨rfl, h⟩
  · exact .inl hLt
  · refine .inr ⟨hEq, cons_lt_of_lt (fixed_append_lt hMonth ?_)⟩
    rcases h with hLt | ⟨hEq, hLt⟩
    · exact .inl hLt
    · exact .inr ⟨hEq, cons_lt_of_lt (fixed_append_lt hDay (.inl hLt))⟩
  · refine .inr ⟨rfl, cons_lt_of_lt (fixed_append_lt hMonth (.inr ⟨rfl, cons_lt_of_lt ?_⟩))⟩
    refine fixed_append_lt hDay (.inr ⟨rfl, cons_lt_of_lt (fixed_append_lt hHour ?_)⟩)
    rcases TimeOfDay.lt_of_seconds_lt h with hLt | ⟨hEq, hLt | ⟨hSame, hLt⟩⟩
    · exact .inl hLt
    · exact .inr ⟨hEq, cons_lt_of_lt (fixed_append_lt hMinute (.inl hLt))⟩
    · refine .inr ⟨hEq, cons_lt_of_lt (fixed_append_lt hMinute (.inr ⟨hSame, ?_⟩))⟩
      exact cons_lt_of_lt (fixed_append_lt hSecond (.inl hLt))

/-- Through the year 9999 the formatter writes twenty characters that name a Gregorian date and a
time of day, the parser reads them back, and later times have greater texts. -/
theorem timestamp_round_trip (secs : Nat) (h : secs ≤ lastSecond) :
    (unixToRfc3339 secs).length = 20 ∧
    (∃ (date : Date) (time : TimeOfDay),
      unixToRfc3339 secs = String.ofList (timestampChars date time) ∧
      secs = (date.dayNumber - epochDay) * 86400 + time.seconds) ∧
    parseRfc3339ToUnix (unixToRfc3339 secs) = some (secs : Int) ∧
    ∀ later, secs < later → later ≤ lastSecond → unixToRfc3339 secs < unixToRfc3339 later := by
  obtain ⟨date, time, hText, hYear, hNumber, hSeconds⟩ := unixToRfc3339_spec h
  refine ⟨?_, ⟨date, time, hText, by omega⟩, ?_, ?_⟩
  · rw [hText, String.length_ofList]
    simp [timestampChars]
  · rw [hText, parse_timestampChars hYear, Option.some.injEq]
    omega
  · intro later hLt hLater
    obtain ⟨laterDate, laterTime, hLaterText, hLaterYear, hLaterNumber, hLaterSeconds⟩ :=
      unixToRfc3339_spec hLater
    rw [hText, hLaterText, String.lt_iff, String.toList_ofList, String.toList_ofList]
    apply timestampChars_lt hLaterYear
    by_cases hSameDay : date = laterDate
    · subst hSameDay
      exact .inr ⟨rfl, by omega⟩
    · left
      rcases Date.before_or_eq_or_before date laterDate with hBefore | hEq | hAfter
      · exact hBefore
      · exact absurd hEq hSameDay
      · have hNumbers := Date.dayNumber_lt_of_before hAfter
        omega

/-- The last second of a leap day, and the end of the range. -/
theorem leap_day_round_trip :
    parseRfc3339ToUnix (unixToRfc3339 951868799) = some 951868799 ∧
      unixToRfc3339 951868799 = "2000-02-29T23:59:59Z" ∧
      unixToRfc3339 951868799 < unixToRfc3339 lastSecond := by
  obtain ⟨-, -, hParse, hOrder⟩ := timestamp_round_trip 951868799 (by decide)
  exact ⟨hParse, by decide, hOrder lastSecond (by decide) (by decide)⟩

end MxAgent.Daemon
