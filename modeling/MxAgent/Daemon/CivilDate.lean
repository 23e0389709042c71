import Mathlib.Order.Monotone.Basic
import Mathlib.Tactic.IntervalCases
import MxAgent.Daemon.Timestamp
import MxAgent.Foundations.Gregorian

/-! The two calendar algorithms of the daemon. Both work on years that start in March
and on eras of 400 years. The day count of the parser and the date of the formatter agree
with the Gregorian calendar, so each undoes the other. -/
namespace MxAgent.Daemon

open Gregorian

def epochDay : Nat := 719528

/-- Truncating division, as the source corrects it, rounds down. -/
theorem era_eq (y : Int) : (if 0 ≤ y then y else y - 399).tdiv 400 = y / 400 := by
  split
  next h => exact Int.tdiv_eq_ediv_of_nonneg h
  next h =>
    have hNeg : y - 399 = -(399 - y) := by omega
    rw [hNeg, Int.neg_tdiv, Int.tdiv_eq_ediv_of_nonneg (by omega)]
    omega

/-- The days before the March-based year `y`, from the year 0 on. -/
def daysBeforeMarch (y : Int) : Int := 365 * y + y / 4 - y / 100 + y / 400

/-- An era has 146097 days, counted from its own start. -/
theorem era_days (y : Int) :
    y / 400 * 146097 + ((y - y / 400 * 400) * 365 + (y - y / 400 * 400) / 4 -
      (y - y / 400 * 400) / 100) = daysBeforeMarch y := by
  unfold daysBeforeMarch
  omega

/-- A year starts 306 days after the first of March before it. -/
theorem daysBeforeYear_eq_march (year : Nat) :
    (daysBeforeYear year : Int) = daysBeforeMarch (year - 1) + 366 := by
  rw [daysBeforeYear_eq, daysBeforeMarch]
  omega

/-- The first of March follows January and February. -/
theorem daysBeforeMonth_march (year : Nat) :
    (daysBeforeYear year + daysBeforeMonth year 3 : Int) = daysBeforeMarch year + 60 := by
  have hNext := daysBeforeYear_eq_march (year + 1)
  rw [daysBeforeYear, Nat.cast_succ, Int.add_sub_cancel, yearLength] at hNext
  cases hLeap : isLeap year with
  | false =>
    have hMarch : daysBeforeMonth year 3 = 59 := by simp [daysBeforeMonth, monthLength, hLeap]
    simp only [hLeap, Bool.false_eq_true, if_false] at hNext
    omega
  | true =>
    have hMarch : daysBeforeMonth year 3 = 60 := by simp [daysBeforeMonth, monthLength, hLeap]
    simp only [hLeap, if_true] at hNext
    omega

/-- From March on the months repeat after five, of 153 days. -/
theorem daysBeforeMonth_of_march {month : Nat} (h : 3 ≤ month) (hLast : month ≤ 12)
    (year : Nat) :
    daysBeforeMonth year month = daysBeforeMonth year 3 + (153 * (month - 3) + 2) / 5 := by
  interval_cases month <;> simp [daysBeforeMonth, monthLength]

theorem daysFromCivil_of_le {month : Nat} (h : month ≤ 2) (year : Int) (day : Nat) :
    daysFromCivil year month day =
      daysBeforeMarch (year - 1) + (153 * (month + 9) + 2) / 5 + day - 1 - 719468 := by
  have hEra := era_days (year - 1)
  have hMonth : ¬ 2 < month := by omega
  simp only [daysFromCivil, if_pos h, if_neg hMonth, era_eq]
  omega

theorem daysFromCivil_of_lt {month : Nat} (h : 2 < month) (year : Int) (day : Nat) :
    daysFromCivil year month day =
      daysBeforeMarch year + (153 * (month - 3) + 2) / 5 + day - 1 - 719468 := by
  have hEra := era_days year
  have hMonth : ¬ month ≤ 2 := by omega
  simp only [daysFromCivil, if_pos h, if_neg hMonth, era_eq]
  omega

/-- `days_from_civil` counts the days of the Gregorian calendar. -/
theorem daysFromCivil_eq (date : Date) :
    daysFromCivil date.year date.month date.day = (date.dayNumber : Int) - epochDay := by
  have hDay := date.day_pos
  have hMonth := date.month_pos
  unfold Date.dayNumber epochDay
  by_cases h : date.month ≤ 2
  · have hYear := daysBeforeYear_eq_march date.year
    rw [daysFromCivil_of_le h]
    obtain hJanuary | hFebruary : date.month = 1 ∨ date.month = 2 := by omega
    · rw [hJanuary, daysBeforeMonth]
      omega
    · have hBefore : daysBeforeMonth date.year 2 = 31 := rfl
      rw [hFebruary, hBefore]
      omega
  · have hMarch := daysBeforeMonth_march date.year
    have hBefore := daysBeforeMonth_of_march (by omega) date.month_le date.year
    rw [daysFromCivil_of_lt (by omega)]
    omega

/-- The days of an era without leap days, which are divided by 365. -/
def commonDays (doe : Nat) : Int := (doe : Int) - doe / 1460 + doe / 36524 - doe / 146096

theorem commonDays_le {first last : Nat} (h : first ≤ last) :
    commonDays first ≤ commonDays last := by
  refine monotone_nat_of_le_succ (fun doe => ?_) h
  unfold commonDays
  omega

/-- The first and the last day of a year are given the right year. -/
theorem commonDays_of_year : ∀ yoe : Nat, yoe < 400 →
    365 * (yoe : Int) ≤ commonDays (daysBeforeMarch yoe).toNat ∧
      commonDays ((daysBeforeMarch (yoe + 1)).toNat - 1) < 365 * (yoe + 1 : Int) := by
  decide +kernel

/-- The year of the era the formatter finds is the one the day lies in. -/
theorem yearOfEra_spec {doe : Nat} (hDoe : doe < 146097) :
    ∃ yoe : Nat, commonDays doe / 365 = yoe ∧ yoe < 400 ∧
      daysBeforeMarch yoe ≤ doe ∧ doe < daysBeforeMarch (yoe + 1) := by
  have hPos : 0 ≤ commonDays doe := commonDays_le (Nat.zero_le doe)
  have hMax : commonDays doe < 146000 :=
    (commonDays_le (Nat.le_of_lt_succ hDoe)).trans_lt (by decide)
  obtain ⟨yoe, hYoe⟩ := Int.eq_ofNat_of_zero_le (Int.ediv_nonneg hPos (by decide : (0 : Int) ≤ 365))
  have hLt : yoe < 400 := by omega
  refine ⟨yoe, hYoe, hLt, ?_, ?_⟩
  · -- a day before the year would have been given an earlier one
    by_contra hBefore
    obtain ⟨last, rfl⟩ : ∃ last, yoe = last + 1 := by
      refine ⟨yoe - 1, ?_⟩
      rcases Nat.eq_zero_or_pos yoe with rfl | hYear
      · exact absurd (Int.natCast_nonneg doe) hBefore
      · omega
    have hEnd := (commonDays_of_year last (by omega)).2
    have hMono : commonDays doe ≤ commonDays ((daysBeforeMarch (last + 1)).toNat - 1) :=
      commonDays_le (by push_cast at hBefore; omega)
    omega
  · -- a day after it a later one
    by_contra hAfter
    have hNext : yoe + 1 < 400 := by
      by_contra hLast
      obtain rfl : yoe = 399 := by omega
      have hEra : daysBeforeMarch ((399 : Nat) + 1) = 146097 := by decide
      omega
    have hStart := (commonDays_of_year (yoe + 1) hNext).1
    have hMono : commonDays (daysBeforeMarch (yoe + 1 : Nat)).toNat ≤ commonDays doe :=
      commonDays_le (by push_cast; omega)
    push_cast at hStart hMono
    omega

/-- A March-based year is as long as the calendar year it ends in. -/
theorem daysBeforeMarch_succ (y : Nat) :
    daysBeforeMarch (y + 1) = daysBeforeMarch y + yearLength (y + 1) := by
  have hYear := daysBeforeYear_eq_march (y + 1)
  have hNext := daysBeforeYear_eq_march (y + 2)
  have hStep : daysBeforeYear (y + 2) = daysBeforeYear (y + 1) + yearLength (y + 1) := rfl
  have hLeft : ((y + 1 : Nat) : Int) - 1 = y := by omega
  have hRight : ((y + 2 : Nat) : Int) - 1 = y + 1 := by omega
  rw [hLeft] at hYear
  rw [hRight] at hNext
  omega

theorem le_of_lt_yearLength {doy year : Nat} (h : doy < yearLength year) : doy ≤ 365 := by
  rw [yearLength] at h
  split at h <;> omega

/-- Where a day of a March-based year lies: in month `mp` from March. -/
theorem month_of_march {doy : Nat} (h : doy ≤ 365) :
    (5 * doy + 2) / 153 ≤ 11 ∧ (153 * ((5 * doy + 2) / 153) + 2) / 5 ≤ doy ∧
      doy < (153 * ((5 * doy + 2) / 153 + 1) + 2) / 5 := by
  omega

/-- From March to January the day found is one of the month. -/
theorem day_le_monthLength {mp : Nat} (h : mp < 10) (year : Nat) :
    (153 * (mp + 1) + 2) / 5 - (153 * mp + 2) / 5 ≤ monthLength year (mp + 3) := by
  interval_cases mp <;> simp [monthLength]

/-- The date of a day of a March-based year, by the formatter. -/
theorem exists_date_of_march {y doy : Nat} (h : doy < yearLength (y + 1)) :
    ∃ date : Date,
      date.month = (if (5 * doy + 2) / 153 < 10 then (5 * doy + 2) / 153 + 3
        else (5 * doy + 2) / 153 - 9) ∧
      date.year = (if date.month ≤ 2 then y + 1 else y) ∧
      date.day = doy - (153 * ((5 * doy + 2) / 153) + 2) / 5 + 1 ∧
      (date.dayNumber : Int) = daysBeforeMarch y + doy + 60 := by
  obtain ⟨hMonth, hStart, hEnd⟩ := month_of_march (le_of_lt_yearLength h)
  generalize (5 * doy + 2) / 153 = mp at *
  by_cases hMarch : mp < 10
  · have hLength := day_le_monthLength hMarch y
    let date : Date := ⟨y, mp + 3, doy - (153 * mp + 2) / 5 + 1, by omega, by omega, by omega,
      by omega⟩
    refine ⟨date, by simp [date, hMarch], by simp [date], rfl, ?_⟩
    have hCount := daysFromCivil_eq date
    rw [daysFromCivil_of_lt (by simp [date])] at hCount
    simp only [date, epochDay] at hCount ⊢
    omega
  · have hLength : doy - (153 * mp + 2) / 5 + 1 ≤ monthLength (y + 1) (mp - 9) := by
      obtain rfl | rfl : mp = 10 ∨ mp = 11 := by omega
      · simp only [monthLength]
        omega
      · simp only [yearLength, monthLength] at h ⊢
        split at h
        next hLeap =>
          rw [if_pos hLeap]
          omega
        next hLeap =>
          rw [if_neg hLeap]
          omega
    let date : Date := ⟨y + 1, mp - 9, doy - (153 * mp + 2) / 5 + 1, by omega, by omega, by omega,
      hLength⟩
    have hEarly : date.month ≤ 2 := by simp only [date]; omega
    refine ⟨date, by simp [date, hMarch], by rw [if_pos hEarly], rfl, ?_⟩
    have hCount := daysFromCivil_eq date
    rw [daysFromCivil_of_le hEarly] at hCount
    simp only [date, epochDay] at hCount ⊢
    push_cast at hCount
    rw [Int.add_sub_cancel] at hCount
    omega

/-- The date of a day number, as `unix_to_rfc3339` computes it. -/
def civilFromDays (days : Int) : Int × Int × Int :=
  let z := days + 719468
  let era := (if 0 ≤ z then z else z - 146096).tdiv 146097
  let doe := z - era * 146097
  let yoe := (doe - doe / 1460 + doe / 36524 - doe / 146096) / 365
  let y := yoe + era * 400
  let doy := doe - (365 * yoe + yoe / 4 - yoe / 100)
  let mp := (5 * doy + 2) / 153
  let day := doy - (153 * mp + 2) / 5 + 1
  let month := if mp < 10 then mp + 3 else mp - 9
  let year := if month ≤ 2 then y + 1 else y
  (year, month, day)

/-- Years 400 apart start after whole eras. -/
theorem daysBeforeMarch_era (yoe era : Nat) :
    daysBeforeMarch ((yoe + era * 400 : Nat) : Int) = era * 146097 + daysBeforeMarch yoe := by
  unfold daysBeforeMarch
  omega

/-- The formatter finds the date of every day since the epoch. -/
theorem civilFromDays_spec (days : Nat) :
    ∃ date : Date, civilFromDays days = (↑date.year, ↑date.month, ↑date.day) ∧
      date.dayNumber = days + epochDay := by
  obtain ⟨era, hEra⟩ : ∃ era, era = (days + 719468) / 146097 := ⟨_, rfl⟩
  obtain ⟨doe, hDoe⟩ : ∃ doe, doe = (days + 719468) % 146097 := ⟨_, rfl⟩
  have hInEra : doe < 146097 := by omega
  obtain ⟨yoe, hYoe, hYear, hStart, hEnd⟩ := yearOfEra_spec hInEra
  obtain ⟨doy, hDoy⟩ : ∃ doy : Nat, (doe : Int) - (365 * yoe + yoe / 4 - yoe / 100) = doy := by
    refine ⟨(doe - daysBeforeMarch yoe).toNat, ?_⟩
    unfold daysBeforeMarch at hStart ⊢
    omega
  have hMarch : daysBeforeMarch yoe + doy = doe := by
    unfold daysBeforeMarch
    omega
  have hShift := daysBeforeMarch_era yoe era
  have hInYear : doy < yearLength (yoe + era * 400 + 1) := by
    have hNext := daysBeforeMarch_era (yoe + 1) era
    have hLength := daysBeforeMarch_succ (yoe + era * 400)
    have hCast : (((yoe + 1) + era * 400 : Nat) : Int) = ((yoe + era * 400 : Nat) : Int) + 1 := by
      omega
    rw [hCast] at hNext
    push_cast at hNext hLength hShift hEnd
    omega
  obtain ⟨date, hMonth, hDateYear, hDay, hNumber⟩ := exists_date_of_march hInYear
  refine ⟨date, ?_, ?_⟩
  · have hTdiv : (if 0 ≤ (days : Int) + 719468 then (days : Int) + 719468
        else (days : Int) + 719468 - 146096).tdiv 146097 = era := by
      rw [if_pos (by omega), Int.tdiv_eq_ediv_of_nonneg (by omega)]
      omega
    have hRest : (days : Int) + 719468 - era * 146097 = doe := by omega
    have hCommon : ((doe : Int) - doe / 1460 + doe / 36524 - doe / 146096) / 365 = yoe := hYoe
    have hMp : (5 * (doy : Int) + 2) / 153 = ((5 * doy + 2) / 153 : Nat) := by omega
    simp only [civilFromDays, hTdiv, hRest, hCommon, hDoy, hMp]
    obtain ⟨-, hBefore, -⟩ := month_of_march (le_of_lt_yearLength hInYear)
    generalize (5 * doy + 2) / 153 = mp at *
    have hSame : (if (mp : Int) < 10 then (mp : Int) + 3 else mp - 9) = date.month := by
      rw [hMonth]
      split <;> split <;> omega
    rw [hSame, hDay, hDateYear, Prod.mk.injEq, Prod.mk.injEq]
    refine ⟨?_, rfl, ?_⟩
    · split <;> split <;> omega
    · omega
  · unfold epochDay
    omega

end MxAgent.Daemon
