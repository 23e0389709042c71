import Mathlib.Data.Nat.Basic
import Mathlib.Order.Basic

/-! The proleptic Gregorian calendar from the year 0 on. A date carries the proof that
it exists, and its day number counts the days of the years and months before it. The
order of dates is the order of their day numbers. -/
namespace Gregorian

def isLeap (year : Nat) : Bool := year % 4 == 0 && (year % 100 != 0 || year % 400 == 0)

def yearLength (year : Nat) : Nat := if isLeap year then 366 else 365

def monthLength (year : Nat) : Nat → Nat
  | 2 => if isLeap year then 29 else 28
  | 4 | 6 | 9 | 11 => 30
  | _ => 31

/-- A date that exists. -/
@[ext] structure Date where
  year : Nat
  month : Nat
  day : Nat
  month_pos : 1 ≤ month
  month_le : month ≤ 12
  day_pos : 1 ≤ day
  day_le : day ≤ monthLength year month
  deriving DecidableEq

def daysBeforeYear : Nat → Nat
  | 0 => 0
  | year + 1 => daysBeforeYear year + yearLength year

def daysBeforeMonth (year : Nat) : Nat → Nat
  | 0 => 0
  | 1 => 0
  | month + 2 => daysBeforeMonth year (month + 1) + monthLength year (month + 1)

/-- The days before a date since the start of the year 0. -/
def Date.dayNumber (date : Date) : Nat :=
  daysBeforeYear date.year + daysBeforeMonth date.year date.month + (date.day - 1)

def Date.Before (first second : Date) : Prop :=
  first.year < second.year ∨ first.year = second.year ∧
    (first.month < second.month ∨ first.month = second.month ∧ first.day < second.day)

/-- The number of leap years before a year in closed form. -/
theorem daysBeforeYear_eq (year : Nat) :
    daysBeforeYear year = 365 * year + (year + 3) / 4 - (year + 99) / 100 + (year + 399) / 400 := by
  induction year with
  | zero => rfl
  | succ year ih =>
    rw [daysBeforeYear, ih, yearLength]
    by_cases hLeap : isLeap year
    · rw [if_pos hLeap]
      simp only [isLeap, Bool.and_eq_true, Bool.or_eq_true, beq_iff_eq, bne_iff_ne] at hLeap
      omega
    · rw [if_neg hLeap]
      simp only [isLeap, Bool.and_eq_true, Bool.or_eq_true, beq_iff_eq, bne_iff_ne] at hLeap
      omega

theorem daysBeforeMonth_succ {year month : Nat} (h : 1 ≤ month) :
    daysBeforeMonth year (month + 1) = daysBeforeMonth year month + monthLength year month := by
  obtain ⟨previous, rfl⟩ : ∃ previous, month = previous + 1 := ⟨month - 1, by omega⟩
  rfl

theorem daysBeforeMonth_mono {year first second : Nat} (hFirst : 1 ≤ first)
    (h : first ≤ second) : daysBeforeMonth year first ≤ daysBeforeMonth year second := by
  induction second, h using Nat.le_induction with
  | base => exact Nat.le_refl _
  | succ month hMonth ih =>
    rw [daysBeforeMonth_succ (hFirst.trans hMonth)]
    omega

theorem daysBeforeYear_mono {first second : Nat} (h : first ≤ second) :
    daysBeforeYear first ≤ daysBeforeYear second := by
  induction second, h using Nat.le_induction with
  | base => exact Nat.le_refl _
  | succ year _ ih =>
    rw [daysBeforeYear]
    omega

/-- The months of a year add up to its length. -/
theorem daysBeforeMonth_thirteen (year : Nat) : daysBeforeMonth year 13 = yearLength year := by
  cases hLeap : isLeap year <;> simp [daysBeforeMonth, monthLength, yearLength, hLeap]

namespace Date

variable {first second : Date}

theorem day_le_thirtyOne (date : Date) : date.day ≤ 31 := by
  have hLength : monthLength date.year date.month ≤ 31 := by
    unfold monthLength
    split
    · split <;> decide
    all_goals decide
  exact date.day_le.trans hLength

theorem day_in_month (date : Date) :
    daysBeforeMonth date.year date.month + (date.day - 1) <
      daysBeforeMonth date.year (date.month + 1) := by
  rw [daysBeforeMonth_succ date.month_pos]
  have hPos := date.day_pos
  have hLe := date.day_le
  omega

theorem day_in_year (date : Date) :
    daysBeforeMonth date.year date.month + (date.day - 1) < yearLength date.year := by
  have hMonth := date.day_in_month
  have hLast : daysBeforeMonth date.year (date.month + 1) ≤ daysBeforeMonth date.year 13 :=
    daysBeforeMonth_mono (by omega) (Nat.succ_le_succ date.month_le)
  rw [daysBeforeMonth_thirteen] at hLast
  omega

/-- Later dates have greater day numbers. -/
theorem dayNumber_lt_of_before (h : first.Before second) : first.dayNumber < second.dayNumber := by
  unfold dayNumber
  rcases h with hYear | ⟨hYear, hMonth | ⟨hMonth, hDay⟩⟩
  · have hIn := first.day_in_year
    have hMono := daysBeforeYear_mono (Nat.succ_le_of_lt hYear)
    rw [Nat.succ_eq_add_one, daysBeforeYear] at hMono
    omega
  · have hIn := first.day_in_month
    have hMono : daysBeforeMonth first.year (first.month + 1) ≤
        daysBeforeMonth first.year second.month :=
      daysBeforeMonth_mono (by omega) hMonth
    rw [← hYear]
    omega
  · have hPos := first.day_pos
    rw [← hYear, ← hMonth]
    omega

/-- Two dates are the same day or one is before the other. -/
theorem before_or_eq_or_before (first second : Date) :
    first.Before second ∨ first = second ∨ second.Before first := by
  by_cases hSame : first.year = second.year ∧ first.month = second.month ∧ first.day = second.day
  · exact .inr (.inl (Date.ext hSame.1 hSame.2.1 hSame.2.2))
  · unfold Before
    omega

end Date

end Gregorian
