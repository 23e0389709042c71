import Mathlib.Data.List.Lex
import Mathlib.Data.Nat.Digits.Defs

/-! Decimal numbers of a fixed width. Padding with zeros gives every number below a
power of ten the same number of digits, and the order of the texts is then the order of
the numbers. -/
namespace Decimal

def fixed : Nat → Nat → List Char
  | 0, _ => []
  | width + 1, value => fixed width (value / 10) ++ [Nat.digitChar (value % 10)]

@[simp] theorem length_fixed (width value : Nat) : (fixed width value).length = width := by
  induction width generalizing value with
  | zero => rfl
  | succ width ih => simp [fixed, ih]

variable {width : Nat}

theorem isDigit_of_mem_fixed {value : Nat} : ∀ digit ∈ fixed width value, digit.isDigit := by
  induction width generalizing value with
  | zero => simp [fixed]
  | succ width ih =>
    intro digit hDigit
    rcases List.mem_append.mp hDigit with hHigh | hLow
    · exact ih digit hHigh
    · rw [List.mem_singleton.mp hLow]
      rw [Nat.isDigit_digitChar, decide_eq_true_iff]
      exact Nat.mod_lt _ (by decide)

theorem fixed_zero (width : Nat) : fixed width 0 = List.replicate width '0' := by
  induction width with
  | zero => rfl
  | succ width ih =>
    rw [fixed, Nat.zero_div, ih, List.replicate_succ']
    rfl

/-- Padding the digits of a number with zeros to a width it fits in. -/
theorem replicate_append_toDigits {value : Nat} (hWidth : 0 < width) (h : value < 10 ^ width) :
    List.replicate (width - (Nat.toDigits 10 value).length) '0' ++ Nat.toDigits 10 value =
      fixed width value := by
  induction width generalizing value with
  | zero => omega
  | succ width ih =>
    by_cases hSmall : value < 10
    · rw [Nat.toDigits_of_lt_base hSmall, fixed, Nat.div_eq_of_lt hSmall, fixed_zero,
        Nat.mod_eq_of_lt hSmall]
      rfl
    · have hQuotient : value / 10 < 10 ^ width := by
        rw [Nat.pow_succ] at h
        omega
      have hPos : 0 < width := by
        by_contra hZero
        obtain rfl : width = 0 := by omega
        omega
      rw [Nat.toDigits_of_base_le (by decide) (by omega), fixed, ← ih hPos hQuotient,
        List.length_append, List.length_singleton, Nat.add_sub_add_right, List.append_assoc]

theorem ofDigitChars_fixed {value : Nat} (h : value < 10 ^ width) :
    Nat.ofDigitChars 10 (fixed width value) 0 = value := by
  induction width generalizing value with
  | zero =>
    rw [Nat.pow_zero, Nat.lt_one_iff] at h
    subst h
    rfl
  | succ width ih =>
    have hQuotient : value / 10 < 10 ^ width := by
      rw [Nat.pow_succ] at h
      omega
    rw [fixed, Nat.ofDigitChars_append, ih hQuotient, Nat.ofDigitChars_cons_digitChar_of_lt_ten,
      Nat.ofDigitChars_nil]
    · omega
    · exact Nat.mod_lt _ (by decide)

/-- Texts of one length are in order as soon as their first parts are. -/
theorem append_lt_append {α : Type} [LT α] {first second : List α}
    (hLength : first.length = second.length) (h : first < second) (firstTail secondTail : List α) :
    first ++ firstTail < second ++ secondTail := by
  induction first generalizing second with
  | nil =>
    obtain rfl := List.length_eq_zero_iff.mp hLength.symm
    exact absurd h (List.not_lt_nil _)
  | cons head rest ih =>
    obtain ⟨other, others, rfl⟩ := List.exists_cons_of_length_eq_add_one hLength.symm
    rw [List.cons_append, List.cons_append, List.cons_lt_cons_iff]
    rcases List.cons_lt_cons_iff.mp h with hHead | ⟨hHead, hRest⟩
    · exact .inl hHead
    · exact .inr ⟨hHead, ih (Nat.succ.inj hLength) hRest⟩

theorem digitChar_lt_digitChar {first second : Nat} (h : first < second) (hSecond : second < 10) :
    Nat.digitChar first < Nat.digitChar second := by
  have hFirst := Nat.toNat_digitChar_of_lt_ten (h.trans hSecond)
  have hLast := Nat.toNat_digitChar_of_lt_ten hSecond
  show (Nat.digitChar first).toNat < (Nat.digitChar second).toNat
  omega

/-- Numbers that fit in the width are written in their own order. -/
theorem fixed_lt_fixed {first second : Nat} (h : first < second)
    (hSecond : second < 10 ^ width) : fixed width first < fixed width second := by
  induction width generalizing first second with
  | zero =>
    rw [Nat.pow_zero] at hSecond
    omega
  | succ width ih =>
    rw [Nat.pow_succ] at hSecond
    rcases Nat.lt_or_eq_of_le (Nat.div_le_div_right (c := 10) h.le) with hHigh | hHigh
    · exact append_lt_append (by simp) (ih hHigh (by omega)) _ _
    · have hDigit : first % 10 < second % 10 := by omega
      rw [fixed, fixed, hHigh]
      apply List.append_left_lt
      rw [List.cons_lt_cons_iff]
      exact .inl (digitChar_lt_digitChar hDigit (Nat.mod_lt _ (by decide)))

end Decimal
