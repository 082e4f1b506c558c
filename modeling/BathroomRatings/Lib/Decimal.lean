import Mathlib.Algebra.Order.Group.Int
import Mathlib.Tactic.NormNum

/-!
# Decimal numerals

Numerals as streams and string conversions print them, and the value of a string
of digits.
-/

set_option autoImplicit false

namespace BathroomRatings.Lib.Decimal

def decimal (value : Int) : List Char :=
  if value < 0 then '-' :: Nat.toDigits 10 value.natAbs
  else Nat.toDigits 10 value.natAbs

def digitsValue (digits : List Char) : Nat := Nat.ofDigitChars 10 digits 0

theorem decimal_natCast (value : Nat) : decimal value = Nat.toDigits 10 value := by
  simp [decimal]

theorem decimal_nonneg {value : Int} (nonneg : 0 ≤ value) :
    decimal value = Nat.toDigits 10 value.toNat := by
  obtain ⟨n, rfl⟩ := Int.eq_ofNat_of_zero_le nonneg
  exact decimal_natCast n

theorem decimal_ne_nil (value : Int) : decimal value ≠ [] := by
  unfold decimal
  split
  · simp
  · exact Nat.toDigits_ne_nil

theorem decimal_digits {value : Int} (nonneg : 0 ≤ value) :
    ∀ c ∈ decimal value, c.isDigit = true := by
  intro c member
  rw [decimal_nonneg nonneg] at member
  exact Nat.isDigit_of_mem_toDigits (by norm_num) (by norm_num) member

theorem digitsValue_decimal {value : Int} (nonneg : 0 ≤ value) :
    (digitsValue (decimal value) : Int) = value := by
  rw [decimal_nonneg nonneg, digitsValue, Nat.ofDigitChars_ten_toDigits]
  exact Int.toNat_of_nonneg nonneg

theorem minus_not_mem_toDigits (n : Nat) : '-' ∉ Nat.toDigits 10 n := by
  intro member
  have digit := Nat.isDigit_of_mem_toDigits (by norm_num) (by norm_num) member
  exact absurd digit (by decide)

theorem not_mem_decimal {c : Char} (notDigit : c.isDigit = false) (notMinus : c ≠ '-')
    (value : Int) : c ∉ decimal value := by
  have noDigit : c ∉ Nat.toDigits 10 value.natAbs := by
    intro member
    have digit := Nat.isDigit_of_mem_toDigits (by norm_num) (by norm_num) member
    rw [notDigit] at digit
    exact absurd digit (by simp)
  unfold decimal
  split
  · simp [notMinus, noDigit]
  · exact noDigit

theorem decimal_injective {first second : Int} (same : decimal first = decimal second) :
    first = second := by
  unfold decimal at same
  have natEq : ∀ m n : Nat, Nat.toDigits 10 m = Nat.toDigits 10 n → m = n := by
    intro m n digits
    have values := congrArg (fun s => Nat.ofDigitChars 10 s 0) digits
    simpa using values
  split at same <;> split at same
  · have magnitudes := natEq _ _ (List.cons_inj_right _ |>.mp same)
    omega
  · exact absurd (same ▸ List.mem_cons_self) (minus_not_mem_toDigits second.natAbs)
  · exact absurd (same.symm ▸ List.mem_cons_self) (minus_not_mem_toDigits first.natAbs)
  · have magnitudes := natEq _ _ same
    omega

end BathroomRatings.Lib.Decimal
