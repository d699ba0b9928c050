import Mathlib.Data.Nat.Digits.Defs
import Mathlib.Tactic.Common

/-!
# Hexadecimal text

Numbers as the formatted print of the C library writes them in base 16: capital digits without
leading zeros, padded with blanks up to the width.
-/

namespace HexText

/-- The digit of a number below 16. -/
def digit (d : Nat) : UInt8 := .ofNat (if d < 10 then 0x30 + d else 0x37 + d)

/-- `%X`. -/
def print (n : Nat) : List UInt8 :=
  if n = 0 then [digit 0] else (Nat.digits 16 n).reverse.map digit

/-- `%X` with a width. -/
def padded (width n : Nat) : List UInt8 :=
  List.replicate (width - (print n).length) 0x20 ++ print n

/-- A digit of either case. -/
def IsDigit (c : UInt8) : Prop :=
  (0x30 ≤ c ∧ c ≤ 0x39) ∨ (0x41 ≤ c ∧ c ≤ 0x46) ∨ (0x61 ≤ c ∧ c ≤ 0x66)

instance (c : UInt8) : Decidable (IsDigit c) := by unfold IsDigit; infer_instance

/-! ## Digits -/

theorem isDigit_digit {d : Nat} (low : d < 16) : IsDigit (digit d) := by
  have all : ∀ d < 16, IsDigit (digit d) := by decide
  exact all d low

theorem digit_ne_zero {d : Nat} (low : d < 16) : digit d ≠ 0 := by
  have all : ∀ d < 16, digit d ≠ 0 := by decide
  exact all d low

/-! ## Bytes -/

theorem print_low {n : Nat} (low : n < 16) : print n = [digit n] := by
  unfold print
  by_cases zero : n = 0
  · rw [if_pos zero, zero]
  · rw [if_neg zero, Nat.digits_of_lt 16 n zero low]
    rfl

theorem print_high {n : Nat} (high : 16 ≤ n) (byte : n < 256) :
    print n = [digit (n / 16), digit (n % 16)] := by
  have leading : n / 16 ≠ 0 := by omega
  have digits : Nat.digits 16 n = [n % 16, n / 16] := by
    rw [Nat.digits_def' (by decide) (by omega), Nat.digits_of_lt 16 _ leading (by omega)]
  rw [print, if_neg (by omega), digits]
  rfl

/-- A byte below 16 has one digit, and a blank stands in front of it. -/
theorem padded_low {n : Nat} (low : n < 16) : padded 2 n = [0x20, digit n] := by
  rw [padded, print_low low]
  rfl

theorem padded_high {n : Nat} (high : 16 ≤ n) (byte : n < 256) :
    padded 2 n = [digit (n / 16), digit (n % 16)] := by
  rw [padded, print_high high byte]
  rfl

theorem length_padded {n : Nat} (byte : n < 256) : (padded 2 n).length = 2 := by
  by_cases low : n < 16
  · rw [padded_low low]
    rfl
  · rw [padded_high (by omega) byte]
    rfl

theorem zero_notMem_padded {n : Nat} (byte : n < 256) : 0 ∉ padded 2 n := by
  by_cases low : n < 16
  · have := digit_ne_zero low
    rw [padded_low low]
    simpa [eq_comm] using this
  · have first := digit_ne_zero (show n / 16 < 16 by omega)
    have second := digit_ne_zero (show n % 16 < 16 by omega)
    rw [padded_high (by omega) byte]
    simp [eq_comm, first, second]

end HexText
