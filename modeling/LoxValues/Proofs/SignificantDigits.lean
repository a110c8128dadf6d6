import LoxValues.Proofs.FloatText

/-!
# Significant digits

The digits of a text that count are those between the zeros in front and the zeros at the end; the
point and the sign do not count.  Positional notation keeps the digits that count
(`significantDigits_positional`), every decimal can be written with them alone
(`Decimal.exists_significant`), and with the place of the point they say how large it is
(`Decimal.value_lt`, `Decimal.pow_le_value`).
-/

set_option autoImplicit false
namespace LoxValues

open Text

/-- The digits among some characters, without zeros at either end. -/
def significantDigits (cs : List Char) : List Char := trim (· == '0') (cs.filter Char.isDigit)

/-- How many significant digits a text has. -/
def significant (s : String) : Nat := (significantDigits s.toList).length

/-- How many significant digits a decimal has. -/
def Decimal.significant (d : Decimal) : Nat := (significantDigits d.digits).length

theorem filter_isDigit {cs : List Char} (digits : ∀ c ∈ cs, c.isDigit = true) :
    cs.filter Char.isDigit = cs :=
  List.filter_eq_self.mpr digits

/-- Zeros that fill up positional notation do not count, and neither do the point and the sign. -/
theorem significantDigits_positional (d : Decimal) :
    significantDigits d.positional = significantDigits d.digits := by
  have digits := filter_isDigit d.isDigit_of_mem_digits
  have zeros (n : Nat) := filter_isDigit (Decimal.isDigit_of_mem_zeros n)
  rw [significantDigits, significantDigits, Decimal.positional, digits]
  split_ifs with behind integer
  · have front : ['0', '.'].filter Char.isDigit = ['0'] := by decide
    rw [List.filter_append, List.filter_append, digits, zeros, front, List.singleton_append,
      List.cons_append, trim_cons rfl, trim_append_left (by simp)]
  · rw [List.filter_append, digits, zeros, trim_append_right (by simp)]
  · rw [List.filter_append, List.filter_cons_of_neg (by decide), ← List.filter_append,
      List.take_append_drop, digits]

theorem significant_signed (negative : Bool) (cs : List Char) :
    significant (signed negative cs) = (significantDigits cs).length := by
  rw [significant, signed, String.toList_ofList]
  cases negative with
  | false => rfl
  | true =>
    rw [if_pos rfl, significantDigits, List.filter_cons_of_neg (by decide)]
    rfl

namespace Decimal

/-- How many digits the coefficient has. -/
theorem length_digits_le_iff (d : Decimal) {n : Nat} (pos : 0 < n) :
    d.digits.length ≤ n ↔ d.coefficient < 10 ^ n :=
  Nat.length_toDigits_le_iff (by decide) pos

theorem significant_eq_length {d : Decimal} (counts : d.coefficient % 10 ≠ 0) :
    d.significant = d.digits.length := by
  rw [significant, significantDigits, filter_isDigit d.isDigit_of_mem_digits, trim_eq_self]
  · rintro c first
    have sharp := head?_toDigits_ne_zero (n := d.coefficient) (by omega)
    rw [← digits, first] at sharp
    simpa using sharp
  · rintro c last
    have sharp := getLast?_toDigits_ne_zero counts
    rw [← digits, last] at sharp
    simpa using sharp

/-- A zero at the end of the coefficient may as well stand in the exponent. -/
theorem significant_ten_mul {c : Nat} (pos : 0 < c) (e f : Int) :
    significant ⟨10 * c, e⟩ = significant ⟨c, f⟩ := by
  have digits : digits ⟨10 * c, e⟩ = digits ⟨c, f⟩ ++ ['0'] := by
    show Nat.toDigits 10 (10 * c) = Nat.toDigits 10 c ++ ['0']
    rw [Nat.toDigits_of_base_le (by decide) (by omega), Nat.mul_div_cancel_left _ (by decide),
      Nat.mul_mod_right]
    rfl
  rw [significant, significant, significantDigits, significantDigits, digits, List.filter_append]
  show (trim _ (_ ++ ['0'])).length = _
  rw [trim_concat rfl]

/-- Every decimal other than zero can be written with its significant digits alone. -/
theorem exists_significant {d : Decimal} (pos : 0 < d.coefficient) :
    ∃ s : Decimal, s.value = d.value ∧ d.significant = s.digits.length := by
  obtain ⟨c, e⟩ := d
  induction c using Nat.strongRecOn generalizing e with
  | ind c ih =>
    by_cases multiple : c % 10 = 0
    · obtain ⟨b, rfl⟩ := Nat.dvd_of_mod_eq_zero multiple
      have positive : 0 < b := by
        simp only at pos
        omega
      obtain ⟨s, value, length⟩ := ih b (by omega) (e + 1) positive
      exact ⟨s, by rw [value, value_ten_mul], by rw [significant_ten_mul positive e (e + 1), length]⟩
    · exact ⟨⟨c, e⟩, rfl, significant_eq_length multiple⟩

/-- Trailing zeros move a decimal to a finer grid. -/
theorem value_mul_pow (c j : Nat) (e : Int) : value ⟨c * 10 ^ j, e⟩ = value ⟨c, e + j⟩ := by
  rw [value, value, zpow_add₀ (by norm_num), zpow_natCast]
  push_cast
  ring

/-- The point says between which powers of ten a decimal lies. -/
theorem value_lt (d : Decimal) : d.value < 10 ^ d.point := by
  have bound := (d.length_digits_le_iff (List.length_pos_of_ne_nil d.digits_ne_nil)).mp le_rfl
  have boundQ : (d.coefficient : ℚ) < 10 ^ d.digits.length := by exact_mod_cast bound
  rw [value, point, zpow_add₀ (by norm_num), zpow_natCast]
  exact mul_lt_mul_of_pos_right boundQ (zpow_pos (by norm_num) _)

theorem pow_le_value {d : Decimal} (pos : 0 < d.coefficient) : (10 : ℚ) ^ (d.point - 1) ≤ d.value := by
  obtain ⟨n, length⟩ := Nat.exists_eq_add_of_le' (List.length_pos_of_ne_nil d.digits_ne_nil)
  have bound : 10 ^ n ≤ d.coefficient := by
    rcases Nat.eq_zero_or_pos n with rfl | some
    · exact pos
    · by_contra less
      have := (d.length_digits_le_iff some).mpr (not_le.mp less)
      omega
  have boundQ : (10 : ℚ) ^ n ≤ d.coefficient := by exact_mod_cast bound
  have place : d.point - 1 = n + d.exponent := by
    rw [point, length]
    push_cast
    ring
  rw [value, place, zpow_add₀ (by norm_num), zpow_natCast]
  exact mul_le_mul_of_nonneg_right boundQ (zpow_nonneg (by norm_num) _)

end Decimal
end LoxValues
