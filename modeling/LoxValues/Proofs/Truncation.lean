import LoxValues.Proofs.Narrowing
import LoxValues.World.Conversion

/-!
# Cutting off fractions

A float becomes an integer by losing its fraction, and what does not fit in 64 bits becomes the nearer
bound.

## What is here

* `IsIntegerPart` — the integer that is left of a rational number.  There is at most one
  (`IsIntegerPart.unique`), and it grows with the number (`IsIntegerPart.mono`).
* `saturate` — an integer held within the bounds.
* `Binary.Le` — the order of the numbers and infinities of a format.
* `Double.truncate_ofWord` — **`Double.truncate` is exact, saturates and is monotone**, for every word.
  A finite double becomes its integer part, saturated (`Double.exists_integerPart`).
-/

set_option autoImplicit false
namespace LoxValues

/-! ## Integer parts -/

/-- The integer that is left of a number when its fraction is cut off. -/
structure IsIntegerPart (q : ℚ) (r : ℤ) : Prop where
  /-- It is no farther from zero than the number. -/
  within : |(r : ℚ)| ≤ |q|
  /-- The integer after it, away from zero, is farther. -/
  beyond : |q| < |(r : ℚ)| + 1
  /-- It is zero, or on the number's side of zero. -/
  side : r = 0 ∨ 0 < r * q

theorem isIntegerPart_intCast (r : ℤ) : IsIntegerPart r r where
  within := le_rfl
  beyond := lt_add_one _
  side := by
    rcases eq_or_ne r 0 with zero | nonzero
    · exact .inl zero
    · have nonzeroQ : (r : ℚ) ≠ 0 := by exact_mod_cast nonzero
      exact .inr (mul_self_pos.mpr nonzeroQ)

/-- Above zero the integer part is the integer below. -/
theorem isIntegerPart_of_between {q : ℚ} {r : Nat} (low : r ≤ q) (high : q < r + 1) :
    IsIntegerPart q r := by
  have nonneg : 0 ≤ q := (Nat.cast_nonneg r).trans low
  refine ⟨?_, ?_, ?_⟩
  · rw [Int.cast_natCast, Nat.abs_cast, abs_of_nonneg nonneg]
    exact low
  · rw [Int.cast_natCast, Nat.abs_cast, abs_of_nonneg nonneg]
    exact high
  · rcases Nat.eq_zero_or_pos r with zero | positive
    · exact .inl (by exact_mod_cast zero)
    · have positiveQ : (0 : ℚ) < r := by exact_mod_cast positive
      rw [Int.cast_natCast]
      exact .inr (mul_pos positiveQ (positiveQ.trans_le low))

/-- A quotient of natural numbers leaves their quotient as an integer. -/
theorem isIntegerPart_div (num : Nat) {den : Nat} (pos : 0 < den) :
    IsIntegerPart (num / den) (num / den : ℤ) := by
  have posQ : (0 : ℚ) < den := by exact_mod_cast pos
  rw [← Int.natCast_ediv]
  apply isIntegerPart_of_between
  · rw [le_div_iff₀ posQ]
    exact_mod_cast Nat.div_mul_le_self num den
  · rw [div_lt_iff₀ posQ]
    exact_mod_cast Nat.lt_mul_of_div_lt (Nat.lt_succ_self (num / den)) pos

namespace IsIntegerPart

variable {p q : ℚ} {r s : ℤ}

theorem neg (part : IsIntegerPart q r) : IsIntegerPart (-q) (-r) where
  within := by
    rw [Int.cast_neg, abs_neg, abs_neg]
    exact part.within
  beyond := by
    rw [Int.cast_neg, abs_neg, abs_neg]
    exact part.beyond
  side := by
    rw [Int.cast_neg, neg_mul_neg, neg_eq_zero]
    exact part.side

/-- Above zero only the integer below is an integer part. -/
theorem of_nonneg (part : IsIntegerPart q r) (nonneg : 0 ≤ q) : 0 ≤ r ∧ r ≤ q ∧ q < r + 1 := by
  have nonnegR : 0 ≤ r := by
    rcases part.side with zero | same
    · exact zero.ge
    · have := pos_of_mul_pos_left same nonneg
      exact_mod_cast this.le
  have nonnegQ : (0 : ℚ) ≤ r := by exact_mod_cast nonnegR
  have within := part.within
  have beyond := part.beyond
  rw [abs_of_nonneg nonneg, abs_of_nonneg nonnegQ] at within beyond
  exact ⟨nonnegR, within, beyond⟩

/-- Below zero only the integer above is one. -/
theorem of_nonpos (part : IsIntegerPart q r) (nonpos : q ≤ 0) : r ≤ 0 ∧ q ≤ r ∧ r - 1 < q := by
  obtain ⟨side, within, beyond⟩ := part.neg.of_nonneg (neg_nonneg.mpr nonpos)
  rw [Int.cast_neg] at within beyond
  exact ⟨by omega, by linarith, by linarith⟩

/-- **Integer parts grow with the numbers.** -/
theorem mono (hr : IsIntegerPart p r) (hs : IsIntegerPart q s) (le : p ≤ q) : r ≤ s := by
  -- on one side of zero the integers are compared by what they leave of the numbers, and across zero
  -- by their signs
  rcases le_total 0 q with above | below
  · obtain ⟨sAbove, -, sBeyond⟩ := hs.of_nonneg above
    rcases le_total 0 p with pAbove | pBelow
    · have less : (r : ℚ) < s + 1 := ((hr.of_nonneg pAbove).2.1.trans le).trans_lt sBeyond
      have : r < s + 1 := by exact_mod_cast less
      omega
    · exact (hr.of_nonpos pBelow).1.trans sAbove
  · have less : (r : ℚ) - 1 < s :=
      ((hr.of_nonpos (le.trans below)).2.2.trans_le le).trans_le (hs.of_nonpos below).2.1
    have : r - 1 < s := by exact_mod_cast less
    omega

/-- There is only one integer part. -/
theorem unique (hr : IsIntegerPart q r) (hs : IsIntegerPart q s) : r = s :=
  le_antisymm (hr.mono hs le_rfl) (hs.mono hr le_rfl)

end IsIntegerPart

/-! ## Saturation -/

/-- An integer held within 64 bits: one beyond the bounds becomes the nearer bound. -/
def saturate (n : Int) : Int := max minInt (min maxInt n)

theorem saturate_range (n : Int) : minInt ≤ saturate n ∧ saturate n ≤ maxInt := by
  rw [saturate, minInt, maxInt]
  omega

theorem saturate_mono {m n : Int} (le : m ≤ n) : saturate m ≤ saturate n := by
  rw [saturate, saturate]
  omega

theorem saturate_of_range {n : Int} (range : minInt ≤ n ∧ n ≤ maxInt) : saturate n = n := by
  rw [saturate]
  omega

theorem saturate_of_ge {n : Int} (above : maxInt ≤ n) : saturate n = maxInt := by
  rw [maxInt] at above
  rw [saturate, minInt, maxInt]
  omega

theorem saturate_of_le {n : Int} (below : n ≤ minInt) : saturate n = minInt := by
  rw [minInt] at below
  rw [saturate, minInt, maxInt]
  omega

theorem isIntegerPart_minInt : IsIntegerPart (-2 ^ 63) minInt := by
  have part := isIntegerPart_intCast minInt
  have value : (minInt : ℚ) = -2 ^ 63 := by
    rw [minInt]
    norm_num
  rwa [value] at part

theorem isIntegerPart_succ_maxInt : IsIntegerPart (2 ^ 63) (maxInt + 1) := by
  have part := isIntegerPart_intCast (maxInt + 1)
  have value : ((maxInt + 1 : ℤ) : ℚ) = 2 ^ 63 := by
    rw [maxInt]
    norm_num
  rwa [value] at part

namespace IsIntegerPart

variable {q : ℚ} {r : ℤ}

/-- Within the bounds nothing but the fraction is lost. -/
theorem saturate_eq (part : IsIntegerPart q r) (low : -2 ^ 63 ≤ q) (high : q < 2 ^ 63) :
    saturate r = r := by
  refine saturate_of_range ⟨isIntegerPart_minInt.mono part low, ?_⟩
  rw [maxInt]
  rcases le_total 0 q with above | below
  · have less : (r : ℚ) < 2 ^ 63 := (part.of_nonneg above).2.1.trans_lt high
    have : r < 2 ^ 63 := by exact_mod_cast less
    omega
  · have := (part.of_nonpos below).1
    omega

theorem saturate_above (part : IsIntegerPart q r) (above : 2 ^ 63 ≤ q) : saturate r = maxInt :=
  saturate_of_ge ((Int.le_add_one le_rfl).trans (isIntegerPart_succ_maxInt.mono part above))

theorem saturate_below (part : IsIntegerPart q r) (below : q ≤ -2 ^ 63) : saturate r = minInt :=
  saturate_of_le (part.mono isIntegerPart_minInt below)

end IsIntegerPart

/-! ## Numbers in order -/

/-- The order of the numbers and the infinities of a format.  Not-a-number has no place in it. -/
inductive Binary.Le {f : Format} : Binary f → Binary f → Prop
  /-- Nothing is below the negative infinity. -/
  | bottom {y : Binary f} (number : y ≠ .nan) : Le (.infinite true) y
  /-- Nothing is above the positive infinity. -/
  | top {x : Binary f} (number : x ≠ .nan) : Le x (.infinite false)
  /-- Finite data are in the order of the numbers that they stand for. -/
  | finite {x y : Binary f} (left : x.isFinite = true) (right : y.isFinite = true)
      (le : x.exact ≤ y.exact) : Le x y

namespace Double

/-- A finite double becomes its integer part, held within the bounds. -/
theorem exists_integerPart {x : Double} (finite : x.isFinite = true) :
    ∃ r, IsIntegerPart x.exact r ∧ x.truncate = saturate r := by
  obtain ⟨negative, r, rfl⟩ := Binary.exists_finite finite
  have part : IsIntegerPart (Format.double.magnitude r)
      (Format.double.units r / Format.double.one : ℤ) := isIntegerPart_div _ Format.double.one_pos
  have nonneg := (part.of_nonneg (Format.double.magnitude_nonneg r)).1
  cases negative with
  | false =>
    refine ⟨_, part, ?_⟩
    show min maxInt _ = max minInt (min maxInt _)
    rw [minInt, maxInt]
    omega
  | true =>
    refine ⟨_, part.neg, ?_⟩
    show max minInt _ = max minInt (min maxInt _)
    rw [minInt, maxInt]
    omega

theorem truncate_range (x : Double) : minInt ≤ x.truncate ∧ x.truncate ≤ maxInt := by
  cases x with
  | nan => decide
  | infinite negative => cases negative <;> decide
  | finite negative r =>
    obtain ⟨whole, -, result⟩ := exists_integerPart (x := .finite negative r) rfl
    rw [result]
    exact saturate_range whole

theorem truncate_mono {x y : Double} (le : x.Le y) : x.truncate ≤ y.truncate := by
  cases le with
  | bottom => exact y.truncate_range.1
  | top => exact x.truncate_range.2
  | finite left right le =>
    obtain ⟨r, hr, hx⟩ := exists_integerPart left
    obtain ⟨s, hs, hy⟩ := exists_integerPart right
    rw [hx, hy]
    exact saturate_mono (hr.mono hs le)

/-- **Cutting off the fraction of a double** is exact, saturates and is monotone.  For every word, the
result fits in 64 bits and comes without a record.  It is zero for not-a-number and a bound for an
infinity.  The finite number of a word has one integer part, which is the result from `-2 ^ 63` up to,
but not including, `2 ^ 63`; beyond these the result is the bound on that side.  And of two numbers in
order the results are in order. -/
theorem truncate_ofWord (word : Nat) :
    (∀ (w : World) (box : Nat),
      w.toInteger (.float (ofWord word) box) = (.ok (ofWord word).truncate, w)) ∧
    (minInt ≤ (ofWord word).truncate ∧ (ofWord word).truncate ≤ maxInt) ∧
    (HoldsNaN word → (ofWord word).truncate = 0) ∧
    (HoldsInfinity word → (ofWord word).truncate = if wordSign word then minInt else maxInt) ∧
    (wordExponent word < 2047 →
      ((ofWord word).isFinite = true ∧ (ofWord word).exact = wordValue word) ∧
      (-2 ^ 63 ≤ wordValue word → wordValue word < 2 ^ 63 →
        ∀ r, IsIntegerPart (wordValue word) r ↔ r = (ofWord word).truncate) ∧
      (2 ^ 63 ≤ wordValue word → (ofWord word).truncate = maxInt) ∧
      (wordValue word < -2 ^ 63 → (ofWord word).truncate = minInt)) ∧
    ∀ other, (ofWord word).Le (ofWord other) →
      (ofWord word).truncate ≤ (ofWord other).truncate := by
  refine ⟨fun w box => rfl, truncate_range _, fun nan => ?_, fun infinity => ?_, fun finite => ?_,
    fun other => truncate_mono⟩
  · rw [ofWord_of_nan nan]
    rfl
  · rw [ofWord_of_infinity infinity]
    cases wordSign word <;> rfl
  · obtain ⟨r, holds, magnitude⟩ := exists_ofWord_eq finite
    have number : (ofWord word).isFinite = true := by
      rw [holds]
      rfl
    have value : (ofWord word).exact = wordValue word := by
      rw [holds, Binary.exact, magnitude, wordValue]
    obtain ⟨whole, part, result⟩ := exists_integerPart number
    rw [value] at part
    refine ⟨⟨number, value⟩, fun low high r => ?_, fun above => ?_, fun below => ?_⟩
    · rw [result, part.saturate_eq low high]
      constructor
      · exact fun other => other.unique part
      · rintro rfl
        exact part
    · rw [result, part.saturate_above above]
    · rw [result, part.saturate_below below.le]

/-- The bounds are not alike: `-2 ^ 63` is kept, and `2 ^ 63` is not. -/
example :
    (ofWord 0xC3E0000000000000).truncate = -2 ^ 63 ∧
    (ofWord 0x43E0000000000000).truncate = 2 ^ 63 - 1 := by
  decide +kernel

end Double
end LoxValues
