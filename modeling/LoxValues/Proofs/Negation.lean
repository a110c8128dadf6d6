import LoxValues.Proofs.Likeness
import LoxValues.Proofs.Payload
import LoxValues.Proofs.Truncation

/-!
# Unary minus

Unary minus is its own inverse on integers and on floats, though the two kinds are not alike: integers
wrap, and one of them besides zero is its own negative, while floats change nothing but their sign.

Both conversions respect it as far as they can.  Rounding is symmetric about zero, so an integer and
its negative become opposite floats; the least integer has no negative to begin with.  Cutting off a
fraction is symmetric, too, and only the bounds of 64 bits are not: `-2 ^ 63` is an integer and
`2 ^ 63` is not.

## What is here

* `Value.wrap_neg` — where the negative of an integer is, and that the least one stays.
* `Double.ofInt_neg` — an integer and its negative are rounded alike.
* `Double.truncate_negate`, `Double.truncate_negate_of_far` — cutting off the fraction on both sides of
  zero, within the bounds and beyond them.
* `World.negate_involution` — all of it for the values that hold numbers.
-/

set_option autoImplicit false
namespace LoxValues

namespace Binary

variable {f : Format}

@[simp] theorem negate_negate (x : Binary f) : x.negate.negate = x := by
  cases x <;> simp [negate]

@[simp] theorem exact_negate (x : Binary f) : x.negate.exact = -x.exact := by
  cases x with
  | nan => exact neg_zero.symm
  | infinite negative => exact neg_zero.symm
  | finite negative r => cases negative <;> simp [negate, exact, withSign]

@[simp] theorem isFinite_negate (x : Binary f) : x.negate.isFinite = x.isFinite := by
  cases x <;> rfl

end Binary

/-! ## Integers -/

namespace Value

/-- **The negative of an integer** is in range, except that of the least integer, which wraps back to
where it was. -/
theorem wrap_neg {n : Int} (range : minInt ≤ n ∧ n ≤ maxInt) :
    wrap (-n) = if n = minInt then minInt else -n := by
  rw [minInt, maxInt] at range
  rw [wrap, minInt]
  split_ifs with least
  · rw [least]
    rfl
  · exact Int.bmod_eq_of_le (by omega) (by omega)

/-- The sum of an integer and what it is negated to is a multiple of `2 ^ 64`. -/
theorem add_wrap_neg (n : Int) : (n + wrap (-n)) % 2 ^ 64 = 0 := by
  have same : wrap (-n) % 2 ^ 64 = -n % 2 ^ 64 := Int.bmod_emod
  rw [Int.add_emod, same, ← Int.add_emod, add_neg_cancel, Int.zero_emod]

theorem wrap_neg_wrap_neg {n : Int} (range : minInt ≤ n ∧ n ≤ maxInt) :
    wrap (-wrap (-n)) = n := by
  rw [wrap_neg (range_wrap (-n)), wrap_neg range]
  by_cases least : n = minInt
  · simp [least]
  · rw [minInt, maxInt] at range
    rw [if_neg least, if_neg (by rw [minInt]; omega), neg_neg]

theorem wrap_neg_eq_self_iff {n : Int} (range : minInt ≤ n ∧ n ≤ maxInt) :
    wrap (-n) = n ↔ n = 0 ∨ n = minInt := by
  rw [wrap_neg range]
  split_ifs with least
  · simp [least]
  · omega

end Value

namespace Double

/-- Rounding is symmetric about zero.  Zero itself has only one sign as an integer. -/
theorem ofInt_neg {n : Int} (nonzero : n ≠ 0) : ofInt (-n) = (ofInt n).negate := by
  have sign : decide (-n < 0) = !decide (n < 0) := by
    rw [← decide_not, decide_eq_decide]
    omega
  rw [ofInt, ofInt, sign, Int.natAbs_neg, Binary.ofRatio, Binary.ofRatio, Binary.negate_ofRank]

/-! ## Floats -/

/-- Not-a-number, or a number whose integer part fits in 64 bits with either sign. -/
def IsNear (x : Double) : Prop := x = .nan ∨ x.isFinite = true ∧ |x.exact| < 2 ^ 63

/-- **Within the bounds** the fraction is cut off alike on both sides of zero. -/
theorem truncate_negate {x : Double} (near : x.IsNear) :
    truncate x.negate = -x.truncate := by
  obtain rfl | ⟨finite, bound⟩ := near
  · rfl
  · obtain ⟨low, high⟩ := abs_lt.mp bound
    obtain ⟨r, part, result⟩ := exists_integerPart finite
    obtain ⟨s, negated, result'⟩ := exists_integerPart (x := x.negate) (by simpa using finite)
    rw [Binary.exact_negate] at negated
    obtain rfl : s = -r := negated.unique part.neg
    rw [result, result', part.saturate_eq low.le high, negated.saturate_eq (by linarith) (by linarith)]

/-- **Beyond the bounds** a float and its negative become the two bounds. -/
theorem truncate_negate_of_far {x : Double} (far : ¬ x.IsNear) :
    x.truncate = maxInt ∧ truncate x.negate = minInt ∨
      x.truncate = minInt ∧ truncate x.negate = maxInt := by
  rw [IsNear, not_or, not_and, not_lt] at far
  obtain ⟨number, beyond⟩ := far
  cases finite : x.isFinite with
  | true =>
    obtain ⟨r, part, result⟩ := exists_integerPart finite
    obtain ⟨s, negated, result'⟩ := exists_integerPart (x := x.negate) (by simpa using finite)
    rw [Binary.exact_negate] at negated
    rw [result, result']
    rcases le_abs.mp (beyond finite) with above | below
    · exact .inl ⟨part.saturate_above above, negated.saturate_below (by linarith)⟩
    · exact .inr ⟨part.saturate_below (by linarith), negated.saturate_above below⟩
  | false =>
    cases x with
    | nan => exact absurd rfl number
    | infinite negative => cases negative <;> simp [truncate, Binary.negate]
    | finite negative r => cases finite

end Double

/-! ## Values -/

/-- A number and its negative, of the same variant, and what becomes of the two by conversion. -/
inductive Value.Opposite : Value → Value → Prop
  /-- Two integers.  Their floats are opposite, too, unless the integers are the least one. -/
  | int {n m : Int} (cancel : (n + m) % 2 ^ 64 = 0) (fixed : m = n ↔ n = 0 ∨ n = minInt)
      (floats : n ≠ minInt → ∃ x y : Double,
        (∀ w : World, w.toFloat (.int n) = (.ok x, w) ∧ w.toFloat (.int m) = (.ok y, w)) ∧
        y.numEq x.negate = true ∧ (n ≠ 0 → y = x.negate)) :
      Opposite (.int n) (.int m)
  /-- Two floats.  Their integers are opposite, too, within the bounds, and are the bounds beyond. -/
  | float {x : Double} {i j : Nat} {a b : Int}
      (integers : ∀ w : World, w.toInteger (.float x i) = (.ok a, w) ∧
        w.toInteger (.float x.negate j) = (.ok b, w))
      (near : x.IsNear → b = -a)
      (far : ¬ x.IsNear → a = maxInt ∧ b = minInt ∨ a = minInt ∧ b = maxInt) :
      Opposite (.float x i) (.float x.negate j)

theorem Value.opposite_int {n : Int} (range : minInt ≤ n ∧ n ≤ maxInt) :
    Opposite (.int n) (.int (wrap (-n))) := by
  refine .int (add_wrap_neg n) (wrap_neg_eq_self_iff range) fun other => ?_
  refine ⟨(Double.ofInt n).toSingle, (Double.ofInt (wrap (-n))).toSingle, fun w => ⟨rfl, rfl⟩, ?_⟩
  rw [wrap_neg range, if_neg other]
  by_cases zero : n = 0
  · subst zero
    exact ⟨by decide +kernel, fun nonzero => absurd rfl nonzero⟩
  · rw [Double.ofInt_neg zero, Double.toSingle_negate]
    have number : (Double.ofInt n).toSingle ≠ .nan :=
      Binary.convert_ne_nan (Binary.convert_ne_nan (Binary.ofRank_ne_nan _ _))
    exact ⟨Binary.numEq_self_iff.mpr (Binary.negate_ne_nan number), fun _ => rfl⟩

theorem Value.opposite_float (x : Double) (i j : Nat) : Opposite (.float x i) (.float x.negate j) :=
  .float (fun _ => ⟨rfl, rfl⟩) Double.truncate_negate Double.truncate_negate_of_far

/-- **Unary minus is an involution on numbers that agrees with both conversions.**  A value that holds
an integer or a float has a negative, of the same variant and without a record, and the negative of that
is the value again, bit for bit, with a box of its own if it is a float.  An integer and its negative add
up to a multiple of `2 ^ 64`, and only zero and the least integer are their own negatives.  The float of
the negative is the negative of the float, for integers other than the least.  The integer of the
negative is the negative of the integer, for floats within the bounds of 64 bits and for not-a-number;
for all others the two are the bounds. -/
theorem World.negate_involution {v : Value} (number : v.isNumber = true) (fits : v.Fits) (i j : Nat) :
    ∃ u, (∀ w : World, w.negate v i = (.ok u, w) ∧ w.negate u j = (.ok (v.inBox j), w)) ∧ u.Fits ∧
      v.Opposite u := by
  obtain ⟨u, negated⟩ := Value.exists_negated? number i
  have back : u.negated? j = some (v.inBox j) ∧ v.Opposite u := by
    cases v with
    | int n =>
      cases negated
      exact ⟨congrArg (some ∘ Value.int) (Value.wrap_neg_wrap_neg fits), Value.opposite_int fits⟩
    | float x box =>
      cases negated
      exact ⟨congrArg (fun y => some (Value.float y j)) x.negate_negate, Value.opposite_float x box i⟩
    | _ => cases number
  exact ⟨u, fun w => ⟨negate_of_negated negated, negate_of_negated back.1⟩,
    Value.fits_negated? fits negated, back.2⟩

/-- The least integer is its own negative. -/
theorem World.negate_leastInteger :
    (Value.int minInt).isNumber = true ∧ (Value.int minInt).Fits ∧
    ∃ u, (∀ w : World, w.negate (.int minInt) 0 = (.ok u, w)) ∧ (Value.int minInt).Opposite u := by
  have fits : (Value.int minInt).Fits := ⟨by decide, by decide⟩
  obtain ⟨u, negated, -, opposite⟩ := negate_involution (v := .int minInt) rfl fits 0 0
  exact ⟨rfl, fits, u, fun w => (negated w).1, opposite⟩

end LoxValues
