import LoxValues.Proofs.IntegerRoundTrip
import LoxValues.Proofs.Negation

/-!
# Truthiness of numbers

A number is falsy if it is zero, and it is asked for that in the form in which a value holds it: an
integer as it is, and a float after rounding.  Rounding makes a zero of some numbers that are none, but
of no integer, and unary minus makes a zero of nothing else, though it wraps.

## What is here

* `Binary.isZero_convert_iff` — **where underflow ends**: what rounds to zero is at most half as great as
  the least positive number of the format.  The half itself does, since zero is the even one of the two.
* `Double.isZero_toSingle_iff` — the same for the payloads of floats.
* `Double.IsFraction` — the numbers of which nothing is left when the fraction is cut off
  (`Double.truncate_eq_zero_iff`).
* `Value.TruthFollows` — what unary minus and cutting off the fraction do to truthiness.
* `World.truthiness_consistent` — all of it for the values that hold numbers.
-/

set_option autoImplicit false
namespace LoxValues

/-! ## Zeros -/

theorem withSign_eq_zero_iff {negative : Bool} {q : ℚ} : withSign negative q = 0 ↔ q = 0 := by
  cases negative with
  | false => exact Iff.rfl
  | true => exact neg_eq_zero

namespace Format

variable {f : Format}

theorem magnitude_eq_zero_iff {r : Nat} : f.magnitude r = 0 ↔ r = 0 := by
  rw [← f.magnitude_zero, f.magnitude_strictMono.injective.eq_iff]

/-- A number goes to zero up to the middle between zero and the least positive magnitude. -/
theorem Nearest.eq_zero_iff {q : ℚ} {r : Nat} (nearest : f.Nearest q r) :
    r = 0 ↔ 2 * q ≤ f.magnitude 1 := by
  constructor
  · rintro rfl
    simpa [magnitude_zero] using nearest.le_middle Nat.zero_lt_one
  · intro small
    by_contra positive
    have beyond := nearest.middle_le (Nat.pos_of_ne_zero positive)
    rw [magnitude_zero, zero_add] at beyond
    -- only the middle is left, which does not go to the first rank, as that is odd
    have first : r = 1 := by
      have : r ≤ 1 := f.magnitude_strictMono.le_iff_le.mp (beyond.trans small)
      omega
    subst first
    have even := nearest.even_of_middle (s := 0) (by decide) (by
      rw [magnitude_zero]
      linarith)
    exact absurd even (by decide)

theorem single_magnitude_one : single.magnitude 1 = 2 ^ (-149 : ℤ) := by
  have significand : single.significand 1 = 1 := by decide
  have exponent : single.exponent 1 = -149 := by decide
  rw [magnitude_eq, significand, exponent, Nat.cast_one, one_mul]

end Format

namespace Binary

variable {f g : Format}

theorem isZero_iff_exact {x : Binary f} : x.isZero = true ↔ x.isFinite = true ∧ x.exact = 0 := by
  cases x with
  | nan => simp [isZero, isFinite]
  | infinite negative => simp [isZero, isFinite]
  | finite negative r =>
    simp [isZero, isFinite, exact, withSign_eq_zero_iff, Format.magnitude_eq_zero_iff]

theorem isZero_ofRank (finite : 0 < f.infinity) {negative : Bool} {r : Nat} :
    (ofRank negative r : Binary f).isZero = true ↔ r = 0 := by
  rw [ofRank]
  split
  · simp [isZero]
  · exact iff_of_false (by simp [isZero]) (by omega)

/-- **Where underflow ends.**  What is rounded to zero is at most half of the least positive number. -/
theorem isZero_convert_iff (precise : 2 ≤ g.precision) (finite : 0 < g.infinity) {x : Binary f} :
    (x.convert g).isZero = true ↔ x.isFinite = true ∧ 2 * |x.exact| ≤ g.magnitude 1 := by
  cases x with
  | nan => simp [convert, isZero, isFinite]
  | infinite negative => simp [convert, isZero, isFinite]
  | finite negative r =>
    obtain ⟨s, nearest, rounded⟩ := isNearest_convert precise negative r
    rw [rounded, isZero_ofRank finite, nearest.eq_zero_iff, exact,
      abs_withSign negative (f.magnitude_nonneg _)]
    simp [isFinite]

end Binary

namespace Single

theorem isZero_widened (z : Single) : (z.convert Format.double).isZero = z.isZero := by
  cases z with
  | nan => rfl
  | infinite negative => rfl
  | finite negative r =>
    obtain ⟨finite, same⟩ := exact_convert (z := .finite negative r) rfl
    rw [Bool.eq_iff_iff, Binary.isZero_iff_exact, Binary.isZero_iff_exact, finite, same]
    rfl

/-- No integer but zero comes anywhere near zero. -/
theorem exact_ofInt_eq_zero_iff {n : Int} (range : minInt ≤ n ∧ n ≤ maxInt) :
    (ofInt n).exact = 0 ↔ n = 0 := by
  have small {k : ℤ} (one : |k| ≤ 1) : IsNumber k := isNumber_intCast (one.trans_lt (by norm_num))
  constructor
  · intro zero
    by_contra nonzero
    rcases Int.lt_or_gt_of_ne nonzero with below | above
    · have le := exact_ofInt_le range (small (k := -1) le_rfl) (by exact_mod_cast (by omega : n ≤ -1))
      rw [zero] at le
      norm_num at le
    · have le := le_exact_ofInt range (small (k := 1) le_rfl) (by exact_mod_cast (by omega : 1 ≤ n))
      rw [zero] at le
      norm_num at le
  · rintro rfl
    rw [exact_ofInt_of_isNumber range (small (by norm_num)), Int.cast_zero]

end Single

namespace Double

/-- **What becomes a zero in a float**: nothing that is greater than `2 ^ -150`. -/
theorem isZero_toSingle_iff {x : Double} :
    x.toSingle.isZero = true ↔ x.isFinite = true ∧ |x.exact| ≤ 2 ^ (-150 : ℤ) := by
  have half : Format.single.magnitude 1 = 2 * 2 ^ (-150 : ℤ) := by
    rw [Format.single_magnitude_one]
    norm_num
  rw [toSingle, Single.isZero_widened, Binary.isZero_convert_iff (by decide) (by decide), half,
    mul_le_mul_iff_right₀ (by norm_num)]

theorem isZero_toSingle_ofInt_iff {n : Int} (range : minInt ≤ n ∧ n ≤ maxInt) :
    (ofInt n).toSingle.isZero = true ↔ n = 0 := by
  rw [toSingle, Single.isZero_widened, ← Single.ofInt, Binary.isZero_iff_exact,
    Single.exact_ofInt_eq_zero_iff range]
  exact and_iff_right (Single.isFinite_ofInt range)

end Double

/-! ## Fractions -/

theorem IsIntegerPart.eq_zero_iff {q : ℚ} {r : ℤ} (part : IsIntegerPart q r) : r = 0 ↔ |q| < 1 := by
  constructor
  · rintro rfl
    simpa using part.beyond
  · intro small
    have below : |(r : ℚ)| < 1 := part.within.trans_lt small
    exact Int.abs_lt_one_iff.mp (by exact_mod_cast below)

theorem saturate_eq_zero_iff {n : Int} : saturate n = 0 ↔ n = 0 := by
  rw [saturate, minInt, maxInt]
  omega

namespace Double

/-- A number other than zero of which nothing is left when the fraction is cut off. -/
def IsFraction (x : Double) : Prop := x.isFinite = true ∧ x.exact ≠ 0 ∧ |x.exact| < 1

theorem truncate_eq_zero_iff {x : Double} :
    x.truncate = 0 ↔ x = .nan ∨ x.isFinite = true ∧ |x.exact| < 1 := by
  cases finite : x.isFinite with
  | true =>
    obtain ⟨r, part, result⟩ := exists_integerPart finite
    have number : x ≠ .nan := by
      rintro rfl
      cases finite
    rw [result, saturate_eq_zero_iff, part.eq_zero_iff]
    simp [number]
  | false =>
    cases x with
    | nan => simp [truncate]
    | infinite negative => cases negative <;> simp [truncate, minInt, maxInt]
    | finite negative r => cases finite

/-- Cutting off the fraction makes a zero of what is none in two cases only. -/
theorem isZero_iff_truncate_iff {x : Double} :
    (x.isZero = true ↔ x.truncate = 0) ↔ x ≠ .nan ∧ ¬ x.IsFraction := by
  rw [Binary.isZero_iff_exact, truncate_eq_zero_iff, IsFraction]
  rcases eq_or_ne x .nan with rfl | number
  · simp [Binary.isFinite]
  · have within (zero : x.exact = 0) : |x.exact| < 1 := by simp [zero]
    tauto

end Double

/-! ## Values -/

namespace Value

/-- What follows from the truthiness of a number. -/
structure TruthFollows (v : Value) (truth : Bool) : Prop where
  /-- It is what asking for it gives. -/
  asked : v.isTruthy = .ok truth
  /-- Unary minus keeps it. -/
  negated : ∀ box, ∃ u, (∀ w : World, w.negate v box = (.ok u, w)) ∧ u.isTruthy = .ok truth
  /-- The integer part has it, too, just if the number is not a fraction and not not-a-number. -/
  whole : ∃ i, (∀ w : World, w.toInteger v = (.ok i, w)) ∧
    (truth = (i != 0) ↔ ∀ x box, v = .float x box → x ≠ .nan ∧ ¬ x.IsFraction)

theorem wrap_neg_eq_zero_iff {n : Int} (range : minInt ≤ n ∧ n ≤ maxInt) : wrap (-n) = 0 ↔ n = 0 := by
  rw [wrap_neg range]
  split_ifs with least
  · rw [least, minInt]
  · exact neg_eq_zero

theorem truthFollows_int {n : Int} (range : minInt ≤ n ∧ n ≤ maxInt) :
    (int n).TruthFollows (n != 0) where
  asked := rfl
  negated box := by
    refine ⟨.int (wrap (-n)), fun w => rfl, congrArg Except.ok ?_⟩
    rw [Bool.eq_iff_iff, bne_iff_ne, bne_iff_ne, Ne, wrap_neg_eq_zero_iff range]
  whole := ⟨n, fun w => rfl, iff_of_true rfl nofun⟩

theorem truthFollows_float (x : Double) (box : Nat) : (float x box).TruthFollows (!x.isZero) where
  asked := rfl
  negated i := ⟨.float x.negate i, fun w => rfl, congrArg (fun b => Except.ok !b) x.isZero_negate⟩
  whole := by
    refine ⟨x.truncate, fun w => rfl, ?_⟩
    have same : ((!x.isZero) = (x.truncate != 0)) ↔ (x.isZero = true ↔ x.truncate = 0) := by
      rw [Bool.eq_iff_iff, bne_iff_ne, Bool.not_eq_true', ← Bool.not_eq_true, not_iff_not]
    rw [same, Double.isZero_iff_truncate_iff]
    constructor
    · rintro sharp y i same
      cases same
      exact sharp
    · exact fun sharp => sharp x box rfl

end Value

/-- **Truthiness of numbers is consistent with conversion and rounding.**  An integer of 64 bits is truthy
just if the float that it is converted to is.  A value that holds a number has a truthiness, which unary
minus keeps.  Its integer part is other than zero just if it is truthy, unless it is not-a-number or a
float strictly between `-1` and `1` that is not zero; and for all of these it is the other way.  The value
of a literal with a point or an exponent is falsy just if the literal is at most `2 ^ -150` in magnitude,
which is half of the least positive number of single precision. -/
theorem World.truthiness_consistent :
    (∀ n, minInt ≤ n ∧ n ≤ maxInt → ∃ x, (∀ w : World, w.toFloat (.int n) = (.ok x, w)) ∧
      ∀ box, (Value.ofDouble x box).isTruthy = (Value.int n).isTruthy) ∧
    (∀ v : Value, v.isNumber = true → v.Fits → ∃ truth, v.TruthFollows truth) ∧
    ∀ (x : Double) (box : Nat), ∃ v truth,
      Value.ofLiteral (.float x) box = .ok v ∧ v.isTruthy = .ok truth ∧
      (truth = false ↔ x.isFinite = true ∧ |x.exact| ≤ 2 ^ (-150 : ℤ)) := by
  refine ⟨fun n range => ⟨(Double.ofInt n).toSingle, fun w => rfl, fun box => congrArg Except.ok ?_⟩,
    fun v number fits => ?_, fun x box => ⟨_, !x.toSingle.isZero, rfl, rfl, ?_⟩⟩
  · rw [Double.toSingle_toSingle, Bool.eq_iff_iff, bne_iff_ne, Bool.not_eq_true', ← Bool.not_eq_true,
      Double.isZero_toSingle_ofInt_iff range]
  · cases v with
    | int n => exact ⟨_, Value.truthFollows_int fits⟩
    | float x box => exact ⟨_, Value.truthFollows_float x box⟩
    | _ => cases number
  · rw [Bool.not_eq_false', Double.isZero_toSingle_iff]

/-- The greatest literal that is falsy, which is half of the least positive number of single precision,
and the one after it. -/
example :
    (Value.ofLiteral (.float (.ofWord 0x3690000000000000)) 0).bind Value.isTruthy = .ok false ∧
    (Value.ofLiteral (.float (.ofWord 0x3690000000000001)) 0).bind Value.isTruthy = .ok true := by
  decide +kernel

end LoxValues
