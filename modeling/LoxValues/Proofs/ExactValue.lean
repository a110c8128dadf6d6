import LoxValues.Proofs.Rounding

/-!
# Exact values

`LoxValues.Proofs.Rounding` speaks of magnitudes, and its ranks have no end.  Here are the finite data
of a format as the rational numbers they stand for, with their sign, and what rounding to the nearest
one comes to among those of single precision.

## What is here

* `Format.significand`, `Format.exponent` — the two parts of a magnitude, as `2 ^ exponent` taken
  `significand` times (`Format.magnitude_eq`).  Ranks and significands have the same parity.
* `Binary.exact` — the number that a finite datum stands for.
* `Single.IsNumber` — the numbers of single precision, said without ranks: whole numbers of 24 binary
  digits times a power of two.  They are what the finite data stand for (`Single.isNumber_exact`,
  `Single.exists_exact_eq`).
* `Single.Closest` — a finite datum than which no number of single precision is nearer to a given one,
  and whose significand is even where another is as near.
* `Single.closest_of_nearest` — the nearest rank, where it is finite, gives the closest datum: neither
  the ranks beyond the finite ones nor the data of the other sign could be nearer.
-/

set_option autoImplicit false
namespace LoxValues

/-- A magnitude with a sign. -/
def withSign (negative : Bool) (q : ℚ) : ℚ := if negative then -q else q

theorem withSign_add (negative : Bool) (p q : ℚ) :
    withSign negative p + withSign negative q = withSign negative (p + q) := by
  cases negative with
  | false => rfl
  | true => exact (neg_add p q).symm

/-- Differences of magnitudes with one sign have the same product as without it. -/
theorem mul_withSign_sub (negative : Bool) (p q m : ℚ) :
    (withSign negative p - withSign negative m) * (withSign negative q - withSign negative m) =
      (p - m) * (q - m) := by
  cases negative with
  | false => rfl
  | true =>
    show (-p - -m) * (-q - -m) = (p - m) * (q - m)
    ring

theorem abs_withSign_sub (negative : Bool) (p q : ℚ) :
    |withSign negative p - withSign negative q| = |p - q| := by
  cases negative with
  | false => rfl
  | true =>
    show |-p - -q| = |p - q|
    rw [neg_sub_neg, abs_sub_comm]

/-- Magnitudes of different signs are as far from each other as both are from zero together. -/
theorem abs_withSign_not_sub (negative : Bool) {p q : ℚ} (hp : 0 ≤ p) (hq : 0 ≤ q) :
    |withSign (!negative) p - withSign negative q| = p + q := by
  cases negative with
  | false =>
    show |-p - q| = p + q
    rw [abs_of_nonpos (by linarith)]
    ring
  | true =>
    show |p - -q| = p + q
    rw [sub_neg_eq_add, abs_of_nonneg (by linarith)]

theorem abs_withSign (negative : Bool) {q : ℚ} (nonneg : 0 ≤ q) : |withSign negative q| = q := by
  cases negative with
  | false => exact abs_of_nonneg nonneg
  | true => exact (abs_neg q).trans (abs_of_nonneg nonneg)

theorem withSign_injective (negative : Bool) : Function.Injective (withSign negative) := by
  cases negative with
  | false => exact Function.injective_id
  | true => exact neg_injective

theorem withSign_zero (negative : Bool) : withSign negative 0 = 0 := by
  cases negative with
  | false => rfl
  | true => exact neg_zero

namespace Format

variable {f : Format}

/-- The significand of a rank: its digits below the binade, with the leading one of a normal number. -/
def significand (f : Format) (r : Nat) : Nat :=
  if r < f.binade then r else f.binade + r % f.binade

/-- The power of two that the last digit of the significand counts. -/
def exponent (f : Format) (r : Nat) : Int := (r / f.binade - 1 : Nat) - (f.scale : Int)

theorem magnitude_eq (f : Format) (r : Nat) :
    f.magnitude r = f.significand r * 2 ^ f.exponent r := by
  have units : f.units r = f.significand r * 2 ^ (r / f.binade - 1) := by
    rw [Format.units, significand, Nat.pow_eq]
    split_ifs with low
    · rw [Nat.div_eq_of_lt low, pow_zero, mul_one]
    · rfl
  rw [magnitude, units, cast_one, exponent, zpow_sub₀ (by norm_num), zpow_natCast, zpow_natCast]
  push_cast
  ring

theorem magnitude_nonneg (f : Format) (r : Nat) : 0 ≤ f.magnitude r :=
  div_nonneg (Nat.cast_nonneg _) (Nat.cast_nonneg _)

theorem even_significand_iff (precise : 2 ≤ f.precision) {r : Nat} :
    Even (f.significand r) ↔ Even r := by
  have binade := even_binade precise
  rw [significand]
  split_ifs with low
  · rfl
  · -- what is taken away from a rank is a multiple of the binade
    conv_rhs => rw [← Nat.div_add_mod r f.binade, Nat.even_add]
    rw [Nat.even_add]
    exact iff_congr (iff_of_true binade (binade.mul_right _)) Iff.rfl

end Format

namespace Binary

variable {f : Format}

/-- Is it a finite number? -/
def isFinite : Binary f → Bool
  | .finite _ _ => true
  | _ => false

/-- The number that a finite datum stands for. -/
def exact : Binary f → ℚ
  | .finite negative r => withSign negative (f.magnitude r)
  | _ => 0

/-- The significand of a finite number. -/
def significand : Binary f → Nat
  | .finite _ r => f.significand r
  | _ => 0

theorem exists_finite {x : Binary f} (finite : x.isFinite = true) :
    ∃ negative r, x = .finite negative r := by
  cases x with
  | finite negative r => exact ⟨negative, r, rfl⟩
  | nan => cases finite
  | infinite negative => cases finite

end Binary

/-! ## The numbers of single precision -/

namespace Single

/-- Widening keeps the number that a finite datum stands for. -/
theorem exact_convert {z : Single} (finite : z.isFinite = true) :
    (z.convert Format.double).isFinite = true ∧ (z.convert Format.double).exact = z.exact := by
  obtain ⟨negative, r, rfl⟩ := Binary.exists_finite finite
  obtain ⟨s, wide, same⟩ := exists_widened negative r
  rw [wide, Binary.exact, Binary.exact, same]
  exact ⟨rfl, rfl⟩

/-- A number of single precision. -/
def IsNumber (y : ℚ) : Prop :=
  ∃ m e : ℤ, |m| < 2 ^ 24 ∧ -149 ≤ e ∧ e ≤ 104 ∧ y = m * 2 ^ e

/-- What a finite datum stands for is a number of single precision. -/
theorem isNumber_exact {z : Single} (finite : z.isFinite = true) : IsNumber z.exact := by
  obtain ⟨negative, ⟨r, inside⟩, rfl⟩ := Binary.exists_finite finite
  have binade : Format.single.binade = 2 ^ 23 := rfl
  have infinity : Format.single.infinity = 255 * 2 ^ 23 := rfl
  have scale : Format.single.scale = 149 := rfl
  have digits : Format.single.significand r < 2 ^ 24 := by
    rw [Format.significand, binade]
    split_ifs <;> omega
  have lowest : -149 ≤ Format.single.exponent r := by
    rw [Format.exponent, scale]
    omega
  have highest : Format.single.exponent r ≤ 104 := by
    rw [Format.exponent, scale, binade]
    omega
  rw [Binary.exact, Format.magnitude_eq]
  cases negative with
  | false => exact ⟨Format.single.significand r, _, by simpa using digits, lowest, highest, rfl⟩
  | true =>
    refine ⟨-(Format.single.significand r : ℤ), _, by simpa using digits, lowest, highest, ?_⟩
    push_cast
    exact (neg_mul _ _).symm

/-- Every number of single precision is what some finite datum stands for. -/
theorem exists_exact_eq {y : ℚ} (number : IsNumber y) :
    ∃ negative r, (Binary.finite negative r : Single).exact = y := by
  obtain ⟨m, e, digits, lowest, highest, rfl⟩ := number
  have binade : Format.single.binade = 2 ^ 23 := rfl
  have size : m.natAbs < 2 ^ 24 := by
    rw [← Int.natCast_natAbs] at digits
    exact_mod_cast digits
  obtain ⟨k, hk⟩ := Int.eq_ofNat_of_zero_le (by omega : 0 ≤ e + 149)
  obtain ⟨r, units⟩ := Format.single.exists_units_eq (n := m.natAbs) (by omega) k
  have inside : r < Format.single.infinity := by
    have top : Format.single.units Format.single.infinity = 2 ^ 23 * 2 ^ 254 :=
      Format.units_add (n := 2 ^ 23) (k := 254) (.inr le_rfl) (by decide)
    rw [← Format.single.units_strictMono.lt_iff_lt, units, top]
    calc m.natAbs * 2 ^ k < 2 ^ 24 * 2 ^ k := Nat.mul_lt_mul_of_pos_right (by omega) (by positivity)
      _ ≤ 2 ^ 24 * 2 ^ 253 := Nat.mul_le_mul_left _ (Nat.pow_le_pow_right (by decide) (by omega))
      _ = 2 ^ 23 * 2 ^ 254 := by norm_num
  have one : (Format.single.one : ℚ) = 2 ^ 149 := Format.single.cast_one
  have power : (2 : ℚ) ^ e = 2 ^ k / 2 ^ 149 := by
    rw [show e = (k : ℤ) - (149 : Nat) by omega, zpow_sub₀ (by norm_num), zpow_natCast, zpow_natCast]
  have magnitude : Format.single.magnitude r = |(m : ℚ)| * 2 ^ e := by
    rw [Format.magnitude, units, one, power]
    push_cast
    rw [Nat.cast_natAbs]
    push_cast
    ring
  refine ⟨decide (m < 0), ⟨r, inside⟩, ?_⟩
  rw [Binary.exact, magnitude, withSign]
  by_cases below : m < 0
  · have belowQ : (m : ℚ) < 0 := by exact_mod_cast below
    rw [if_pos (by simpa using below), abs_of_neg belowQ]
    ring
  · have aboveQ : (0 : ℚ) ≤ m := by exact_mod_cast (not_lt.mp below)
    rw [if_neg (by simpa using below), abs_of_nonneg aboveQ]

/-- The finite datum `z` is nearest to `q`: no number of single precision is nearer, and if another is as
near, then the significand of `z` is even. -/
structure Closest (z : Single) (q : ℚ) : Prop where
  /-- It is finite. -/
  finite : z.isFinite = true
  /-- No number is nearer. -/
  closest : ∀ y, IsNumber y → |z.exact - q| ≤ |y - q|
  /-- A tie goes to the even significand. -/
  even : ∀ y, IsNumber y → y ≠ z.exact → |y - q| = |z.exact - q| → Even z.significand

/-- Whatever a number of single precision is on the other side of zero, zero is as near: so for every
number there is a rank that comes as near with the sign asked for, and nearer unless it is the number. -/
theorem exists_same_side {y : ℚ} (number : IsNumber y) (negative : Bool) {q : ℚ} (nonneg : 0 ≤ q) :
    ∃ s, |Format.single.magnitude s - q| ≤ |y - withSign negative q| ∧
      (|y - withSign negative q| ≤ |Format.single.magnitude s - q| →
        y = withSign negative (Format.single.magnitude s)) := by
  obtain ⟨sign, s, rfl⟩ := exists_exact_eq number
  have size := Format.single.magnitude_nonneg s
  rw [Binary.exact]
  rcases Bool.eq_or_eq_not sign negative with rfl | rfl
  · exact ⟨s, (abs_withSign_sub sign _ _).ge, fun _ => rfl⟩
  · have origin : |Format.single.magnitude 0 - q| = q := by
      rw [Format.magnitude_zero, zero_sub, abs_neg, abs_of_nonneg nonneg]
    refine ⟨0, ?_, fun near => ?_⟩
    · rw [origin, abs_withSign_not_sub negative size nonneg]
      linarith
    · rw [origin, abs_withSign_not_sub negative size nonneg] at near
      have zero : Format.single.magnitude s = 0 := by linarith
      rw [zero, Format.magnitude_zero, withSign_zero, withSign_zero]

/-- **The nearest rank gives the closest datum**, if it is a finite one. -/
theorem closest_of_nearest (negative : Bool) {q : ℚ} (nonneg : 0 ≤ q)
    {r : Fin Format.single.infinity} (nearest : Format.single.Nearest q r) :
    Closest (.finite negative r) (withSign negative q) := by
  have self : |(Binary.finite negative r).exact - withSign negative q| =
      |Format.single.magnitude r - q| := abs_withSign_sub negative _ _
  refine ⟨rfl, fun y number => ?_, fun y number ne tie => ?_⟩
  · obtain ⟨s, nearer, -⟩ := exists_same_side number negative nonneg
    rw [self]
    exact (nearest.closest s).trans nearer
  · obtain ⟨s, nearer, same⟩ := exists_same_side number negative nonneg
    rw [self] at tie
    have equal : |Format.single.magnitude s - q| = |Format.single.magnitude r - q| :=
      le_antisymm (nearer.trans tie.le) (nearest.closest s)
    have other : s ≠ r.val := by
      rintro rfl
      exact ne (same (tie.trans equal.symm).le)
    exact (Format.even_significand_iff (by decide)).mpr (nearest.even s other equal)

end Single
end LoxValues
