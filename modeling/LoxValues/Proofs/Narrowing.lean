import LoxValues.Construction
import LoxValues.Proofs.ExactValue

/-!
# Rounding doubles to single precision

What a float value holds: the single-precision number nearest to the double that it was made from.
The double is given by a 64-bit word here, and the word by its three fields.

## What is here

* `Double.wordSign`, `Double.wordExponent`, `Double.wordFraction`, `Double.wordMagnitude` — the fields of
  a word and the number they stand for.  `Double.ofWord` reads them like that.
* `Format.Nearest.infinity_le_iff` — where single precision ends: from the middle between its largest
  number and the power of two that would follow it.
* `Double.toSingle_rounds` — **rounding to single precision is correct** for every word.
-/

set_option autoImplicit false
namespace LoxValues

/-! ## Words -/

namespace Double

/-- The sign of a word: its top bit. -/
def wordSign (word : Nat) : Bool := word / 2 ^ 63 % 2 == 1

/-- The exponent field of a word: the eleven bits below the sign. -/
def wordExponent (word : Nat) : Nat := word / 2 ^ 52 % 2 ^ 11

/-- The fraction field of a word: its lowest 52 bits. -/
def wordFraction (word : Nat) : Nat := word % 2 ^ 52

/-- Does a word hold no number? -/
def HoldsNaN (word : Nat) : Prop := wordExponent word = 2047 ∧ wordFraction word ≠ 0

/-- Does a word hold an infinity? -/
def HoldsInfinity (word : Nat) : Prop := wordExponent word = 2047 ∧ wordFraction word = 0

/-- The magnitude of the finite number that a word holds.  The lowest exponent field is that of the
subnormal numbers, whose fractions have no leading one. -/
def wordMagnitude (word : Nat) : ℚ :=
  if wordExponent word = 0 then wordFraction word * 2 ^ (-1074 : ℤ)
  else (2 ^ 52 + wordFraction word) * 2 ^ ((wordExponent word : ℤ) - 1075)

/-- The finite number that a word holds. -/
def wordValue (word : Nat) : ℚ := withSign (wordSign word) (wordMagnitude word)

theorem wordMagnitude_nonneg (word : Nat) : 0 ≤ wordMagnitude word := by
  rw [wordMagnitude]
  split_ifs
  · exact mul_nonneg (Nat.cast_nonneg _) (zpow_nonneg (by norm_num) _)
  · exact mul_nonneg (by positivity) (zpow_nonneg (by norm_num) _)

variable {word : Nat}

/-- Below the sign, a word is the rank of its magnitude. -/
theorem mod_signBit (word : Nat) :
    word % signBit = wordFraction word + wordExponent word * Format.double.binade := by
  have binade : Format.double.binade = 2 ^ 52 := rfl
  rw [binade, signBit, wordFraction, wordExponent]
  omega

theorem magnitude_mod_signBit (word : Nat) :
    Format.double.magnitude (word % signBit) = wordMagnitude word := by
  have binade : Format.double.binade = 2 ^ 52 := rfl
  have scale : Format.double.scale = 1074 := rfl
  have fraction : wordFraction word < 2 ^ 52 := Nat.mod_lt _ (by decide)
  have quotient : (wordFraction word + wordExponent word * 2 ^ 52) / 2 ^ 52 = wordExponent word := by
    omega
  rw [mod_signBit, Format.magnitude_eq, Format.significand, Format.exponent, binade, scale, quotient,
    wordMagnitude]
  by_cases subnormal : wordExponent word = 0
  · rw [if_pos subnormal, if_pos (by omega), subnormal]
    norm_num
  · have rest : (wordFraction word + wordExponent word * 2 ^ 52) % 2 ^ 52 = wordFraction word := by
      omega
    have exponent : ((wordExponent word - 1 : Nat) : ℤ) - (1074 : Nat) = wordExponent word - 1075 := by
      omega
    rw [if_neg subnormal, if_neg (by omega), rest, exponent]
    push_cast
    rfl

theorem ofWord_of_nan (nan : HoldsNaN word) : ofWord word = .nan := by
  have fields := mod_signBit word
  have binade : Format.double.binade = 2 ^ 52 := rfl
  have infinity : Format.double.infinity = 2047 * 2 ^ 52 := rfl
  rw [ofWord, if_pos]
  rw [fields, nan.1, binade, infinity]
  have := nan.2
  omega

theorem ofWord_of_number (number : ¬ HoldsNaN word) :
    ofWord word = .ofRank (wordSign word) (word % signBit) := by
  have fields := mod_signBit word
  have binade : Format.double.binade = 2 ^ 52 := rfl
  have infinity : Format.double.infinity = 2047 * 2 ^ 52 := rfl
  have exponent : wordExponent word < 2 ^ 11 := Nat.mod_lt _ (by decide)
  have fraction : wordFraction word < 2 ^ 52 := Nat.mod_lt _ (by decide)
  rw [HoldsNaN] at number
  rw [ofWord, if_neg]
  · rfl
  · rw [fields, binade, infinity]
    omega

theorem ofWord_of_infinity (infinity : HoldsInfinity word) :
    ofWord word = .infinite (wordSign word) := by
  have fields := mod_signBit word
  rw [infinity.1, infinity.2] at fields
  rw [ofWord_of_number (fun nan => nan.2 infinity.2), fields]
  rfl

/-- A word whose exponent field is not the highest holds the finite number that its fields say. -/
theorem exists_ofWord_eq (finite : wordExponent word < 2047) :
    ∃ r, ofWord word = .finite (wordSign word) r ∧
      Format.double.magnitude r = wordMagnitude word := by
  have fields := mod_signBit word
  have binade : Format.double.binade = 2 ^ 52 := rfl
  have infinity : Format.double.infinity = 2047 * 2 ^ 52 := rfl
  have fraction : wordFraction word < 2 ^ 52 := Nat.mod_lt _ (by decide)
  have inside : word % signBit < Format.double.infinity := by
    rw [fields, binade, infinity]
    omega
  refine ⟨⟨word % signBit, inside⟩, ?_, magnitude_mod_signBit word⟩
  rw [ofWord_of_number (fun nan => finite.ne nan.1), Binary.ofRank, dif_pos inside]

/-- The word of a finite number holds it. -/
theorem exists_toWord?_eq (negative : Bool) (r : Fin Format.double.infinity) :
    ∃ word, toWord? (.finite negative r) = some word ∧ wordSign word = negative ∧
      wordMagnitude word = Format.double.magnitude r := by
  have infinity : Format.double.infinity = 2047 * 2 ^ 52 := rfl
  have inside := r.isLt
  have sign : (if negative then signBit else 0) = negative.toNat * 2 ^ 63 := by
    cases negative <;> rfl
  have low : ((if negative then signBit else 0) + r.val) % signBit = r := by
    rw [sign, signBit]
    omega
  refine ⟨_, rfl, ?_, by rw [← magnitude_mod_signBit, low]⟩
  have top : (negative.toNat * 2 ^ 63 + r.val) / 2 ^ 63 % 2 = negative.toNat := by
    have := negative.toNat_le
    omega
  rw [wordSign, sign, top]
  cases negative <;> rfl

end Double

/-! ## Where single precision ends -/

namespace Format

/-- The magnitude of the rank of infinity, which is the power of two after the largest number. -/
theorem magnitude_infinity : single.magnitude single.infinity = 2 ^ 128 := by
  have significand : single.significand single.infinity = 2 ^ 23 := by decide
  have exponent : single.exponent single.infinity = 105 := by decide
  rw [magnitude_eq, significand, exponent]
  norm_num

/-- The magnitude of the largest number. -/
theorem magnitude_largest : single.magnitude (single.infinity - 1) = 2 ^ 128 - 2 ^ 104 := by
  have significand : single.significand (single.infinity - 1) = 2 ^ 24 - 1 := by decide
  have exponent : single.exponent (single.infinity - 1) = 104 := by decide
  rw [magnitude_eq, significand, exponent]
  norm_num

/-- **Single precision ends** in the middle between its largest number and the power of two after it, and
the middle itself is beyond the end. -/
theorem Nearest.infinity_le_iff {q : ℚ} {r : Nat} (nearest : single.Nearest q r) :
    single.infinity ≤ r ↔ 2 ^ 128 - 2 ^ 103 ≤ q := by
  have upper := magnitude_infinity
  have lower := magnitude_largest
  have mono := single.magnitude_strictMono.monotone
  constructor
  · intro beyond
    have positive : 0 < single.infinity := by decide
    have middle := nearest.middle_le (by omega : single.infinity - 1 < r)
    have above := mono beyond
    rw [lower] at middle
    linarith
  · intro beyond
    by_contra inside
    have middle := nearest.le_middle (by omega : r < single.infinity)
    have below := mono (by omega : r ≤ single.infinity - 1)
    rw [upper] at middle
    rw [lower] at below
    -- only the middle is left, which does not go to the largest number, whose rank is odd
    have largest : r = single.infinity - 1 :=
      single.magnitude_strictMono.injective (by rw [lower]; linarith)
    have even := nearest.even_of_middle (s := single.infinity) (by omega) (by rw [upper]; linarith)
    rw [largest] at even
    exact absurd even (by decide)

end Format

/-! ## Rounding a double -/

namespace Binary

/-- The sign of a datum; not-a-number has none. -/
def isNegative {f : Format} : Binary f → Bool
  | .nan => false
  | .infinite negative => negative
  | .finite negative _ => negative

end Binary

namespace Single

/-- A number with a sign and the single-precision number it is rounded to. -/
structure Rounds (z : Single) (negative : Bool) (q : ℚ) : Prop where
  /-- It is a number. -/
  number : z ≠ .nan
  /-- The sign is kept, on zero, too. -/
  sign : z.isNegative = negative
  /-- It is infinite from the middle between the largest number and the power of two after it. -/
  overflow : z = .infinite negative ↔ 2 ^ 128 - 2 ^ 103 ≤ q
  /-- Otherwise it is the nearest, and even if another is as near. -/
  closest : z.isFinite = true → z.Closest (withSign negative q)

theorem rounds_of_isNearest {z : Single} {negative : Bool} {q : ℚ} (nonneg : 0 ≤ q)
    (nearest : z.IsNearest negative q) : z.Rounds negative q := by
  obtain ⟨r, rank, rfl⟩ := nearest
  have ends := rank.infinity_le_iff
  by_cases finite : r < Format.single.infinity
  · rw [Binary.ofRank, dif_pos finite]
    refine ⟨by simp, rfl, ?_, fun _ => closest_of_nearest negative (r := ⟨r, finite⟩) nonneg rank⟩
    rw [← ends]
    exact iff_of_false (by simp) (by omega)
  · rw [Binary.ofRank, dif_neg finite]
    exact ⟨by simp, rfl, iff_of_true rfl (ends.mp (by omega)), by simp [Binary.isFinite]⟩

/-- A finite number is held, with its sign, by the word of the double that it is widened to. -/
theorem exists_held {z : Single} (finite : z.isFinite = true) :
    ∃ word, Double.toWord? (z.convert Format.double) = some word ∧
      Double.wordSign word = z.isNegative ∧ Double.wordValue word = z.exact := by
  obtain ⟨negative, r, rfl⟩ := Binary.exists_finite finite
  obtain ⟨s, wide, same⟩ := exists_widened negative r
  obtain ⟨word, held, sign, magnitude⟩ := Double.exists_toWord?_eq negative s
  refine ⟨word, by rw [wide, held], sign, ?_⟩
  rw [Double.wordValue, sign, magnitude, same, Binary.exact]

end Single

/-- **Rounding to single precision is correct.**  For every word, the float value made from the double
that it holds holds not-a-number, the same infinity, or the single-precision number that the double is
rounded to: infinite from the middle between the largest number and `2 ^ 128` on, and otherwise the
nearest one, with an even significand on a tie.  The sign stays.  The payload is a double again, and its
word holds just that number. -/
theorem Double.toSingle_rounds (word : Nat) :
    (HoldsNaN word → ∀ box, Value.ofDouble (ofWord word) box = .float .nan box) ∧
    (HoldsInfinity word → ∀ box,
      Value.ofDouble (ofWord word) box = .float (.infinite (wordSign word)) box) ∧
    (wordExponent word < 2047 → ∃ z : Single,
      (∀ box, Value.ofDouble (ofWord word) box = .float (z.convert Format.double) box) ∧
      z.Rounds (wordSign word) (wordMagnitude word) ∧
      (z.isFinite = true → ∃ held, toWord? (z.convert Format.double) = some held ∧
        wordSign held = wordSign word ∧ wordValue held = z.exact)) := by
  refine ⟨fun nan box => ?_, fun infinity box => ?_, fun finite => ?_⟩
  · rw [ofWord_of_nan nan]
    rfl
  · rw [ofWord_of_infinity infinity]
    rfl
  · obtain ⟨r, holds, magnitude⟩ := exists_ofWord_eq finite
    have nearest : ((ofWord word).convert Format.single).IsNearest (wordSign word)
        (wordMagnitude word) := by
      rw [holds, ← magnitude]
      exact Binary.isNearest_convert (by decide) _ r
    have rounds := Single.rounds_of_isNearest (wordMagnitude_nonneg word) nearest
    refine ⟨_, fun box => rfl, rounds, fun finite => ?_⟩
    rw [← rounds.sign]
    exact Single.exists_held finite

/-- The least double that is rounded to infinity, and the double before it. -/
example :
    (Double.ofWord 0x47EFFFFFF0000000).toSingle = .infinite false ∧
    (Double.ofWord 0x47EFFFFFEFFFFFFF).toSingle.toWord? = some 0x47EFFFFFE0000000 := by
  decide +kernel

end LoxValues
