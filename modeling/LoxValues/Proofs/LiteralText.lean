import LoxValues.Proofs.ShortestText
import LoxValues.Writing
import Mathlib.Data.Int.Log
import Mathlib.Data.Rat.Floor

/-!
# The text of a float literal

A literal is a double, and its text is the shortest decimal that reads back, written with a point or,
far from one, with an exponent.

## What is here

* `Decimal.ofChars?_literal` — either notation is read as the decimal it was written for.
* `HasPoint`, `HasExponent` — the two notations, with no digit that could be left out.
* `IsRemote` — where the second is used.  It is decided by the decimal and not by the double, which
  need not have their leading digits in the same place: `1e23` is the text of a double below `10 ^ 23`.
  Where the notation changes they agree (`Format.isRemote_shortest_iff`), because both
  powers of ten there are texts themselves.
* `Double.literal_reads_back` — all of it for every double.
-/

set_option autoImplicit false
namespace LoxValues

open Text

/-! ## Where the leading digit stands -/

/-- Is the leading digit of a magnitude below `10 ^ -4`, or at `10 ^ 16` or above?  Zero has its only
digit at `10 ^ 0`. -/
def IsRemote (q : ℚ) : Prop := Int.log 10 q < -4 ∨ 16 ≤ Int.log 10 q

theorem isRemote_iff {q : ℚ} (pos : 0 < q) :
    IsRemote q ↔ ¬ (10 : ℚ) ^ (-4 : ℤ) ≤ q ∨ (10 : ℚ) ^ (16 : ℤ) ≤ q := by
  have low := Int.lt_zpow_iff_log_lt (b := 10) (by decide) (x := -4) pos
  have high := Int.zpow_le_iff_le_log (b := 10) (by decide) (x := 16) pos
  rw [IsRemote, ← low, ← high, not_le, Nat.cast_ofNat]

theorem not_isRemote_zero : ¬ IsRemote 0 := by
  rw [IsRemote, Int.log_zero_right]
  decide

theorem Decimal.log_value {d : Decimal} (pos : 0 < d.coefficient) :
    Int.log 10 d.value = d.point - 1 := by
  have positive : 0 < d.value :=
    mul_pos (by exact_mod_cast pos) (zpow_pos (by norm_num) _)
  have low := (Int.zpow_le_iff_le_log (b := 10) (by decide) positive).mp (pow_le_value pos)
  have high := (Int.lt_zpow_iff_log_lt (b := 10) (by decide) positive).mp d.value_lt
  omega

namespace Format

variable {f : Format}

/-- **A power of ten that is the text of a number** divides texts in the same way as numbers, if it is
not greater than its number. -/
theorem le_shortest_iff (precise : 2 ≤ f.precision) {t : Nat} {k : Int}
    (own : f.shortest (t + 1) = ⟨1, k⟩) (before : f.magnitude t < 10 ^ k)
    (reached : 10 ^ k ≤ f.magnitude (t + 1)) (r : Nat) :
    10 ^ k ≤ (f.shortest r).value ↔ 10 ^ k ≤ f.magnitude r := by
  have mono := f.magnitude_strictMono.monotone
  have value : (f.shortest (t + 1)).value = 10 ^ k := by
    rw [own, Decimal.value, Nat.cast_one, one_mul]
  have power := (rankOfDecimal_eq_iff precise).mp (f.rankOfDecimal_shortest precise (t + 1))
  have text := (rankOfDecimal_eq_iff precise).mp (f.rankOfDecimal_shortest precise r)
  rw [value] at power
  constructor
  · exact fun above => reached.trans (mono (power.mono text above))
  · intro above
    by_contra below
    have most := text.mono power (not_le.mp below).le
    have least : t < r := f.magnitude_strictMono.lt_iff_lt.mp (before.trans_le above)
    obtain rfl : r = t + 1 := by omega
    exact below value.ge

/-- The double that `0.0001` is the text of is a little greater, and the one before it is less. -/
theorem le_shortest_low_iff (r : Nat) :
    (10 : ℚ) ^ (-4 : ℤ) ≤ (double.shortest r).value ↔ (10 : ℚ) ^ (-4 : ℤ) ≤ double.magnitude r := by
  have exponent : double.exponent 4547007122018943788 = -66 := by decide
  have exponent' : double.exponent 4547007122018943789 = -66 := by decide
  have significand : double.significand 4547007122018943788 = 7378697629483820 := by decide
  have significand' : double.significand 4547007122018943789 = 7378697629483821 := by decide
  refine le_shortest_iff (t := 4547007122018943788) (by decide) (by decide +kernel) ?_ ?_ r
  · rw [magnitude_eq, exponent, significand]
    norm_num
  · rw [magnitude_eq, exponent', significand']
    norm_num

/-- The power `10 ^ 16` is a double. -/
theorem le_shortest_high_iff (r : Nat) :
    (10 : ℚ) ^ (16 : ℤ) ≤ (double.shortest r).value ↔ (10 : ℚ) ^ (16 : ℤ) ≤ double.magnitude r := by
  have exponent : double.exponent 4846369599423283199 = 1 := by decide
  have exponent' : double.exponent 4846369599423283200 = 1 := by decide
  have significand : double.significand 4846369599423283199 = 4999999999999999 := by decide
  have significand' : double.significand 4846369599423283200 = 5000000000000000 := by decide
  refine le_shortest_iff (t := 4846369599423283199) (by decide) (by decide +kernel) ?_ ?_ r
  · rw [magnitude_eq, exponent, significand]
    norm_num
  · rw [magnitude_eq, exponent', significand']
    norm_num

/-- **Text and double change notation together.** -/
theorem isRemote_shortest_iff {r : Nat} (pos : 0 < r) :
    IsRemote (double.shortest r).value ↔ IsRemote (double.magnitude r) := by
  have number : 0 < double.magnitude r := by
    rw [← double.magnitude_zero]
    exact double.magnitude_strictMono pos
  have text : 0 < (double.shortest r).value :=
    mul_pos (by exact_mod_cast coefficient_shortest_pos (by decide) pos) (zpow_pos (by norm_num) _)
  rw [isRemote_iff text, isRemote_iff number, le_shortest_low_iff, le_shortest_high_iff]

end Format

/-! ## The two notations -/

/-- Digits on both sides of a point. -/
def HasPoint (cs : List Char) : Prop :=
  ∃ whole fraction, cs = whole ++ '.' :: fraction ∧ whole ≠ [] ∧ fraction ≠ [] ∧
    ∀ c ∈ whole ++ fraction, c.isDigit = true

/-- One digit other than zero, with further digits behind a point if there are any, and an exponent: a
sign and two digits or more. -/
def HasExponent (cs : List Char) : Prop :=
  ∃ first rest sign exponent, cs = pointed [first] rest ++ 'e' :: sign :: exponent ∧
    first ≠ '0' ∧ (∀ c ∈ first :: rest, c.isDigit = true) ∧ (sign = '+' ∨ sign = '-') ∧
    2 ≤ exponent.length ∧ ∀ c ∈ exponent, c.isDigit = true

theorem HasPoint.not_hasExponent {cs : List Char} (point : HasPoint cs) : ¬ HasExponent cs := by
  rintro ⟨first, rest, sign, exponent, marked, -⟩
  obtain ⟨whole, fraction, rfl, -, -, digits⟩ := point
  have mark : 'e' ∈ whole ++ '.' :: fraction := by simp [marked]
  have digit : 'e' ∈ whole ++ fraction := by simpa using mark
  exact notMem_of_isDigit digits rfl digit

/-- Both start with a digit. -/
theorem exists_digit_of_notation {cs : List Char} (written : HasPoint cs ∨ HasExponent cs) :
    ∃ c rest, cs = c :: rest ∧ c.isDigit = true := by
  rcases written with ⟨whole, fraction, rfl, nonempty, -, digits⟩ | ⟨first, rest, _, _, rfl, -, digits, -⟩
  · obtain ⟨c, whole, rfl⟩ := List.exists_cons_of_ne_nil nonempty
    exact ⟨c, _, rfl, digits c (by simp)⟩
  · obtain ⟨mantissa, starts⟩ := exists_pointed_eq_cons first [] rest
    exact ⟨first, _, by rw [starts, List.cons_append], digits first (by simp)⟩

namespace Decimal

variable {d : Decimal}

/-! ### With a point -/

/-- Digits behind the point can be left out only if the last place is not there. -/
theorem Writes.fraction_ne_nil {whole fraction : List Char} (writes : d.Writes whole fraction)
    (back : d.exponent < 0) (counts : d.coefficient % 10 ≠ 0) : fraction ≠ [] := by
  rintro rfl
  obtain ⟨n, places⟩ : ∃ n : Nat, d.exponent = -(n + 1 : Nat) := ⟨(-d.exponent - 1).toNat, by omega⟩
  have same : (Nat.ofDigitChars 10 (whole ++ []) 0 : ℚ) * 10 ^ (0 : ℤ) =
      d.coefficient * 10 ^ d.exponent := writes.value
  rw [places, zpow_neg, zpow_natCast, eq_mul_inv_iff_mul_eq₀ (by positivity), zpow_zero, mul_one]
    at same
  have tenfold : Nat.ofDigitChars 10 (whole ++ []) 0 * 10 ^ (n + 1) = d.coefficient := by
    exact_mod_cast same
  rw [← tenfold, pow_succ, ← mul_assoc] at counts
  exact counts (Nat.mul_mod_left _ _)

/-- Near the point, a decimal is written with digits on both sides of it. -/
theorem literal_of_near (pos : 0 < d.coefficient) (counts : d.coefficient % 10 ≠ 0)
    (near : -4 < d.point ∧ d.point ≤ 16) :
    HasPoint d.literal ∧ ∃ w, ofChars? d.literal = some w ∧ w.value = d.value := by
  suffices written : ∃ whole fraction, d.literal = pointed whole fraction ∧ whole ≠ [] ∧
      fraction ≠ [] ∧ (∀ c ∈ whole ++ fraction, c.isDigit = true) ∧
      Decimal.value ⟨Nat.ofDigitChars 10 (whole ++ fraction) 0, -fraction.length⟩ = d.value by
    obtain ⟨whole, fraction, layout, nonempty, some, digits, value⟩ := written
    refine ⟨⟨whole, fraction, ?_, nonempty, some, digits⟩, _, ?_, value⟩
    · rw [layout, pointed, if_neg some]
    · rw [layout, ofChars?_pointed digits nonempty]
  rw [literal, if_pos near]
  split_ifs with integer
  · -- a zero is added behind the point
    have length := List.length_pos_of_ne_nil d.digits_ne_nil
    have front : ¬ d.point ≤ 0 := by
      rw [point]
      omega
    have layout : d.positional = d.digits ++ List.replicate d.exponent.toNat '0' := by
      rw [positional, if_neg front, if_pos integer]
    obtain ⟨⟨digits, nonempty, -, -⟩, value⟩ := writes_before pos integer
    rw [layout]
    generalize d.digits ++ List.replicate d.exponent.toNat '0' = whole at *
    refine ⟨whole, ['0'], by simp [pointed], nonempty, by simp, ?_, ?_⟩
    · rw [List.append_nil] at digits
      exact List.forall_mem_append.mpr ⟨digits, by simp⟩
    · have tenfold : Nat.ofDigitChars 10 (whole ++ ['0']) 0 =
          10 * Nat.ofDigitChars 10 (whole ++ []) 0 := by
        rw [List.append_nil, Nat.ofDigitChars_append]
        simp [Nat.ofDigitChars_cons]
      rw [tenfold, value_ten_mul, ← value]
      rfl
  · obtain ⟨whole, fraction, layout, writes⟩ := exists_written pos fun _ => counts
    have some := writes.fraction_ne_nil (not_le.mp integer) counts
    exact ⟨whole, fraction, layout, writes.positional.nonempty, some, writes.positional.digits,
      writes.value⟩

/-! ### With an exponent -/

/-- An exponent is read as it was written: the zeros that fill it up say nothing. -/
theorem exists_exponentMark (e : Int) : ∃ sign exponent,
    exponentMark e = 'e' :: sign :: exponent ∧ (sign = '+' ∨ sign = '-') ∧ 2 ≤ exponent.length ∧
      (∀ c ∈ exponent, c.isDigit = true) ∧ exponent? (sign :: exponent) = some e := by
  have mark : exponentMark e = 'e' :: (if e < 0 then '-' else '+') ::
      (List.replicate (2 - (Nat.toDigits 10 e.natAbs).length) '0' ++ Nat.toDigits 10 e.natAbs) := by
    simp [exponentMark]
  have long : 2 ≤ (List.replicate (2 - (Nat.toDigits 10 e.natAbs).length) '0' ++
      Nat.toDigits 10 e.natAbs).length := by
    rw [List.length_append, List.length_replicate]
    omega
  have digits : ∀ c ∈ List.replicate (2 - (Nat.toDigits 10 e.natAbs).length) '0' ++
      Nat.toDigits 10 e.natAbs, c.isDigit = true :=
    List.forall_mem_append.mpr ⟨isDigit_of_mem_zeros _, isDigit_of_mem_toDigits⟩
  have said : Nat.ofDigitChars 10 (List.replicate (2 - (Nat.toDigits 10 e.natAbs).length) '0' ++
      Nat.toDigits 10 e.natAbs) 0 = e.natAbs := by
    rw [Nat.ofDigitChars_append, Nat.ofDigitChars_replicate_zero, mul_zero,
      Nat.ofDigitChars_ten_toDigits]
  generalize List.replicate _ '0' ++ Nat.toDigits 10 e.natAbs = exponent at mark long digits said
  have read : digits? exponent = some e.natAbs := by
    rw [digits?_eq_some (List.length_pos_iff.mp (by omega)) digits, said]
  refine ⟨_, exponent, mark, ?_, long, digits, ?_⟩
  · split_ifs <;> simp
  · split_ifs with below
    · simp [exponent?, read, abs_of_neg below]
    · simp [exponent?, read, abs_of_nonneg (not_lt.mp below)]

/-- Far from the point, a decimal is written with an exponent, and read as just that decimal. -/
theorem literal_of_far (pos : 0 < d.coefficient) (far : ¬(-4 < d.point ∧ d.point ≤ 16)) :
    HasExponent d.literal ∧ ofChars? d.literal = some d := by
  obtain ⟨sign, exponent, mark, signs, long, digits, read⟩ := exists_exponentMark (d.point - 1)
  obtain ⟨first, rest, split⟩ := List.exists_cons_of_ne_nil d.digits_ne_nil
  have layout : d.literal = pointed [first] rest ++ 'e' :: sign :: exponent := by
    rw [literal, if_neg far, scientific, mark, split]
    cases rest <;> simp [pointed]
  have mantissa : ∀ c ∈ [first] ++ rest, c.isDigit = true := by
    rw [List.singleton_append, ← split]
    exact d.isDigit_of_mem_digits
  have leading : first ≠ '0' := by
    have sharp := head?_toDigits_ne_zero pos
    rw [← Decimal.digits, split] at sharp
    simpa using sharp
  have plain : ∀ c ∈ first :: rest, c.isDigit = true := mantissa
  refine ⟨⟨first, rest, sign, exponent, layout, leading, plain, signs, long, digits⟩, ?_⟩
  have value : Nat.ofDigitChars 10 ([first] ++ rest) 0 = d.coefficient := by
    rw [List.singleton_append, ← split, d.ofDigitChars_digits]
  have place : -(rest.length : Int) + (d.point - 1) = d.exponent := by
    rw [point, split, List.length_cons]
    push_cast
    ring
  rw [layout, ofChars?, cut?_append (notMem_pointed mantissa)]
  simp only [ofPositional?_pointed mantissa (List.cons_ne_nil _ _), read, value, place]

/-! ### Either notation -/

/-- **A decimal is written with an exponent just if its leading digit is remote**, and either way it is
read as the decimal that it was written for. -/
theorem literal_reads (counts : d.coefficient % 10 ≠ 0) :
    (HasExponent d.literal ↔ IsRemote d.value) ∧ (¬ IsRemote d.value → HasPoint d.literal) ∧
      ∃ w, ofChars? d.literal = some w ∧ w.value = d.value := by
  have pos : 0 < d.coefficient := by omega
  have remote : IsRemote d.value ↔ ¬(-4 < d.point ∧ d.point ≤ 16) := by
    rw [IsRemote, log_value pos]
    omega
  by_cases near : -4 < d.point ∧ d.point ≤ 16
  · obtain ⟨point, read⟩ := literal_of_near pos counts near
    exact ⟨iff_of_false point.not_hasExponent (by simpa [remote] using near), fun _ => point, read⟩
  · obtain ⟨exponent, read⟩ := literal_of_far pos near
    exact ⟨iff_of_true exponent (remote.mpr near), fun close => absurd (remote.mpr near) close,
      d, read, rfl⟩

/-! ### Significant digits -/

theorem significant_mul_pow {c : Nat} (pos : 0 < c) (j : Nat) (e k : Int) :
    significant ⟨c * 10 ^ j, e⟩ = significant ⟨c, k⟩ := by
  induction j generalizing e with
  | zero => rw [pow_zero, mul_one]; rfl
  | succ j ih =>
    rw [pow_succ', mul_left_comm, significant_ten_mul (by positivity) e e, ih]

/-- How many digits of a decimal are significant depends on how much it is, and not on how it is
given. -/
theorem significant_eq_of_value_eq {d d' : Decimal} (pos : 0 < d.coefficient)
    (pos' : 0 < d'.coefficient) (same : d.value = d'.value) : d.significant = d'.significant := by
  wlog le : d.exponent ≤ d'.exponent generalizing d d'
  · exact (this pos' pos same.symm (by omega)).symm
  obtain ⟨j, finer⟩ := Int.eq_ofNat_of_zero_le (sub_nonneg.mpr le)
  have power : (10 : ℚ) ^ d.exponent ≠ 0 := zpow_ne_zero _ (by norm_num)
  have coefficient : d.coefficient = d'.coefficient * 10 ^ j := by
    rw [value, value, show d'.exponent = j + d.exponent by omega, zpow_add₀ (by norm_num), zpow_natCast,
      ← mul_assoc] at same
    exact_mod_cast mul_right_cancel₀ power same
  have shifted := significant_mul_pow pos' j d.exponent d'.exponent
  rwa [← coefficient] at shifted

end Decimal

/-! ## Doubles -/

namespace Double

/-- What the text of a magnitude says: a decimal that rounds to it, than which none that does is
shorter, and in which notation it is written. -/
structure Conveys (r : Nat) (cs : List Char) (w : Decimal) : Prop where
  /-- The text is read as the decimal. -/
  read : Decimal.ofChars? cs = some w
  /-- The decimal rounds to the magnitude. -/
  nearest : Format.double.Nearest w.value r
  /-- Others that do have as many digits or more. -/
  shortest : ∀ d : Decimal, Format.double.Nearest d.value r → w.significant ≤ d.significant
  /-- There is an exponent where the leading digit is remote. -/
  exponent : HasExponent cs ↔ IsRemote w.value
  /-- There is a point elsewhere. -/
  point : ¬ IsRemote w.value → HasPoint cs
  /-- The leading digit of the magnitude itself is remote in the same cases. -/
  remote : IsRemote w.value ↔ IsRemote (Format.double.magnitude r)

theorem conveys_zero : Conveys 0 ['0', '.', '0'] ⟨0, -1⟩ := by
  have value : Decimal.value ⟨0, -1⟩ = Format.double.magnitude 0 := by
    rw [Decimal.value, Format.magnitude_zero, Nat.cast_zero, zero_mul]
  have point : HasPoint ['0', '.', '0'] := ⟨['0'], ['0'], rfl, by simp, by simp, by simp⟩
  have near : ¬ IsRemote (Decimal.value ⟨0, -1⟩) := by
    rw [value, Format.magnitude_zero]
    exact not_isRemote_zero
  refine ⟨by decide, ?_, fun d _ => ?_, iff_of_false point.not_hasExponent near, fun _ => point,
    by rw [value]⟩
  · rw [value]
    exact Format.double.nearest_magnitude 0
  · have none : Decimal.significant ⟨0, -1⟩ = 0 := by decide
    rw [none]
    exact Nat.zero_le _

theorem exists_conveys {r : Nat} (pos : 0 < r) : ∃ w, Conveys r (Format.double.shortest r).literal w := by
  have precise : 2 ≤ Format.double.precision := by decide
  have counts := Format.coefficient_shortest_of_pos precise pos
  have own := Format.coefficient_shortest_pos precise pos
  have nearest := (Format.rankOfDecimal_eq_iff precise).mp (Format.rankOfDecimal_shortest precise r)
  obtain ⟨exponent, point, w, read, value⟩ := Decimal.literal_reads counts
  rw [← value] at nearest exponent point
  refine ⟨w, read, nearest, fun d reads => ?_, exponent, point, ?_⟩
  · rw [← Format.rankOfDecimal_eq_iff precise] at reads nearest
    obtain ⟨s, same, digits⟩ :=
      Decimal.exists_significant (Format.coefficient_pos_of_reads precise pos reads)
    rw [Format.rankOfDecimal_eq_iff precise, ← same, ← Format.rankOfDecimal_eq_iff precise] at reads
    rw [Decimal.significant_eq_of_value_eq (Format.coefficient_pos_of_reads precise pos nearest) own
      value, Format.significant_shortest precise pos, digits]
    exact Format.length_shortest_le precise pos reads
  · rw [value]
    exact Format.isRemote_shortest_iff pos

/-- The text of a finite double is a sign and what its magnitude says. -/
theorem exists_text_eq (negative : Bool) (r : Fin Format.double.infinity) :
    ∃ cs w, Conveys r cs w ∧ text (.finite negative r) = signed negative cs ∧
      Numeral.ofText? (text (.finite negative r)) = some (.decimal negative w) := by
  obtain ⟨cs, w, conveys, layout⟩ : ∃ cs w, Conveys r cs w ∧
      text (.finite negative r) = signed negative cs := by
    by_cases zero : r.val = 0
    · exact ⟨_, _, zero ▸ conveys_zero, by rw [text, if_pos zero]⟩
    · obtain ⟨w, conveys⟩ := exists_conveys (Nat.pos_of_ne_zero zero)
      exact ⟨_, w, conveys, by rw [text, if_neg zero]⟩
  have written : HasPoint cs ∨ HasExponent cs := by
    by_cases remote : IsRemote w.value
    · exact .inr (conveys.exponent.mpr remote)
    · exact .inl (conveys.point remote)
  obtain ⟨c, rest, rfl, digit⟩ := exists_digit_of_notation written
  refine ⟨_, w, conveys, layout, ?_⟩
  rw [layout, Numeral.ofText?_signed_digit digit, conveys.read, Option.map_some]

/-- **The text of a float literal reads back** and is the shortest that does.  A literal with a double in
it has a text, which depends on the double alone.  For every double but not-a-number, the text says a
numeral that rounds to this double and to no other, bit for bit.  If the double is finite, the numeral is
a decimal, and every other decimal that rounds to the double has as many significant digits or more.
There is an exponent exactly where the leading digit stands below `10 ^ -4` or at `10 ^ 16` or above, be
it that of the double or that of the decimal; elsewhere there is a point with a digit on each side. -/
theorem literal_reads_back {x : Double} (number : x ≠ .nan) :
    (Literal.float x).text = .ok x.text ∧
    (∃ n, Numeral.ofText? x.text = some n ∧ ∀ y : Double, n.IsNearest y ↔ y = x) ∧
    (x.isFinite = true → ∃ negative w cs,
      Numeral.ofText? x.text = some (.decimal negative w) ∧
      (∀ sign d, (Numeral.decimal sign d).IsNearest x → w.significant ≤ d.significant) ∧
      x.text = signed negative cs ∧
      (HasExponent cs ↔ IsRemote |x.exact|) ∧ (¬ IsRemote |x.exact| → HasPoint cs) ∧
      (IsRemote w.value ↔ IsRemote |x.exact|)) := by
  cases x with
  | nan => exact absurd rfl number
  | infinite negative =>
    refine ⟨rfl, ⟨.infinite negative, ?_, fun y => Iff.rfl⟩, nofun⟩
    rw [text, Numeral.ofText?_signed (by decide), Numeral.ofMagnitude?, if_pos rfl]
  | finite negative r =>
    obtain ⟨cs, w, conveys, layout, read⟩ := exists_text_eq negative r
    have rounds : (Numeral.decimal negative w).IsNearest (Binary.finite negative r) :=
      ⟨r, conveys.nearest, (Binary.ofRank_val negative r).symm⟩
    have size : |(Binary.finite negative r).exact| = Format.double.magnitude r :=
      abs_withSign negative (Format.double.magnitude_nonneg r)
    rw [size, ← conveys.remote]
    refine ⟨rfl, ⟨_, read, fun y => ⟨fun other => other.unique rounds, fun same => same ▸ rounds⟩⟩,
      fun _ => ⟨negative, w, cs, read, fun sign d nearest => ?_, layout, conveys.exponent, conveys.point,
        Iff.rfl⟩⟩
    exact conveys.shortest d ((Format.rankOfDecimal_eq_iff (by decide)).mp (nearest.reads (by decide)).2)

/-- The double that `10 ^ 23` rounds to, which is a little less than that. -/
def belowPower : Double := .finite false ⟨4950912855330343670, by decide⟩

/-- Its text is the power of ten all the same, and has one digit and an exponent. -/
theorem literal_belowPower :
    belowPower ≠ .nan ∧ (Literal.float belowPower).text = .ok "1e+23" ∧
    (∃ n, Numeral.ofText? belowPower.text = some n ∧ ∀ y : Double, n.IsNearest y ↔ y = belowPower) ∧
    ∃ negative w cs, Numeral.ofText? belowPower.text = some (.decimal negative w) ∧
      belowPower.text = signed negative cs ∧
      (HasExponent cs ↔ IsRemote |belowPower.exact|) := by
  have number : belowPower ≠ .nan := by decide
  obtain ⟨shown, reads, written⟩ := literal_reads_back number
  have power : belowPower.text = "1e+23" := by decide +kernel
  obtain ⟨negative, w, cs, said, -, layout, exponent, -⟩ := written rfl
  exact ⟨number, shown.trans (congrArg Except.ok power), reads, negative, w, cs, said, layout, exponent⟩

end Double
end LoxValues
