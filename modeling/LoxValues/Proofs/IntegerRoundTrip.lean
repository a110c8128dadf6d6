import LoxValues.Proofs.Truncation
import LoxValues.Proofs.TwiceRounded
import Mathlib.Order.Bounds.Basic

/-!
# Integers as floats and back

Rounding twice need not give the nearest number (`LoxValues.Proofs.TwiceRounded`), but it still is
monotone and keeps the numbers of single precision.  From these two alone it follows where the float of
an integer lies: no number of single precision is between the two.  On the way back nothing more is
lost, since the float is an integer, too; only `2 ^ 63` is out of range and comes back as the greatest
integer.

## What is here

* `Single.RoundsTwice` — what becomes of a number by way of double precision.  It grows with the number
  (`Single.RoundsTwice.mono`), and a number of single precision stays what it is
  (`Single.IsNumber.roundsTwice`).
* `Single.toFloat_encloses` — **integers as floats** are in order, and each is next to its integer.
* `Single.toInteger_toFloat` — **which integers come back** as they were, and that a second trip changes
  nothing.
-/

set_option autoImplicit false
namespace LoxValues.Single

/-! ## Rounding twice -/

/-- Rounded to double precision and then to single precision, a magnitude has the rank `r`. -/
def HasRank (q : ℚ) (r : Nat) : Prop :=
  ∃ s, Format.double.Nearest q s ∧ Format.single.Nearest (Format.double.magnitude s) r

theorem HasRank.mono {p q : ℚ} {r t : Nat} (hp : HasRank p r) (hq : HasRank q t) (le : p ≤ q) :
    r ≤ t := by
  obtain ⟨_, first, second⟩ := hp
  obtain ⟨_, first', second'⟩ := hq
  exact second.mono second' (Format.double.magnitude_strictMono.monotone (first.mono first' le))

/-- A magnitude of single precision has its own rank. -/
theorem hasRank_magnitude (r : Fin Format.single.infinity) :
    HasRank (Format.single.magnitude r) r := by
  obtain ⟨s, same⟩ := Format.exists_double_magnitude r
  refine ⟨s, ?_, ?_⟩
  · rw [← same]
    exact Format.double.nearest_magnitude s
  · rw [same]
    exact Format.single.nearest_magnitude r

theorem HasRank.magnitude_eq_zero {q : ℚ} {r : Nat} (rank : HasRank q r) (nonpos : q ≤ 0) :
    Format.single.magnitude r = 0 := by
  have zero : HasRank 0 0 := by
    have := hasRank_magnitude ⟨0, by decide⟩
    rwa [Format.magnitude_zero] at this
  rw [Nat.le_zero.mp (rank.mono zero nonpos), Format.magnitude_zero]

/-- What becomes of a number by way of double precision: its magnitude is rounded twice, and its sign
stays. -/
inductive RoundsTwice : ℚ → ℚ → Prop
  | signed (negative : Bool) {q : ℚ} {r : Nat} (nonneg : 0 ≤ q) (rank : HasRank q r) :
      RoundsTwice (withSign negative q) (withSign negative (Format.single.magnitude r))

namespace RoundsTwice

variable {p q y z : ℚ}

/-- **Rounding twice is monotone**, also across zero. -/
theorem mono (hp : RoundsTwice p y) (hq : RoundsTwice q z) (le : p ≤ q) : y ≤ z := by
  have grows := Format.single.magnitude_strictMono.monotone
  have nonneg := Format.single.magnitude_nonneg
  obtain @⟨a, p, r, pNonneg, pRank⟩ := hp
  obtain @⟨b, q, t, qNonneg, qRank⟩ := hq
  cases a with
  | false =>
    cases b with
    | false => exact grows (pRank.mono qRank le)
    | true =>
      -- there is no room for anything but the two zeros
      change p ≤ -q at le
      show Format.single.magnitude r ≤ -Format.single.magnitude t
      rw [pRank.magnitude_eq_zero (by linarith), qRank.magnitude_eq_zero (by linarith), neg_zero]
  | true =>
    cases b with
    | false => exact (neg_nonpos.mpr (nonneg r)).trans (nonneg t)
    | true => exact neg_le_neg (grows (qRank.mono pRank (neg_le_neg_iff.mp le)))

theorem unique (hy : RoundsTwice q y) (hz : RoundsTwice q z) : y = z :=
  le_antisymm (hy.mono hz le_rfl) (hz.mono hy le_rfl)

theorem abs (rounds : RoundsTwice q z) : RoundsTwice |q| |z| := by
  obtain ⟨negative, nonneg, rank⟩ := rounds
  rw [abs_withSign negative nonneg, abs_withSign negative (Format.single.magnitude_nonneg _)]
  exact .signed false nonneg rank

end RoundsTwice

/-- A number of single precision stays what it is. -/
theorem IsNumber.roundsTwice {y : ℚ} (number : IsNumber y) : RoundsTwice y y := by
  obtain ⟨negative, r, rfl⟩ := exists_exact_eq number
  exact .signed negative (Format.single.magnitude_nonneg r) (hasRank_magnitude r)

theorem roundsTwice_ofInt {n : Int} (range : minInt ≤ n ∧ n ≤ maxInt) :
    RoundsTwice n (ofInt n).exact := by
  obtain ⟨s, r, -, single, first, second, -⟩ := exists_ranks range
  have rounds := RoundsTwice.signed (decide (n < 0)) (Nat.cast_nonneg _) ⟨s, first, second⟩
  rw [withSign_natAbs] at rounds
  rw [single]
  exact rounds

/-! ## Where the float of an integer lies -/

theorem isNumber_intCast {k : ℤ} (small : |k| < 2 ^ 24) : IsNumber k :=
  ⟨k, 0, small, by norm_num, by norm_num, by rw [zpow_zero, mul_one]⟩

theorem isNumber_two_pow : IsNumber (2 ^ 63) :=
  ⟨1, 63, by norm_num, by norm_num, by norm_num, by norm_num⟩

section Integers

variable {n : Int}

theorem isFinite_ofInt (range : minInt ≤ n ∧ n ≤ maxInt) : (ofInt n).isFinite = true := by
  obtain ⟨_, _, -, single, -⟩ := exists_ranks range
  rw [single]
  rfl

/-- No number of single precision is between an integer and its float. -/
theorem exact_ofInt_le {y : ℚ} (range : minInt ≤ n ∧ n ≤ maxInt) (number : IsNumber y) (le : n ≤ y) :
    (ofInt n).exact ≤ y :=
  (roundsTwice_ofInt range).mono number.roundsTwice le

theorem le_exact_ofInt {y : ℚ} (range : minInt ≤ n ∧ n ≤ maxInt) (number : IsNumber y) (le : y ≤ n) :
    y ≤ (ofInt n).exact :=
  number.roundsTwice.mono (roundsTwice_ofInt range) le

theorem exact_ofInt_of_isNumber (range : minInt ≤ n ∧ n ≤ maxInt) (number : IsNumber n) :
    (ofInt n).exact = n :=
  (roundsTwice_ofInt range).unique number.roundsTwice

theorem abs_exact_ofInt_le (range : minInt ≤ n ∧ n ≤ maxInt) : |(ofInt n).exact| ≤ 2 ^ 63 := by
  have bound : |n| ≤ 2 ^ 63 := by
    rw [minInt, maxInt] at range
    exact abs_le.mpr (by omega)
  exact (roundsTwice_ofInt range).abs.mono isNumber_two_pow.roundsTwice (by exact_mod_cast bound)

end Integers

/-- A double that holds the float of an integer: a finite one, no greater than the integers can be, that
is the integer where single precision has it, and else one of the two numbers of single precision
that enclose it. -/
structure IsNextTo (x : Double) (n : Int) : Prop where
  /-- It is finite. -/
  finite : x.isFinite = true
  /-- Its magnitude is at most that of the least integer. -/
  bounded : |x.exact| ≤ 2 ^ 63
  /-- It is the integer itself if that is a number of single precision. -/
  kept : IsNumber n → x.exact = n
  /-- It is the number just below the integer, or the number just above it. -/
  encloses : IsGreatest {y | IsNumber y ∧ y ≤ n} x.exact ∨ IsLeast {y | IsNumber y ∧ n ≤ y} x.exact

theorem isNextTo_ofInt {n : Int} (range : minInt ≤ n ∧ n ≤ maxInt) :
    IsNextTo ((ofInt n).convert Format.double) n := by
  have finite := isFinite_ofInt range
  obtain ⟨wide, same⟩ := exact_convert finite
  refine ⟨wide, same ▸ abs_exact_ofInt_le range, fun number => ?_, ?_⟩
  · rw [same, exact_ofInt_of_isNumber range number]
  · rw [same]
    have number := isNumber_exact finite
    rcases le_total (ofInt n).exact n with below | above
    · exact .inl ⟨⟨number, below⟩, fun y hy => le_exact_ofInt range hy.1 hy.2⟩
    · exact .inr ⟨⟨number, above⟩, fun y hy => exact_ofInt_le range hy.1 hy.2⟩

/-- **Integers as floats are in order and next to the integers.**  Of two 64-bit integers in order, each
becomes a float without a record, and the floats are in order, too.  Each float is finite and at most
`2 ^ 63` in magnitude, it is the integer itself where single precision has it, and no number of single
precision is between the two. -/
theorem toFloat_encloses {m n : Int} (low : minInt ≤ m) (le : m ≤ n) (high : n ≤ maxInt) :
    ∃ x y : Double,
      (∀ w : World, w.toFloat (.int m) = (.ok x, w) ∧ w.toFloat (.int n) = (.ok y, w)) ∧
      IsNextTo x m ∧ IsNextTo y n ∧ x.Le y := by
  have rangeM : minInt ≤ m ∧ m ≤ maxInt := ⟨low, le.trans high⟩
  have rangeN : minInt ≤ n ∧ n ≤ maxInt := ⟨low.trans le, high⟩
  have nextM := isNextTo_ofInt rangeM
  have nextN := isNextTo_ofInt rangeN
  refine ⟨_, _, fun w => ⟨rfl, rfl⟩, nextM, nextN, .finite nextM.finite nextN.finite ?_⟩
  show ((ofInt m).convert Format.double).exact ≤ ((ofInt n).convert Format.double).exact
  rw [(exact_convert (isFinite_ofInt rangeM)).2, (exact_convert (isFinite_ofInt rangeN)).2]
  exact (roundsTwice_ofInt rangeM).mono (roundsTwice_ofInt rangeN) (by exact_mod_cast le)

/-- The first integer that single precision does not have becomes one of its neighbours, and the lower
neighbour stays what it is. -/
theorem toFloat_encloses_firstMissing :
    (minInt ≤ 2 ^ 24 ∧ (2 ^ 24 : Int) ≤ 2 ^ 24 + 1 ∧ 2 ^ 24 + 1 ≤ maxInt) ∧
    ∃ x y : Double,
      (∀ w : World, w.toFloat (.int (2 ^ 24)) = (.ok x, w) ∧
        w.toFloat (.int (2 ^ 24 + 1)) = (.ok y, w)) ∧
      x.exact = 2 ^ 24 ∧ x.Le y ∧ y.exact ≤ 2 ^ 24 + 2 := by
  have low : minInt ≤ 2 ^ 24 := by decide
  have le : (2 ^ 24 : Int) ≤ 2 ^ 24 + 1 := by decide
  have high : 2 ^ 24 + 1 ≤ maxInt := by decide
  have power : IsNumber (2 ^ 24 : Int) :=
    ⟨1, 24, by norm_num, by norm_num, by norm_num, by norm_num⟩
  have next : IsNumber (2 ^ 24 + 2) :=
    ⟨2 ^ 23 + 1, 1, by norm_num, by norm_num, by norm_num, by norm_num⟩
  obtain ⟨x, y, floats, nextM, nextN, order⟩ := toFloat_encloses low le high
  refine ⟨⟨low, le, high⟩, x, y, floats, ?_, order, ?_⟩
  · rw [nextM.kept power]
    norm_num
  · rcases nextN.encloses with below | above
    · refine below.1.2.trans ?_
      norm_num
    · refine above.2 ⟨next, ?_⟩
      norm_num

/-! ## There and back -/

section Integers

variable {m n : Int}

/-- The float of an integer is an integer: a number with a fraction is less than `2 ^ 24`, and below
that all integers are numbers of single precision. -/
theorem exists_exact_ofInt_eq (range : minInt ≤ n ∧ n ≤ maxInt) :
    ∃ k : ℤ, (ofInt n).exact = k := by
  by_cases small : |n| < 2 ^ 24
  · exact ⟨n, exact_ofInt_of_isNumber range (isNumber_intCast small)⟩
  · have large : ((2 ^ 24 - 1 : ℤ) : ℚ) ≤ |(ofInt n).exact| := by
      refine (isNumber_intCast (by norm_num)).roundsTwice.mono (roundsTwice_ofInt range).abs ?_
      exact_mod_cast (by omega : 2 ^ 24 - 1 ≤ |n|)
    obtain ⟨a, e, digits, -, -, value⟩ := isNumber_exact (isFinite_ofInt range)
    have whole : 0 ≤ e := by
      by_contra fraction
      have half : (2 : ℚ) ^ e ≤ 2 ^ (-1 : ℤ) := zpow_le_zpow_right₀ (by norm_num) (by omega)
      have positive : (0 : ℚ) < 2 ^ e := zpow_pos (by norm_num) e
      have digitsQ : |(a : ℚ)| < 2 ^ 24 := by exact_mod_cast digits
      have nonneg := abs_nonneg (a : ℚ)
      rw [value, abs_mul, abs_of_pos positive] at large
      norm_num at half large
      nlinarith
    obtain ⟨k, rfl⟩ := Int.eq_ofNat_of_zero_le whole
    exact ⟨a * 2 ^ k, by rw [value, zpow_natCast]; push_cast; rfl⟩

/-- The float of an integer has the integer's sign. -/
theorem exact_ofInt_neg_iff (range : minInt ≤ n ∧ n ≤ maxInt) : (ofInt n).exact < 0 ↔ n < 0 := by
  constructor
  · intro below
    by_contra above
    have aboveQ : ((0 : ℤ) : ℚ) ≤ n := by exact_mod_cast not_lt.mp above
    have := le_exact_ofInt range (isNumber_intCast (k := 0) (by norm_num)) aboveQ
    rw [Int.cast_zero] at this
    linarith
  · intro below
    have belowQ : (n : ℚ) ≤ (-1 : ℤ) := by exact_mod_cast (by omega : n ≤ -1)
    have := exact_ofInt_le range (isNumber_intCast (k := -1) (by norm_num)) belowQ
    norm_num at this
    linarith

/-- Integers with the same float as a number have the same datum. -/
theorem ofInt_eq_of_exact (rangeM : minInt ≤ m ∧ m ≤ maxInt) (rangeN : minInt ≤ n ∧ n ≤ maxInt)
    (same : (ofInt m).exact = (ofInt n).exact) : ofInt m = ofInt n := by
  have sign : decide (m < 0) = decide (n < 0) := by
    rw [decide_eq_decide, ← exact_ofInt_neg_iff rangeM, ← exact_ofInt_neg_iff rangeN, same]
  obtain ⟨_, r, -, left, -⟩ := exists_ranks rangeM
  obtain ⟨_, t, -, right, -⟩ := exists_ranks rangeN
  rw [left, right, sign] at same ⊢
  have ranks := Format.single.magnitude_strictMono.injective (withSign_injective _ same)
  rw [Fin.ext ranks]

theorem exact_ofInt_maxInt : (ofInt maxInt).exact = 2 ^ 63 := by
  have float : ofInt maxInt = .finite false ⟨190 * 2 ^ 23, by decide⟩ := by decide +kernel
  rw [float]
  exact Format.single_magnitude_limit

/-- What an integer comes back as: its float, if that is in range. -/
theorem truncate_ofInt {k : ℤ} (range : minInt ≤ n ∧ n ≤ maxInt) (value : (ofInt n).exact = k) :
    Double.truncate ((ofInt n).convert Format.double) = saturate k := by
  obtain ⟨finite, same⟩ := exact_convert (isFinite_ofInt range)
  obtain ⟨r, part, result⟩ := Double.exists_integerPart finite
  rw [same, value] at part
  rw [result, part.unique (isIntegerPart_intCast k)]

/-- The float of an integer is in the range of integers, or it is `2 ^ 63`. -/
theorem saturate_cases {k : ℤ} (range : minInt ≤ n ∧ n ≤ maxInt) (value : (ofInt n).exact = k) :
    (saturate k = k ∧ minInt ≤ k ∧ k ≤ maxInt) ∨ (saturate k = maxInt ∧ k = 2 ^ 63) := by
  have bounded := abs_exact_ofInt_le range
  rw [value] at bounded
  have bounds : |k| ≤ 2 ^ 63 := by exact_mod_cast bounded
  rw [abs_le] at bounds
  by_cases inside : k ≤ maxInt
  · have rangeK : minInt ≤ k ∧ k ≤ maxInt := by
      rw [minInt]
      omega
    exact .inl ⟨saturate_of_range rangeK, rangeK⟩
  · refine .inr ⟨saturate_of_ge (by omega), ?_⟩
    rw [maxInt] at inside
    omega

/-- What an integer comes back as has the same float. -/
theorem ofInt_saturate {k : ℤ} (range : minInt ≤ n ∧ n ≤ maxInt) (value : (ofInt n).exact = k) :
    ofInt (saturate k) = ofInt n := by
  rcases saturate_cases range value with ⟨kept, rangeK⟩ | ⟨bound, rfl⟩
  · have number : IsNumber k := value ▸ isNumber_exact (isFinite_ofInt range)
    rw [kept]
    exact ofInt_eq_of_exact rangeK range ((exact_ofInt_of_isNumber rangeK number).trans value.symm)
  · rw [bound]
    refine ofInt_eq_of_exact (by decide) range (exact_ofInt_maxInt.trans ?_)
    rw [value]
    norm_num

/-- The integers that come back as they were. -/
theorem saturate_eq_iff {k : ℤ} (range : minInt ≤ n ∧ n ≤ maxInt) (value : (ofInt n).exact = k) :
    saturate k = n ↔ IsNumber n ∨ n = maxInt := by
  have number : IsNumber k := value ▸ isNumber_exact (isFinite_ofInt range)
  have kept (numberN : IsNumber n) : k = n := by
    exact_mod_cast value.symm.trans (exact_ofInt_of_isNumber range numberN)
  rcases saturate_cases range value with ⟨same, -, inside⟩ | ⟨bound, top⟩
  · rw [same]
    constructor
    · rintro rfl
      exact .inl number
    · rintro (numberN | rfl)
      · exact kept numberN
      · -- the float of the greatest integer is out of range
        have top : k = 2 ^ 63 := by exact_mod_cast value.symm.trans exact_ofInt_maxInt
        rw [maxInt] at inside
        omega
  · rw [bound]
    constructor
    · exact fun greatest => .inr greatest.symm
    · rintro (numberN | rfl)
      · have := kept numberN
        rw [maxInt] at range
        omega
      · rfl

end Integers

/-- **Integers as floats and back.**  A 64-bit integer `n` becomes a float, and the value that holds this
float becomes an integer `m`, both without a record.  The integer is what it was just if single
precision has it or it is the greatest one.  It fits in 64 bits again, and it becomes the same float as
before, bit for bit. -/
theorem toInteger_toFloat {n : Int} (range : minInt ≤ n ∧ n ≤ maxInt) :
    ∃ (x : Double) (m : Int),
      (∀ w : World, w.toFloat (.int n) = (.ok x, w)) ∧
      (∀ (w : World) (box : Nat), w.toInteger (Value.ofDouble x box) = (.ok m, w)) ∧
      (m = n ↔ IsNumber n ∨ n = maxInt) ∧
      (minInt ≤ m ∧ m ≤ maxInt) ∧
      ∀ w : World, w.toFloat (.int m) = (.ok x, w) := by
  obtain ⟨k, value⟩ := exists_exact_ofInt_eq range
  have again : Double.toSingle ((ofInt n).convert Format.double) = (ofInt n).convert Format.double :=
    congrArg (Binary.convert Format.double) (convert_convert (ofInt n))
  refine ⟨(ofInt n).convert Format.double, saturate k, fun w => rfl, fun w box => ?_,
    saturate_eq_iff range value, saturate_range k, fun w => ?_⟩
  · rw [Value.ofDouble, again, ← truncate_ofInt range value]
    rfl
  · rw [← ofInt_saturate range value]
    rfl

/-- The greatest integer comes back, though its float is `2 ^ 63`. -/
theorem toInteger_toFloat_maxInt :
    (minInt ≤ maxInt ∧ maxInt ≤ maxInt) ∧
    ∃ x : Double,
      (∀ w : World, w.toFloat (.int maxInt) = (.ok x, w)) ∧
      ∀ (w : World) (box : Nat), w.toInteger (Value.ofDouble x box) = (.ok maxInt, w) := by
  have range : minInt ≤ maxInt ∧ maxInt ≤ maxInt := by decide
  obtain ⟨x, m, float, back, same, -⟩ := toInteger_toFloat range
  rw [same.mpr (.inr rfl)] at back
  exact ⟨range, x, float, back⟩

end LoxValues.Single
