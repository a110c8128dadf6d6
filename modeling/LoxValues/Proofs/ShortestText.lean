import LoxValues.Proofs.ExactValue
import LoxValues.Proofs.SignificantDigits

/-!
# The text of a float is the shortest

`LoxValues.Proofs.FloatText` shows that the text of a number reads back.  Here is why no shorter text
does, and why no other text of the same length comes nearer.

* A decimal that rounds to the rank lies on no grid coarser than the one on which the search ended
  (`Format.shortest_coarsest`).  One with fewer digits on a finer grid would leave room for a power of
  ten between itself and the answer, which lies on a coarser grid (`Format.length_shortest_le`).
* On the grid itself, the answer is the nearest of the points that round to the rank: the points that do
  lie next to one another, and the nearest comes first among the candidates
  (`Format.closest_of_candidate`).
* On a finer grid, only decimals of one digit could compete, on the other side of a power of ten.  That
  two such decimals round to one number would take a number with less than four binary digits, and
  single precision has no such number there (`Single.not_readsAcross`).
-/

set_option autoImplicit false
namespace LoxValues

open Text

/-! ## The nearest of a grid -/

/-- No whole number is nearer to a quotient than the rounded one. -/
theorem roundHalfEven_closest (num : Nat) {den : Nat} (pos : 0 < den) (c : Nat) :
    |(roundHalfEven num den : ℚ) - num / den| ≤ |(c : ℚ) - num / den| := by
  have denQ : (0 : ℚ) < den := by exact_mod_cast pos
  obtain ⟨up, down, -⟩ := roundHalfEven_bounds num pos
  have above : (num : ℚ) / den ≤ roundHalfEven num den + 1 / 2 := by
    rw [div_le_iff₀ denQ]
    have : (2 * num : ℚ) ≤ (2 * roundHalfEven num den + 1) * den := by exact_mod_cast up
    linarith
  have below : (roundHalfEven num den : ℚ) - 1 / 2 ≤ num / den := by
    rw [le_div_iff₀ denQ]
    have : (2 * roundHalfEven num den * den : ℚ) ≤ 2 * num + den := by exact_mod_cast down
    linarith
  rcases Nat.lt_trichotomy c (roundHalfEven num den) with less | rfl | greater
  · have lessQ : (c : ℚ) + 1 ≤ roundHalfEven num den := by exact_mod_cast less
    rw [abs_of_nonpos (by linarith : (c : ℚ) - num / den ≤ 0), abs_le]
    constructor <;> linarith
  · exact le_rfl
  · have greaterQ : (roundHalfEven num den : ℚ) + 1 ≤ c := by exact_mod_cast greater
    rw [abs_of_nonneg (by linarith : 0 ≤ (c : ℚ) - num / den), abs_le]
    constructor <;> linarith

namespace Format

variable {f : Format}

theorem abs_value_sub (f : Format) (r c : Nat) (e : Int) :
    |Decimal.value ⟨c, e⟩ - f.magnitude r| =
      |(c : ℚ) - f.stepsNum r e / f.stepsDen e| * 10 ^ e := by
  have power : (0 : ℚ) < 10 ^ e := zpow_pos (by norm_num) e
  rw [Decimal.value, f.magnitude_eq_steps r e, ← sub_mul, abs_mul, abs_of_pos power]

/-- The points of a grid that round to a rank lie next to one another. -/
theorem reads_between (precise : 2 ≤ f.precision) {r b c : Nat} {e : Int}
    (reads : f.rankOfDecimal ⟨c, e⟩ = r)
    (between : c ≤ b ∧ (b : ℚ) ≤ f.stepsNum r e / f.stepsDen e ∨
      (f.stepsNum r e : ℚ) / f.stepsDen e ≤ b ∧ b ≤ c) : f.rankOfDecimal ⟨b, e⟩ = r := by
  have power : (0 : ℚ) ≤ 10 ^ e := zpow_nonneg (by norm_num) e
  rw [rankOfDecimal_eq_iff precise] at reads
  have own := f.nearest_magnitude r
  have other := f.nearest_rankOfDecimal precise ⟨b, e⟩
  rcases between with ⟨left, right⟩ | ⟨left, right⟩
  · refine reads.between own other (mul_le_mul_of_nonneg_right (by exact_mod_cast left) power) ?_
    rw [f.magnitude_eq_steps r e]
    exact mul_le_mul_of_nonneg_right right power
  · refine own.between reads other ?_ (mul_le_mul_of_nonneg_right (by exact_mod_cast right) power)
    rw [f.magnitude_eq_steps r e]
    exact mul_le_mul_of_nonneg_right left power

/-- **The first candidate that rounds to a rank is the nearest** of all points of its grid that do. -/
theorem closest_of_candidate (precise : 2 ≤ f.precision) {r : Nat} {e : Int} {d : Decimal}
    (found : ((f.candidates r e).find? fun d => f.rankOfDecimal d == r) = some d) {c : Nat}
    (reads : f.rankOfDecimal ⟨c, e⟩ = r) :
    |d.value - f.magnitude r| ≤ |Decimal.value ⟨c, e⟩ - f.magnitude r| := by
  have power : (0 : ℚ) ≤ 10 ^ e := zpow_nonneg (by norm_num) e
  have pos := f.stepsDen_pos e
  have hit : f.rankOfDecimal d = r := by simpa using List.find?_some found
  have least := le_roundHalfEven (f.stepsNum r e) (f.stepsDen e)
  have greatest := roundHalfEven_le (f.stepsNum r e) (f.stepsDen e)
  obtain ⟨lower, upper⟩ := quotient_between (f.stepsNum r e) pos
  -- a neighbour that does not round to the rank hides all points beyond it
  have left := reads_between precise (b := f.stepsNum r e / f.stepsDen e) reads
  have right := reads_between precise (b := f.stepsNum r e / f.stepsDen e + 1) reads
  rw [candidates_eq] at found
  by_cases first : f.rankOfDecimal ⟨roundHalfEven (f.stepsNum r e) (f.stepsDen e), e⟩ = r
  · rw [List.find?_cons_of_pos (by simpa using first), Option.some_inj] at found
    rw [← found, abs_value_sub, abs_value_sub]
    exact mul_le_mul_of_nonneg_right (roundHalfEven_closest _ pos c) power
  · rw [List.find?_cons_of_neg (by simpa using first)] at found
    have mem := List.mem_of_find?_eq_some found
    simp only [List.mem_cons, List.not_mem_nil, or_false] at mem
    generalize roundHalfEven (f.stepsNum r e) (f.stepsDen e) = k at *
    rcases mem with rfl | rfl
    · have other : k = f.stepsNum r e / f.stepsDen e + 1 := by
        by_contra ne
        exact first (by rw [show k = f.stepsNum r e / f.stepsDen e by omega, hit])
      have before : c ≤ f.stepsNum r e / f.stepsDen e := by
        by_contra beyond
        exact first (by rw [other, right (.inr ⟨by push_cast; exact upper.le, by omega⟩)])
      have beforeQ : (c : ℚ) ≤ (f.stepsNum r e / f.stepsDen e : Nat) := by exact_mod_cast before
      rw [abs_value_sub, abs_value_sub, abs_of_nonpos (by linarith), abs_of_nonpos (by linarith)]
      exact mul_le_mul_of_nonneg_right (by linarith) power
    · have other : k = f.stepsNum r e / f.stepsDen e := by
        by_contra ne
        exact first (by rw [show k = f.stepsNum r e / f.stepsDen e + 1 by omega, hit])
      have beyond : f.stepsNum r e / f.stepsDen e + 1 ≤ c := by
        by_contra before
        exact first (by rw [other, left (.inl ⟨by omega, lower⟩)])
      have beyondQ : ((f.stepsNum r e / f.stepsDen e : Nat) : ℚ) + 1 ≤ c := by exact_mod_cast beyond
      rw [abs_value_sub, abs_value_sub, Nat.cast_add_one, abs_of_nonneg (by linarith),
        abs_of_nonneg (by linarith)]
      exact mul_le_mul_of_nonneg_right (by linarith) power

/-! ## The answer of the search -/

/-- What the search finds is a candidate of its grid, and nearest among the points of the grid that
round to the rank. -/
theorem firstReading_closest (precise : 2 ≤ f.precision) (r : Nat) {finer : Nat} {e : Int}
    (finest : e - finer = -f.scale) :
    f.firstReading r finer e ∈ f.candidates r (f.firstReading r finer e).exponent ∧
      ∀ c, f.rankOfDecimal ⟨c, (f.firstReading r finer e).exponent⟩ = r →
        |(f.firstReading r finer e).value - f.magnitude r| ≤
          |Decimal.value ⟨c, (f.firstReading r finer e).exponent⟩ - f.magnitude r| := by
  induction finer generalizing e with
  | zero =>
    have bottom : e = -f.scale := by simpa using finest
    have unit : f.stepsDen e = f.one := by
      rw [stepsDen, show e.toNat = 0 by omega, Nat.pow_eq, pow_zero, mul_one]
    rw [firstReading]
    refine ⟨?_, fun c _ => ?_⟩
    · rw [candidates_eq, unit]
      exact List.mem_cons_of_mem _ List.mem_cons_self
    · rw [value_units f r bottom, sub_self, abs_zero]
      exact abs_nonneg _
  | succ finer ih =>
    rw [firstReading]
    split
    · next d found =>
      have mem := List.mem_of_find?_eq_some found
      have grid : d.exponent = e := by
        rw [candidates_eq] at mem
        simp only [List.mem_cons, List.not_mem_nil, or_false] at mem
        rcases mem with rfl | rfl | rfl <;> rfl
      rw [grid]
      exact ⟨mem, fun c reads => closest_of_candidate precise found reads⟩
    · exact ih (by push_cast at finest; omega)

theorem shortest_closest (precise : 2 ≤ f.precision) (r : Nat) :
    f.shortest r ∈ f.candidates r (f.shortest r).exponent ∧
      ∀ c, f.rankOfDecimal ⟨c, (f.shortest r).exponent⟩ = r →
        |(f.shortest r).value - f.magnitude r| ≤
          |Decimal.value ⟨c, (f.shortest r).exponent⟩ - f.magnitude r| :=
  firstReading_closest precise r (by push_cast; omega)

/-- The coefficient of the answer exceeds the magnitude by less than a step. -/
theorem coefficient_shortest_le (precise : 2 ≤ f.precision) (r : Nat) :
    (f.shortest r).coefficient ≤
      f.stepsNum r (f.shortest r).exponent / f.stepsDen (f.shortest r).exponent + 1 := by
  have mem := (f.shortest_closest precise r).1
  rw [candidates_eq] at mem
  simp only [List.mem_cons, List.not_mem_nil, or_false] at mem
  rcases mem with h | h | h
  · rw [congrArg Decimal.coefficient h]
    exact roundHalfEven_le _ _
  · rw [congrArg Decimal.coefficient h]
    exact Nat.le_succ _
  · exact (congrArg Decimal.coefficient h).le

/-- **No decimal on a coarser grid than the answer rounds to the rank**, unless the answer is a power of
ten beyond the magnitude, with which the search started. -/
theorem shortest_coarsest (precise : 2 ≤ f.precision) {r : Nat} (pos : 0 < r) :
    ((f.shortest r).coefficient = 1 ∧ f.magnitude r < (f.shortest r).value) ∨
      ∀ d : Decimal, (f.shortest r).exponent < d.exponent → f.rankOfDecimal d ≠ r := by
  rcases f.firstReading_first precise r ((Nat.toDigits 10 (f.units r / f.one)).length + f.scale)
    (Nat.toDigits 10 (f.units r / f.one)).length with start | missed
  · rw [← shortest] at start
    left
    have whole : f.units r / f.one < 10 ^ (Nat.toDigits 10 (f.units r / f.one)).length :=
      (Nat.length_toDigits_le_iff (by decide) Nat.length_toDigits_pos).mp le_rfl
    have some := f.coefficient_shortest_pos precise pos
    have most := f.coefficient_shortest_le precise r
    have none : f.stepsNum r (f.shortest r).exponent / f.stepsDen (f.shortest r).exponent = 0 := by
      rw [start, stepsNum, stepsDen, Nat.div_eq_zero_iff]
      right
      rw [Nat.div_lt_iff_lt_mul f.one_pos] at whole
      simpa [mul_comm] using whole
    have one : (f.shortest r).coefficient = 1 := by omega
    refine ⟨one, ?_⟩
    obtain ⟨-, upper⟩ := quotient_between (f.stepsNum r (f.shortest r).exponent)
      (f.stepsDen_pos (f.shortest r).exponent)
    rw [none] at upper
    rw [Decimal.value, one, f.magnitude_eq_steps r (f.shortest r).exponent]
    exact mul_lt_mul_of_pos_right (by simpa using upper) (zpow_pos (by norm_num) _)
  · rw [← shortest] at missed
    right
    rintro ⟨c, e⟩ coarser reads
    obtain ⟨j, grid⟩ := Int.eq_ofNat_of_zero_le (sub_nonneg.mpr coarser)
    refine missed ⟨c * 10 ^ j, _⟩ rfl ?_
    rw [rankOfDecimal_eq_iff precise] at reads ⊢
    rw [Decimal.value_mul_pow]
    convert reads using 3
    simp only at grid
    omega

/-- A power of ten between the answer and another decimal that rounds to the rank. -/
theorem reads_pow (precise : 2 ≤ f.precision) {r : Nat} (pos : 0 < r) {d : Decimal}
    (reads : f.rankOfDecimal d = r) (before : d.point < (f.shortest r).point) (n : Nat) {e : Int}
    (place : (n : Int) + e = (f.shortest r).point - 1) : f.rankOfDecimal ⟨10 ^ n, e⟩ = r := by
  have value : Decimal.value ⟨10 ^ n, e⟩ = 10 ^ ((f.shortest r).point - 1) := by
    rw [← place, Decimal.value, zpow_add₀ (by norm_num), zpow_natCast]
    push_cast
    rfl
  rw [rankOfDecimal_eq_iff precise] at reads
  refine reads.between ((rankOfDecimal_eq_iff precise).mp (f.rankOfDecimal_shortest precise r))
    (f.nearest_rankOfDecimal precise _) ?_ ?_
  · rw [value]
    exact d.value_lt.le.trans (zpow_le_zpow_right₀ (by norm_num) (by omega))
  · rw [value]
    exact Decimal.pow_le_value (f.coefficient_shortest_pos precise pos)

/-- With two digits or more, the answer is no power of ten. -/
theorem coarsest_of_long (precise : 2 ≤ f.precision) {r : Nat} (pos : 0 < r)
    (long : 2 ≤ (f.shortest r).digits.length) {d : Decimal} (reads : f.rankOfDecimal d = r) :
    d.exponent ≤ (f.shortest r).exponent := by
  rcases f.shortest_coarsest precise pos with ⟨one, -⟩ | coarsest
  · have single : (f.shortest r).digits.length ≤ 1 := by
      rw [Decimal.length_digits_le_iff _ Nat.one_pos, one]
      decide
    omega
  · by_contra coarser
    exact coarsest d (by omega) reads

/-- **No power of ten divides the answer from another decimal** that rounds to the rank, if the answer has
two digits or more: it would lie on a coarser grid. -/
theorem point_shortest_le (precise : 2 ≤ f.precision) {r : Nat} (pos : 0 < r)
    (long : 2 ≤ (f.shortest r).digits.length) {d : Decimal} (reads : f.rankOfDecimal d = r) :
    (f.shortest r).point ≤ d.point := by
  by_contra before
  obtain ⟨n, length⟩ := Nat.exists_eq_add_of_le long
  have place : (n : Int) + ((f.shortest r).exponent + 1) = (f.shortest r).point - 1 := by
    rw [Decimal.point, length]
    push_cast
    ring
  have coarser := f.coarsest_of_long precise pos long
    (f.reads_pow precise pos reads (not_le.mp before) n place)
  simp only at coarser
  omega

/-- **No decimal with fewer digits rounds to the rank.** -/
theorem length_shortest_le (precise : 2 ≤ f.precision) {r : Nat} (pos : 0 < r) {d : Decimal}
    (reads : f.rankOfDecimal d = r) : (f.shortest r).digits.length ≤ d.digits.length := by
  by_contra fewer
  have some := List.length_pos_of_ne_nil d.digits_ne_nil
  have long : 2 ≤ (f.shortest r).digits.length := by omega
  have finer := f.coarsest_of_long precise pos long reads
  have before := f.point_shortest_le precise pos long reads
  rw [Decimal.point, Decimal.point] at before
  omega

/-- The last digit of the answer is not zero. -/
theorem coefficient_shortest_of_pos (precise : 2 ≤ f.precision) {r : Nat} (pos : 0 < r) :
    (f.shortest r).coefficient % 10 ≠ 0 := by
  intro multiple
  rcases f.shortest_coarsest precise pos with ⟨one, -⟩ | coarsest
  · omega
  · obtain ⟨c, tenfold⟩ := Nat.dvd_of_mod_eq_zero multiple
    refine coarsest ⟨c, (f.shortest r).exponent + 1⟩ (Int.lt_succ _) ?_
    rw [rankOfDecimal_eq_iff precise, ← Decimal.value_ten_mul, ← tenfold]
    exact (rankOfDecimal_eq_iff precise).mp (f.rankOfDecimal_shortest precise r)

/-- All digits of the answer are significant. -/
theorem significant_shortest (precise : 2 ≤ f.precision) {r : Nat} (pos : 0 < r) :
    (f.shortest r).significant = (f.shortest r).digits.length :=
  Decimal.significant_eq_length (f.coefficient_shortest_of_pos precise pos)

/-- A number below a power of ten that both the power and a decimal no greater than nine tenths of it
round to. -/
structure ReadsAcross (f : Format) (r : Nat) (e : Int) (q : ℚ) : Prop where
  /-- The decimal rounds to the number. -/
  below : f.Nearest q r
  /-- So does the power. -/
  beyond : f.Nearest (10 ^ e) r
  /-- They lie a tenth of the power apart, or more. -/
  apart : 10 * q ≤ 9 * 10 ^ e
  /-- The number lies below the power. -/
  less : f.magnitude r < 10 ^ e

/-- Among decimals of one digit, one on a finer grid is no nearer than the answer. -/
theorem closest_of_finer (precise : 2 ≤ f.precision) {r : Nat} (pos : 0 < r)
    (clear : ∀ e q, ¬ f.ReadsAcross r e q) {d : Decimal} (reads : f.rankOfDecimal d = r)
    (finer : d.exponent < (f.shortest r).exponent) (one : d.digits.length = 1)
    (short : (f.shortest r).digits.length = 1) :
    |(f.shortest r).value - f.magnitude r| ≤ |d.value - f.magnitude r| := by
  have before : d.point < (f.shortest r).point := by
    rw [Decimal.point, Decimal.point, one, short]
    omega
  have power := f.reads_pow precise pos reads before 0 (e := (f.shortest r).exponent)
    (by rw [Decimal.point, short]; ring)
  have value : Decimal.value ⟨10 ^ 0, (f.shortest r).exponent⟩ = 10 ^ (f.shortest r).exponent := by
    rw [Decimal.value, pow_zero, Nat.cast_one, one_mul]
  have closest := (f.shortest_closest precise r).2 _ power
  rw [value] at closest
  -- the decimal lies at nine tenths of the power or below
  have digit : d.coefficient ≤ 9 := by
    have := (d.length_digits_le_iff Nat.one_pos).mp one.le
    omega
  have apart : 10 * d.value ≤ 9 * 10 ^ (f.shortest r).exponent := by
    have digitQ : (d.coefficient : ℚ) ≤ 9 := by exact_mod_cast digit
    have step : (10 : ℚ) * 10 ^ d.exponent ≤ 10 ^ (f.shortest r).exponent := by
      rw [mul_comm, ← zpow_add_one₀ (by norm_num)]
      exact zpow_le_zpow_right₀ (by norm_num) (by omega)
    have scale : (0 : ℚ) ≤ 10 ^ d.exponent := zpow_nonneg (by norm_num) _
    rw [Decimal.value]
    nlinarith
  rcases lt_or_ge (f.magnitude r) (10 ^ (f.shortest r).exponent) with less | inside
  · refine absurd ⟨(rankOfDecimal_eq_iff precise).mp reads, ?_, apart, less⟩ (clear _ _)
    rw [← value]
    exact (rankOfDecimal_eq_iff precise).mp power
  · have scale : (0 : ℚ) ≤ 10 ^ (f.shortest r).exponent := zpow_nonneg (by norm_num) _
    rw [abs_of_nonpos (by linarith : d.value - f.magnitude r ≤ 0)]
    rw [abs_of_nonpos (by linarith : 10 ^ (f.shortest r).exponent - f.magnitude r ≤ 0)] at closest
    linarith

/-- **No other decimal of as many digits is nearer** than the answer, if it rounds to the rank. -/
theorem closest_of_length (precise : 2 ≤ f.precision) {r : Nat} (pos : 0 < r)
    (clear : ∀ e q, ¬ f.ReadsAcross r e q) {d : Decimal} (reads : f.rankOfDecimal d = r)
    (length : d.digits.length = (f.shortest r).digits.length) :
    |(f.shortest r).value - f.magnitude r| ≤ |d.value - f.magnitude r| := by
  have some := List.length_pos_of_ne_nil d.digits_ne_nil
  rcases lt_trichotomy d.exponent (f.shortest r).exponent with finer | same | coarser
  · rcases Nat.lt_or_ge (f.shortest r).digits.length 2 with short | long
    · exact f.closest_of_finer precise pos clear reads finer (by omega) (by omega)
    · have before := f.point_shortest_le precise pos long reads
      rw [Decimal.point, Decimal.point] at before
      omega
  · obtain ⟨c, e⟩ := d
    obtain rfl : e = (f.shortest r).exponent := same
    exact (f.shortest_closest precise r).2 c reads
  · rcases f.shortest_coarsest precise pos with ⟨one, less⟩ | coarsest
    · -- the answer is a power of ten beyond the magnitude, and the decimal lies beyond that
      have positive := f.coefficient_pos_of_reads precise pos reads
      have beyond : (f.shortest r).value ≤ d.value := by
        refine le_trans ?_ (Decimal.pow_le_value positive)
        rw [Decimal.value, one, Nat.cast_one, one_mul, Decimal.point]
        exact zpow_le_zpow_right₀ (by norm_num) (by omega)
      rw [abs_of_nonneg (by linarith), abs_of_nonneg (by linarith)]
      linarith
    · exact absurd reads (coarsest d coarser)

/-- A magnitude, the next and the one after that, in steps of the first: the step may double once. -/
theorem exists_three_units (f : Format) (t : Nat) :
    ∃ n k, t = n + k * f.binade ∧ (k = 0 ∨ f.binade ≤ n) ∧ f.units t = n * 2 ^ k ∧
      f.units (t + 1) = (n + 1) * 2 ^ k ∧ f.units (t + 2) ≤ (n + 3) * 2 ^ k := by
  obtain ⟨n, k, rfl, low, high⟩ := f.exists_place t
  refine ⟨n, k, rfl, low, units_add low high.le, units_add_succ low high, ?_⟩
  by_cases inside : n + 2 ≤ 2 * f.binade
  · rw [show n + k * f.binade + 2 = n + 2 + k * f.binade by ring,
      units_add (low.imp_right fun h => by omega) inside]
    exact Nat.mul_le_mul_right _ (by omega)
  · have positive := f.binade_pos
    have next : n + k * f.binade + 2 = f.binade + 1 + (k + 1) * f.binade := by
      rw [add_mul, one_mul]
      omega
    rw [next, units_add (.inr (by omega)) (by omega), pow_succ, mul_comm (2 ^ k) 2, ← mul_assoc]
    exact Nat.mul_le_mul_right _ (by omega)

/-- The first magnitudes are the units. -/
theorem units_of_le {r : Nat} (le : r ≤ 2 * f.binade) : f.units r = r := by
  simpa using units_add (k := 0) (.inl rfl) le

end Format

/-- A decimal that rounds to a finite number has its sign, and rounds to its rank. -/
theorem Numeral.IsNearest.reads {f : Format} (precise : 2 ≤ f.precision) {negative sign : Bool}
    {r : Fin f.infinity} {d : Decimal}
    (nearest : (Numeral.decimal sign d).IsNearest (Binary.finite negative r)) :
    sign = negative ∧ f.rankOfDecimal d = r := by
  obtain ⟨s, rank, same⟩ := nearest
  rw [Binary.ofRank] at same
  split at same
  · rw [Binary.finite.injEq] at same
    obtain ⟨rfl, rfl⟩ := same
    exact ⟨rfl, (Format.rankOfDecimal_eq_iff precise).mpr rank⟩
  · cases same

/-! ## Single precision -/

namespace Single

/-- Only near zero is the middle above a magnitude far above the middle below it. -/
theorem le_of_wide {t : Nat}
    (wide : 10 * (Format.single.units t + Format.single.units (t + 1)) ≤
      9 * (Format.single.units (t + 1) + Format.single.units (t + 2))) : t ≤ 13 := by
  obtain ⟨n, k, rfl, low, first, second, third⟩ := Format.single.exists_three_units t
  have binade : Format.single.binade = 2 ^ 23 := rfl
  have few : n ≤ 13 := by
    have scaled : 10 * (2 * n + 1) * 2 ^ k ≤ 9 * (2 * n + 4) * 2 ^ k := by
      rw [first, second] at wide
      linarith
    have := Nat.le_of_mul_le_mul_right scaled (by positivity)
    omega
  obtain rfl : k = 0 := low.resolve_right (by omega)
  omega

/-- No power of ten lies like that between two of the least magnitudes. -/
theorem no_power_above {n : Nat} (few : n ≤ 13) {e : Int}
    (above : ((n + 1 : Nat) : ℚ) < 10 ^ e * 2 ^ 149)
    (middle : 2 * (10 ^ e * 2 ^ 149) ≤ ((2 * n + 3 : Nat) : ℚ))
    (below : ((10 * (2 * n + 1) : Nat) : ℚ) ≤ 18 * (10 ^ e * 2 ^ 149)) : False := by
  have fewQ : (n : ℚ) ≤ 13 := by exact_mod_cast few
  push_cast at above middle below
  rcases lt_trichotomy e (-44) with less | rfl | greater
  · have power : (10 : ℚ) ^ e ≤ 10 ^ (-45 : ℤ) := zpow_le_zpow_right₀ (by norm_num) (by omega)
    have nonneg : (0 : ℚ) ≤ n := Nat.cast_nonneg n
    norm_num at power above
    linarith
  · -- the power is a little more than seven units
    have lower : n < 7 := by
      norm_num at above
      have : (n : ℚ) < 7 := by linarith
      exact_mod_cast this
    have upper : 5 < n := by
      norm_num at middle
      have : (5 : ℚ) < n := by linarith
      exact_mod_cast this
    obtain rfl : n = 6 := by omega
    norm_num at below
  · have power : (10 : ℚ) ^ (-43 : ℤ) ≤ 10 ^ e := zpow_le_zpow_right₀ (by norm_num) (by omega)
    norm_num at power middle
    linarith

/-- No number of single precision is read across a power of ten. -/
theorem not_readsAcross {r : Nat} (pos : 0 < r) (e : Int) (q : ℚ) :
    ¬ Format.single.ReadsAcross r e q := by
  rintro ⟨low, high, apart, above⟩
  obtain ⟨t, rfl⟩ := Nat.exists_eq_add_of_le' pos
  have lower := low.middle_le (Nat.lt_succ_self t)
  have upper := high.le_middle (Nat.lt_succ_self (t + 1))
  have one : (Format.single.one : ℚ) = 2 ^ 149 := Format.single.cast_one
  have scale : (0 : ℚ) < 2 ^ 149 := by positivity
  simp only [Nat.succ_eq_add_one, Format.magnitude, one] at lower upper above
  rw [← add_div, div_le_iff₀ scale] at lower
  rw [← add_div, le_div_iff₀ scale] at upper
  rw [div_lt_iff₀ scale] at above
  have between : (10 * (Format.single.units t + Format.single.units (t + 1)) : ℚ) ≤
      18 * (10 ^ e * 2 ^ 149) := by
    have := mul_le_mul_of_nonneg_right apart scale.le
    linarith
  have few : t ≤ 13 := by
    refine le_of_wide ?_
    have : (10 * (Format.single.units t + Format.single.units (t + 1)) : ℚ) ≤
        9 * (Format.single.units (t + 1) + Format.single.units (t + 2)) := by linarith
    exact_mod_cast this
  have units {n : Nat} (le : n ≤ 15) : Format.single.units n = n :=
    Format.units_of_le (le.trans (by decide))
  rw [units (by omega), units (by omega)] at between upper
  rw [units (by omega)] at above
  refine no_power_above few above ?_ ?_
  · push_cast at upper ⊢
    linarith
  · push_cast at between ⊢
    linarith

theorem reads_of_isNearest {negative sign : Bool} {r : Fin Format.single.infinity} {d : Decimal}
    (nearest : (Numeral.decimal sign d).IsNearest (.finite negative r : Single)) :
    sign = negative ∧ Format.single.rankOfDecimal d = r :=
  nearest.reads (by decide)

/-- **Float text is the shortest.**  The text of a finite number other than zero says a decimal that rounds
to the number.  Every other decimal that does so has as many significant digits or more, and none of
those with as many is nearer to the number.  The text is also that of the double which holds the
number. -/
theorem text_shortest {x : Single} (finite : x.isFinite = true) (nonzero : x.isZero = false) :
    Double.singleText (x.convert Format.double) = x.text ∧
    ∃ negative w, Numeral.ofText? x.text = some (.decimal negative w) ∧
      (Numeral.decimal negative w).IsNearest x ∧
      ∀ sign d, (Numeral.decimal sign d).IsNearest x →
        significant x.text ≤ d.significant ∧
        (d.significant = significant x.text →
          |withSign negative w.value - x.exact| ≤ |withSign sign d.value - x.exact|) := by
  have precise : 2 ≤ Format.single.precision := by decide
  obtain ⟨negative, r, rfl⟩ := Binary.exists_finite finite
  have pos : 0 < r.val := Nat.pos_of_ne_zero (by simpa [Binary.isZero] using nonzero)
  have layout : text (.finite negative r) = signed negative (Format.single.shortest r).positional := by
    rw [text, if_neg pos.ne']
  have length : significant (text (.finite negative r)) = (Format.single.shortest r).digits.length := by
    rw [layout, significant_signed, significantDigits_positional]
    exact Format.significant_shortest precise pos
  obtain ⟨whole, fraction, written, writes⟩ := Decimal.exists_written
    (Format.coefficient_shortest_pos precise pos) (Format.coefficient_shortest precise r.val)
  refine ⟨by rw [Double.singleText, convert_convert], negative,
    ⟨Nat.ofDigitChars 10 (whole ++ fraction) 0, -fraction.length⟩, ?_, ?_, fun sign d nearest => ?_⟩
  · rw [layout, written, Numeral.ofText?_pointed writes.positional.digits writes.positional.nonempty]
  · refine ⟨r, ?_, (Binary.ofRank_val negative r).symm⟩
    rw [writes.value]
    exact (Format.rankOfDecimal_eq_iff precise).mp (Format.rankOfDecimal_shortest precise r)
  · obtain ⟨rfl, reads⟩ := reads_of_isNearest nearest
    obtain ⟨s, value, digits⟩ :=
      Decimal.exists_significant (Format.coefficient_pos_of_reads precise pos reads)
    rw [Format.rankOfDecimal_eq_iff precise, ← value, ← Format.rankOfDecimal_eq_iff precise] at reads
    rw [length, digits]
    refine ⟨Format.length_shortest_le precise pos reads, fun same => ?_⟩
    rw [Binary.exact, abs_withSign_sub, abs_withSign_sub, writes.value, ← value]
    exact Format.closest_of_length precise pos (not_readsAcross pos) reads same

/-- The seventh number above zero, a little less than `10 ^ -44`. -/
def seventh : Single := .finite false ⟨7, by decide⟩

/-- Its text is the power of ten, and no other decimal of one digit that rounds to it is nearer. -/
theorem text_seventh :
    seventh.isFinite = true ∧ seventh.isZero = false ∧
    seventh.text = "0.00000000000000000000000000000000000000000001" ∧ significant seventh.text = 1 ∧
    ∃ negative w, Numeral.ofText? seventh.text = some (.decimal negative w) ∧
      ∀ sign d, (Numeral.decimal sign d).IsNearest seventh → d.significant = 1 →
        |withSign negative w.value - seventh.exact| ≤ |withSign sign d.value - seventh.exact| := by
  have one : significant seventh.text = 1 := by decide +kernel
  obtain ⟨-, negative, w, said, -, best⟩ := text_shortest (x := seventh) rfl rfl
  refine ⟨rfl, rfl, by decide +kernel, one, negative, w, said, fun sign d nearest digits => ?_⟩
  exact (best sign d nearest).2 (by rw [one, digits])

end Single
end LoxValues
