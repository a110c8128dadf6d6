import LoxValues.Construction
import LoxValues.Proofs.Numeral
import LoxValues.World.Rendering

/-!
# The text of a float reads back

`Format.shortest` looks for a decimal that rounds to a rank on finer and finer grids.  Here is why
what it finds always does, and why nothing in it could be left out.

* The last grid has a point for every unit, so the search ends with a decimal that rounds to the rank
  (`Format.rankOfDecimal_shortest`).
* The numbers that round to a rank lie next to one another.  So if any point of a grid does, then one
  of the two around the rank's own magnitude does, and the search does not pass over it
  (`Format.exists_candidate`).
* A decimal with a zero at its end lies on the grid before as well, where it would have been found
  (`Format.coefficient_shortest`).

`Single.text_reads_back` puts this together with positional notation.
-/

set_option autoImplicit false
namespace LoxValues

/-- A power of ten as a quotient of whole numbers. -/
theorem ten_zpow (e : Int) : (10 : ℚ) ^ e = 10 ^ e.toNat / 10 ^ (-e).toNat := by
  have split : e = (e.toNat : Int) - ((-e).toNat : Int) := by omega
  calc (10 : ℚ) ^ e = 10 ^ ((e.toNat : Int) - ((-e).toNat : Int)) := by rw [← split]
    _ = 10 ^ e.toNat / 10 ^ (-e).toNat := by rw [zpow_sub₀ (by norm_num), zpow_natCast, zpow_natCast]

/-- Ten times the coefficient is one more in the exponent. -/
theorem Decimal.value_ten_mul (c : Nat) (e : Int) :
    Decimal.value ⟨10 * c, e⟩ = Decimal.value ⟨c, e + 1⟩ := by
  rw [value, value, zpow_add_one₀ (by norm_num)]
  push_cast
  ring

/-- A quotient lies between the whole numbers next to it. -/
theorem quotient_between (num : Nat) {den : Nat} (pos : 0 < den) :
    ((num / den : Nat) : ℚ) ≤ num / den ∧ (num : ℚ) / den < (num / den : Nat) + 1 := by
  have denQ : (0 : ℚ) < den := by exact_mod_cast pos
  have lower : ((num / den * den : Nat) : ℚ) ≤ num := by exact_mod_cast Nat.div_mul_le_self num den
  have upper : (num : ℚ) < (num / den * den + den : Nat) := by
    exact_mod_cast Nat.lt_div_mul_add pos
  rw [le_div_iff₀ denQ, div_lt_iff₀ denQ]
  push_cast at lower upper
  exact ⟨lower, by linarith⟩

namespace Format

variable {f : Format}

/-! ## Decimals that round to a rank -/

/-- **The rank of a decimal is the nearest.** -/
theorem nearest_rankOfDecimal (precise : 2 ≤ f.precision) (d : Decimal) :
    f.Nearest d.value (f.rankOfDecimal d) := by
  have nearest := f.nearest_nearestRank precise (d.coefficient * Nat.pow 10 d.exponent.toNat * f.one)
    (show 0 < Nat.pow 10 (-d.exponent).toNat from Nat.pow_pos (by decide))
  have oneQ : (f.one : ℚ) ≠ 0 := by exact_mod_cast f.one_pos.ne'
  have value : d.value = ((d.coefficient * Nat.pow 10 d.exponent.toNat * f.one : Nat) : ℚ) /
      (Nat.pow 10 (-d.exponent).toNat : Nat) / f.one := by
    rw [Decimal.value, ten_zpow, Nat.pow_eq, Nat.pow_eq]
    push_cast
    field_simp
  rw [value]
  exact nearest

theorem rankOfDecimal_eq_iff (precise : 2 ≤ f.precision) {d : Decimal} {r : Nat} :
    f.rankOfDecimal d = r ↔ f.Nearest d.value r :=
  ⟨fun same => same ▸ f.nearest_rankOfDecimal precise d,
    fun nearest => (f.nearest_rankOfDecimal precise d).unique nearest⟩

/-- The numerator of a magnitude counted in steps of a decimal grid. -/
def stepsNum (f : Format) (r : Nat) (e : Int) : Nat := f.units r * Nat.pow 10 (-e).toNat

/-- The denominator. -/
def stepsDen (f : Format) (e : Int) : Nat := f.one * Nat.pow 10 e.toNat

theorem stepsDen_pos (f : Format) (e : Int) : 0 < f.stepsDen e :=
  Nat.mul_pos f.one_pos (Nat.pow_pos (by decide))

theorem magnitude_eq_steps (f : Format) (r : Nat) (e : Int) :
    f.magnitude r = (f.stepsNum r e : ℚ) / f.stepsDen e * 10 ^ e := by
  have oneQ : (0 : ℚ) < f.one := by exact_mod_cast f.one_pos
  rw [magnitude, stepsNum, stepsDen, ten_zpow, Nat.pow_eq, Nat.pow_eq]
  push_cast
  field_simp

theorem candidates_eq (f : Format) (r : Nat) (e : Int) :
    f.candidates r e =
      [⟨roundHalfEven (f.stepsNum r e) (f.stepsDen e), e⟩, ⟨f.stepsNum r e / f.stepsDen e, e⟩,
        ⟨f.stepsNum r e / f.stepsDen e + 1, e⟩] := rfl

/-- The magnitude of a rank lies between two neighbours on every grid. -/
theorem magnitude_between (f : Format) (r : Nat) (e : Int) :
    ∃ c, ⟨c, e⟩ ∈ f.candidates r e ∧ ⟨c + 1, e⟩ ∈ f.candidates r e ∧
      Decimal.value ⟨c, e⟩ ≤ f.magnitude r ∧ f.magnitude r ≤ Decimal.value ⟨c + 1, e⟩ := by
  refine ⟨f.stepsNum r e / f.stepsDen e, by simp [candidates_eq], by simp [candidates_eq], ?_⟩
  have power : (0 : ℚ) ≤ 10 ^ e := zpow_nonneg (by norm_num) e
  obtain ⟨lower, upper⟩ := quotient_between (f.stepsNum r e) (f.stepsDen_pos e)
  rw [Decimal.value, Decimal.value, f.magnitude_eq_steps r e, Nat.cast_add_one]
  exact ⟨mul_le_mul_of_nonneg_right lower power, mul_le_mul_of_nonneg_right upper.le power⟩

/-- **If a point of a grid rounds to a rank, then so does a candidate of that grid.** -/
theorem exists_candidate (precise : 2 ≤ f.precision) {d : Decimal} {r : Nat}
    (reads : f.rankOfDecimal d = r) : ∃ c ∈ f.candidates r d.exponent, f.rankOfDecimal c = r := by
  obtain ⟨coefficient, e⟩ := d
  obtain ⟨c, low, high, lower, upper⟩ := f.magnitude_between r e
  rw [rankOfDecimal_eq_iff precise] at reads
  have own := f.nearest_magnitude r
  have power : (0 : ℚ) < 10 ^ e := zpow_pos (by norm_num) e
  rcases Nat.lt_or_ge c coefficient with above | below
  · -- the upper neighbour lies between the magnitude and the decimal
    refine ⟨⟨c + 1, e⟩, high, own.between reads (f.nearest_rankOfDecimal precise _) upper ?_⟩
    exact mul_le_mul_of_nonneg_right (by exact_mod_cast above) power.le
  · refine ⟨⟨c, e⟩, low, reads.between own (f.nearest_rankOfDecimal precise _) ?_ lower⟩
    exact mul_le_mul_of_nonneg_right (by exact_mod_cast below) power.le

/-! ## The search -/

/-- On the grid with a point for every unit, the magnitude of a rank is a decimal. -/
theorem value_units (f : Format) (r : Nat) {e : Int} (finest : e = -f.scale) :
    Decimal.value ⟨f.units r * Nat.pow 10 (-e).toNat / f.one, e⟩ = f.magnitude r := by
  subst finest
  have places : (- -(f.scale : Int)).toNat = f.scale := by omega
  have whole : f.units r * Nat.pow 10 f.scale / f.one = f.units r * 5 ^ f.scale := by
    have ten : Nat.pow 10 f.scale = 5 ^ f.scale * f.one := by
      rw [one, Nat.pow_eq, Nat.pow_eq, ← mul_pow]
      norm_num
    rw [ten, ← mul_assoc, Nat.mul_div_cancel _ f.one_pos]
  have ten : (10 : ℚ) ^ f.scale = 5 ^ f.scale * 2 ^ f.scale := by
    rw [← mul_pow]
    norm_num
  rw [places, whole, Decimal.value, magnitude, cast_one, zpow_neg, zpow_natCast, ten]
  push_cast
  field_simp

/-- What the search finds rounds to the rank, if it may go on to the finest grid. -/
theorem rankOfDecimal_firstReading (precise : 2 ≤ f.precision) (r : Nat) {finer : Nat} {e : Int}
    (finest : e - finer = -f.scale) : f.rankOfDecimal (f.firstReading r finer e) = r := by
  induction finer generalizing e with
  | zero =>
    rw [firstReading, rankOfDecimal_eq_iff precise, value_units f r (by simpa using finest)]
    exact f.nearest_magnitude r
  | succ finer ih =>
    rw [firstReading]
    split
    · next found => simpa using List.find?_some found
    · exact ih (by push_cast at finest; omega)

/-- The search starts with what it finds, or else no decimal of the grid before rounds to the rank. -/
theorem firstReading_first (precise : 2 ≤ f.precision) (r finer : Nat) (e : Int) :
    (f.firstReading r finer e).exponent = e ∨
      ∀ d : Decimal, d.exponent = (f.firstReading r finer e).exponent + 1 → f.rankOfDecimal d ≠ r := by
  induction finer generalizing e with
  | zero => exact .inl rfl
  | succ finer ih =>
    rw [firstReading]
    split
    · next d found =>
      have mem : d ∈ f.candidates r e := List.mem_of_find?_eq_some found
      refine .inl ?_
      rw [candidates] at mem
      simp only [List.mem_cons, List.not_mem_nil, or_false] at mem
      rcases mem with rfl | rfl | rfl <;> rfl
    · next missed =>
      rcases ih (e - 1) with start | later
      · refine .inr fun d grid reads => ?_
        obtain ⟨c, mem, hit⟩ := exists_candidate precise reads
        rw [start, sub_add_cancel] at grid
        rw [grid] at mem
        simpa [hit] using List.find?_eq_none.mp missed c mem
      · exact .inr later

/-- **The shortest decimal of a rank rounds to the rank.** -/
theorem rankOfDecimal_shortest (precise : 2 ≤ f.precision) (r : Nat) :
    f.rankOfDecimal (f.shortest r) = r :=
  rankOfDecimal_firstReading precise r (by push_cast; omega)

/-- A decimal that rounds to a positive number has a digit other than zero. -/
theorem coefficient_pos_of_reads (precise : 2 ≤ f.precision) {r : Nat} (pos : 0 < r) {d : Decimal}
    (reads : f.rankOfDecimal d = r) : 0 < d.coefficient := by
  by_contra zero
  have value : d.value = f.magnitude 0 := by
    rw [Decimal.value, Nat.eq_zero_of_not_pos zero, Nat.cast_zero, zero_mul, magnitude_zero]
  have nearest := f.nearest_rankOfDecimal precise d
  rw [reads, value] at nearest
  exact pos.ne' (nearest.unique (f.nearest_magnitude 0))

theorem coefficient_shortest_pos (precise : 2 ≤ f.precision) {r : Nat} (pos : 0 < r) :
    0 < (f.shortest r).coefficient :=
  f.coefficient_pos_of_reads precise pos (f.rankOfDecimal_shortest precise r)

/-- **The shortest decimal has no zero at its end** behind the point. -/
theorem coefficient_shortest (precise : 2 ≤ f.precision) (r : Nat)
    (fraction : (f.shortest r).exponent < 0) : (f.shortest r).coefficient % 10 ≠ 0 := by
  intro multiple
  rcases f.firstReading_first precise r ((Nat.toDigits 10 (f.units r / f.one)).length + f.scale)
    (Nat.toDigits 10 (f.units r / f.one)).length with start | missed
  · rw [← shortest] at start
    omega
  · rw [← shortest] at missed
    obtain ⟨c, tenfold⟩ := Nat.dvd_of_mod_eq_zero multiple
    refine missed ⟨c, (f.shortest r).exponent + 1⟩ rfl ?_
    rw [rankOfDecimal_eq_iff precise, ← Decimal.value_ten_mul, ← tenfold]
    exact (rankOfDecimal_eq_iff precise).mp (rankOfDecimal_shortest precise r)

end Format

/-! ## The text of a single-precision number -/

namespace Single

/-- The digits of a finite number are positional, and what they say rounds to the number. -/
theorem exists_pointed (r : Fin Format.single.infinity) :
    ∃ whole fraction,
      (if r.val = 0 then ['0'] else (Format.single.shortest r).positional) = pointed whole fraction ∧
      IsPositional whole fraction ∧
      Format.single.Nearest
        (Decimal.value ⟨Nat.ofDigitChars 10 (whole ++ fraction) 0, -fraction.length⟩) r := by
  have precise : 2 ≤ Format.single.precision := by decide
  by_cases zero : r.val = 0
  · refine ⟨['0'], [], if_pos zero, ⟨by simp, by simp, by simp, by simp⟩, ?_⟩
    have value : Decimal.value ⟨Nat.ofDigitChars 10 (['0'] ++ []) 0, -([] : List Char).length⟩ =
        Format.single.magnitude 0 := by
      rw [Decimal.value, Format.magnitude_zero]
      norm_num [Nat.ofDigitChars_cons]
    rw [value, zero]
    exact Format.single.nearest_magnitude 0
  · obtain ⟨whole, fraction, layout, writes⟩ := Decimal.exists_written
      (Format.coefficient_shortest_pos precise (Nat.pos_of_ne_zero zero))
      (Format.coefficient_shortest precise r.val)
    refine ⟨whole, fraction, by rw [if_neg zero, layout], writes.positional, ?_⟩
    rw [writes.value]
    exact (Format.rankOfDecimal_eq_iff precise).mp (Format.rankOfDecimal_shortest precise r)

/-- The text of a finite number is positional, with its sign. -/
theorem exists_text_finite (negative : Bool) (r : Fin Format.single.infinity) :
    ∃ whole fraction, IsPositional whole fraction ∧
      text (.finite negative r) = signed negative (pointed whole fraction) := by
  obtain ⟨whole, fraction, layout, positional, -⟩ := exists_pointed r
  exact ⟨whole, fraction, positional, by rw [text, layout]⟩

/-- **The text of a number reads back**: it says a numeral that rounds to the number. -/
theorem exists_numeral {x : Single} (number : x ≠ .nan) :
    ∃ n, Numeral.ofText? x.text = some n ∧ n.IsNearest x := by
  cases x with
  | nan => exact absurd rfl number
  | infinite negative =>
    refine ⟨.infinite negative, ?_, rfl⟩
    rw [text, Numeral.ofText?_signed (by decide), Numeral.ofMagnitude?, if_pos rfl]
  | finite negative r =>
    obtain ⟨whole, fraction, layout, positional, nearest⟩ := exists_pointed r
    have rounds : (Binary.finite negative r).IsNearest negative _ :=
      ⟨r, nearest, (Binary.ofRank_val negative r).symm⟩
    refine ⟨.decimal negative _, ?_, rounds⟩
    rw [text, layout, Numeral.ofText?_pointed positional.digits positional.nonempty]

/-- The text of not-a-number says no number. -/
theorem ofText?_text_nan : Numeral.ofText? (text .nan) = none := by decide

/-- **Float text round-trips.**  The text of a number says a numeral that rounds to this number and to
no other, so that no two numbers have the same text; it is also what rendering shows for the value that
holds the number.  If the number is finite, its text is positional, without a zero that could be left
out.  The text of a finite double is that of the single-precision number it rounds to. -/
theorem text_reads_back {x : Single} (number : x ≠ .nan) :
    (∃ n, Numeral.ofText? x.text = some n ∧ ∀ y : Single, n.IsNearest y ↔ y = x) ∧
    (∀ y : Single, y.text = x.text → y = x) ∧
    Double.singleText (x.convert Format.double) = x.text ∧
    (∀ (w : World) (box : Nat), (w.render (.ofDouble (x.convert Format.double) box)).1 = x.text) ∧
    (∀ negative r, x = .finite negative r → ∃ whole fraction, IsPositional whole fraction ∧
      x.text = signed negative (pointed whole fraction)) ∧
    (∀ negative (r : Fin Format.double.infinity), ∃ z : Single,
      z.IsNearest negative (Format.double.magnitude r) ∧
      Double.singleText (.finite negative r) = z.text) := by
  obtain ⟨n, said, nearest⟩ := exists_numeral number
  have widened : Double.singleText (x.convert Format.double) = x.text := by
    rw [Double.singleText, convert_convert]
  refine ⟨⟨n, said, fun y => ⟨fun other => other.unique nearest, fun same => same ▸ nearest⟩⟩, ?_,
    widened, fun w box => ?_, ?_, fun negative r => ?_⟩
  · intro y same
    by_cases number' : y = .nan
    · rw [← same, number', ofText?_text_nan] at said
      cases said
    · obtain ⟨m, said', nearest'⟩ := exists_numeral number'
      rw [same, said, Option.some_inj] at said'
      exact (said' ▸ nearest').unique nearest
  · have shown : (w.render (.ofDouble (x.convert Format.double) box)).1 =
        Double.singleText (Double.toSingle (x.convert Format.double)) := rfl
    rw [shown, Double.toSingle, convert_convert, widened]
  · rintro negative r rfl
    exact exists_text_finite negative r
  · exact ⟨_, Binary.isNearest_convert (by decide) negative r, rfl⟩

/-- The negative number of least magnitude. -/
def leastNegative : Single := .finite true ⟨1, by decide⟩

/-- The least magnitude takes 45 places behind the point, and no other number has the same text. -/
theorem text_leastNegative :
    leastNegative.text = "-0.000000000000000000000000000000000000000000001" ∧
    (∃ n, Numeral.ofText? leastNegative.text = some n ∧
      ∀ y : Single, n.IsNearest y ↔ y = leastNegative) ∧
    ∀ y : Single, y.text = leastNegative.text → y = leastNegative := by
  obtain ⟨reads, injective, -⟩ := text_reads_back (x := leastNegative) (by decide)
  exact ⟨by decide +kernel, reads, injective⟩

end Single
end LoxValues
