import LoxValues.Proofs.Narrowing
import LoxValues.World.Conversion

/-!
# Integers as floats

An integer goes to the nearest double, and that to the nearest single-precision number.  Rounding twice
is not always rounding once: an integer just beside the middle between two numbers of single precision
may go to the middle itself, where it is forgotten on which side it was.  Nothing else can go wrong.

## What is here

* `Format.HoldsMiddles` — a format so much finer than another that it has the middles between the
  magnitudes of the other, as double precision is finer than single precision.
* `Format.Nearest.twice` — rounding to the finer format first makes a difference only if it leads to such
  a middle, from the side that loses.
* `Single.closest_ofInt_iff` — the same for integers as floats: exactly when the result is the nearest.
-/

set_option autoImplicit false
namespace LoxValues

namespace Format

variable {f g : Format}

/-- The middle between any two neighbouring magnitudes of `f` is a magnitude of `g`. -/
def HoldsMiddles (g f : Format) : Prop :=
  ∀ r, ∃ s, 2 * g.magnitude s = f.magnitude r + f.magnitude (r + 1)

theorem double_holdsMiddles : double.HoldsMiddles single := by
  intro r
  obtain ⟨n, k, rfl, low, high⟩ := single.exists_place r
  have digits : 2 * n + 1 ≤ 2 * double.binade := by
    have : 2 * single.binade + 1 ≤ double.binade := by decide
    omega
  obtain ⟨j, finer⟩ : ∃ j, double.scale - single.scale = j + 1 := ⟨924, rfl⟩
  obtain ⟨s, units⟩ := double.exists_units_eq digits (k + j)
  have ones : double.one = single.one * 2 ^ (double.scale - single.scale) :=
    one_eq_of_scale_le (by decide)
  have positive : (0 : ℚ) < single.one := by exact_mod_cast single.one_pos
  refine ⟨s, ?_⟩
  rw [magnitude, magnitude, magnitude, units, units_add_succ low high, units_add low high.le, ones,
    finer, pow_add, pow_succ]
  push_cast
  field_simp
  ring

/-- **Rounding twice.**  Let `q` be rounded to a format that holds the middles, and the result `m` once
more.  What comes of it is nearest to `q`, unless `m` is the middle between that and a neighbour and `q`
lies on the neighbour's side of `m`. -/
theorem Nearest.twice (middles : g.HoldsMiddles f) {q : ℚ} {r s : Nat} (first : g.Nearest q s)
    (second : f.Nearest (g.magnitude s) r) :
    f.Nearest q r ∨ ∃ t, t ≤ r + 1 ∧ f.magnitude r + f.magnitude t = 2 * g.magnitude s ∧
      0 < (q - g.magnitude s) * (f.magnitude t - g.magnitude s) := by
  have mono := g.magnitude_strictMono.monotone
  by_cases beyond : f.magnitude r + f.magnitude (r + 1) < 2 * q
  · -- the first rounding does not go below the middle, and the second not up from above it
    obtain ⟨a, middle⟩ := middles r
    have reached := mono ((g.nearest_magnitude a).le_of_lt first (by linarith))
    have stays := second.le_middle (Nat.lt_succ_self r)
    have apart := f.magnitude_strictMono (Nat.lt_succ_self r)
    rw [Nat.succ_eq_add_one] at stays apart
    exact .inr ⟨r + 1, le_rfl, by linarith, mul_pos (by linarith) (by linarith)⟩
  by_cases before : ∃ t, r = t + 1 ∧ 2 * q < f.magnitude t + f.magnitude r
  · obtain ⟨t, rfl, before⟩ := before
    obtain ⟨a, middle⟩ := middles t
    have reached := mono (first.le_of_lt (g.nearest_magnitude a) (by linarith))
    have stays := second.middle_le (Nat.lt_succ_self t)
    have apart := f.magnitude_strictMono (Nat.lt_succ_self t)
    rw [Nat.succ_eq_add_one] at apart
    exact .inr ⟨t, by omega, by linarith, mul_pos_of_neg_of_neg (by linarith) (by linarith)⟩
  · -- a middle is kept by the first rounding, and the second decides on it as a single one would
    have kept {t u : Nat} (middle : ∃ a, 2 * g.magnitude a = f.magnitude t + f.magnitude u)
        (tie : 2 * q = f.magnitude t + f.magnitude u) : g.magnitude s = q := by
      obtain ⟨a, middle⟩ := middle
      have same : g.magnitude a = q := by linarith
      rw [← same] at first ⊢
      rw [first.unique (g.nearest_magnitude a)]
    refine .inl (nearest_of_neighbours (by linarith) (fun tie => ?_) (fun t next => ?_)
      fun t next tie => ?_)
    · rw [kept (middles r) tie] at second
      exact second.even_of_middle (by omega) tie
    · by_contra less
      exact before ⟨t, next, by linarith⟩
    · subst next
      rw [kept (middles t) tie.symm] at second
      exact second.even_of_middle (s := t) (by omega) (by linarith)

/-- The rank of `2 ^ 63` in double precision: the integers of 64 bits are not beyond it. -/
theorem double_magnitude_limit : double.magnitude (1086 * 2 ^ 52) = 2 ^ 63 := by
  have significand : double.significand (1086 * 2 ^ 52) = 2 ^ 52 := by decide
  have exponent : double.exponent (1086 * 2 ^ 52) = 11 := by decide
  rw [magnitude_eq, significand, exponent]
  norm_num

/-- The rank of `2 ^ 63` in single precision. -/
theorem single_magnitude_limit : single.magnitude (190 * 2 ^ 23) = 2 ^ 63 := by
  have significand : single.significand (190 * 2 ^ 23) = 2 ^ 23 := by decide
  have exponent : single.exponent (190 * 2 ^ 23) = 40 := by decide
  rw [magnitude_eq, significand, exponent]
  norm_num

end Format

/-! ## Integers -/

namespace Single

/-- The single-precision number that an integer becomes, by way of a double. -/
def ofInt (n : Int) : Single := (Double.ofInt n).convert Format.single

theorem withSign_natAbs (n : Int) : withSign (decide (n < 0)) n.natAbs = n := by
  rw [Nat.cast_natAbs, withSign]
  by_cases below : n < 0
  · have belowQ : (n : ℚ) < 0 := by exact_mod_cast below
    rw [if_pos (by simpa using below)]
    push_cast
    rw [abs_of_neg belowQ, neg_neg]
  · have aboveQ : (0 : ℚ) ≤ n := by exact_mod_cast (not_lt.mp below)
    rw [if_neg (by simpa using below)]
    push_cast
    rw [abs_of_nonneg aboveQ]

/-- The two roundings of an integer of 64 bits.  Neither comes near the end of its format. -/
theorem exists_ranks {n : Int} (range : minInt ≤ n ∧ n ≤ maxInt) :
    ∃ s r, Double.ofInt n = .finite (decide (n < 0)) s ∧ ofInt n = .finite (decide (n < 0)) r ∧
      Format.double.Nearest n.natAbs s ∧ Format.single.Nearest (Format.double.magnitude s) r ∧
      r.val + 1 < Format.single.infinity := by
  have small : (n.natAbs : ℚ) ≤ 2 ^ 63 := by
    have : n.natAbs ≤ 2 ^ 63 := by
      rw [minInt, maxInt] at range
      omega
    exact_mod_cast this
  obtain ⟨s, first, double⟩ := Binary.isNearest_ofRatio (f := Format.double) (by decide)
    (decide (n < 0)) n.natAbs one_pos
  rw [Nat.cast_one, div_one] at first
  have sTop : s ≤ 1086 * 2 ^ 52 :=
    first.mono (Format.double.nearest_magnitude _) (by rw [Format.double_magnitude_limit]; exact small)
  have sInside : s < Format.double.infinity := sTop.trans_lt (by decide)
  rw [Binary.ofRank, dif_pos sInside] at double
  obtain ⟨r, second, single⟩ := Binary.isNearest_convert (g := Format.single) (by decide)
    (decide (n < 0)) ⟨s, sInside⟩
  have rTop : r ≤ 190 * 2 ^ 23 := by
    refine second.mono (Format.single.nearest_magnitude _) ?_
    rw [Format.single_magnitude_limit, ← Format.double_magnitude_limit]
    exact Format.double.magnitude_strictMono.monotone sTop
  have rInside : r + 1 < Format.single.infinity :=
    (Nat.add_le_add_right rTop 1).trans_lt (by decide)
  rw [Binary.ofRank, dif_pos (by omega)] at single
  exact ⟨⟨s, sInside⟩, ⟨r, by omega⟩, double, by rw [ofInt, Double.ofInt, double, single], first,
    second, rInside⟩

/-- **When an integer becomes the nearest float.**  A 64-bit integer `n` always becomes a finite float,
and leaves no record.  Let `m` be the nearest double to `n`.  The float is the single-precision number
nearest to `n`, with an even significand on a tie, unless `m` lies in the middle between it and another
number `y` of single precision, and `n` itself on the side of `y`.  In particular it is the nearest
wherever `n` is a double. -/
theorem closest_ofInt_iff {n : Int} (range : minInt ≤ n ∧ n ≤ maxInt) :
    (∀ w : World, w.toFloat (.int n) = (.ok ((ofInt n).convert Format.double), w)) ∧
    (ofInt n).isFinite = true ∧
    ((ofInt n).Closest n ↔
      ¬ ∃ y, IsNumber y ∧ (ofInt n).exact + y = 2 * (Double.ofInt n).exact ∧
        0 < (n - (Double.ofInt n).exact) * (y - (Double.ofInt n).exact)) := by
  obtain ⟨s, r, double, single, first, second, inside⟩ := exists_ranks range
  refine ⟨fun w => rfl, by rw [single]; rfl, fun closest => ?_, fun none => ?_⟩
  · rintro ⟨y, number, middle, beyond⟩
    have nearer := sq_le_sq.mpr (closest.closest y number)
    rw [show (ofInt n).exact = 2 * (Double.ofInt n).exact - y by linarith] at nearer
    nlinarith
  · rcases first.twice Format.double_holdsMiddles second with once | ⟨t, neighbour, middle, beyond⟩
    · rw [single, ← withSign_natAbs n]
      exact closest_of_nearest _ (Nat.cast_nonneg _) once
    · -- the neighbour, with the sign of the integer, is the number that there is not
      refine absurd ⟨withSign (decide (n < 0)) (Format.single.magnitude t), ?_, ?_, ?_⟩ none
      · exact isNumber_exact (z := .finite _ ⟨t, by omega⟩) rfl
      · rw [single, double, Binary.exact, Binary.exact, withSign_add, middle, two_mul, two_mul,
          withSign_add]
      · rw [double, Binary.exact, ← withSign_natAbs n, mul_withSign_sub]
        exact beyond

/-- An integer that is one more than the middle between `2 ^ 60` and the number of single precision
after it.  The nearest double is the middle. -/
def besideMiddle : Int := 2 ^ 60 + 2 ^ 36 + 1

theorem ofInt_besideMiddle : ofInt besideMiddle = .finite false ⟨187 * 2 ^ 23, by decide⟩ := by
  decide +kernel

theorem exact_double_besideMiddle : (Double.ofInt besideMiddle).exact = 2 ^ 60 + 2 ^ 36 := by
  have double : Double.ofInt besideMiddle = .finite false ⟨1083 * 2 ^ 52 + 2 ^ 28, by decide⟩ := by
    decide +kernel
  have significand : Format.double.significand (1083 * 2 ^ 52 + 2 ^ 28) = 2 ^ 52 + 2 ^ 28 := by decide
  have exponent : Format.double.exponent (1083 * 2 ^ 52 + 2 ^ 28) = 8 := by decide
  rw [double, Binary.exact, withSign, Format.magnitude_eq, significand, exponent]
  norm_num

/-- The integer becomes `2 ^ 60`, though the next number of single precision is nearer. -/
theorem not_closest_besideMiddle :
    (minInt ≤ besideMiddle ∧ besideMiddle ≤ maxInt) ∧
    (ofInt besideMiddle).exact = 2 ^ 60 ∧ IsNumber (2 ^ 60 + 2 ^ 37) ∧
    ¬ (ofInt besideMiddle).Closest besideMiddle := by
  have range : minInt ≤ besideMiddle ∧ besideMiddle ≤ maxInt := by decide
  have result : (ofInt besideMiddle).exact = 2 ^ 60 := by
    have significand : Format.single.significand (187 * 2 ^ 23) = 2 ^ 23 := by decide
    have exponent : Format.single.exponent (187 * 2 ^ 23) = 37 := by decide
    rw [ofInt_besideMiddle, Binary.exact, withSign, Format.magnitude_eq, significand, exponent]
    norm_num
  have next : IsNumber (2 ^ 60 + 2 ^ 37) :=
    ⟨2 ^ 23 + 1, 37, by norm_num, by norm_num, by norm_num, by norm_num⟩
  refine ⟨range, result, next, fun closest => ?_⟩
  refine (closest_ofInt_iff range).2.2.mp closest ⟨_, next, ?_, ?_⟩
  · rw [result, exact_double_besideMiddle]
    norm_num
  · rw [exact_double_besideMiddle, besideMiddle]
    norm_num

end Single
end LoxValues
