import LoxValues.Binary.Number
import Mathlib.Algebra.Order.Field.Rat
import Mathlib.Algebra.Order.Group.Nat
import Mathlib.Algebra.Ring.Parity
import Mathlib.Data.Nat.Log
import Mathlib.Order.Monotone.Basic
import Mathlib.Tactic.FieldSimp
import Mathlib.Tactic.Linarith
import Mathlib.Tactic.Positivity
import Mathlib.Tactic.Ring

/-!
# Correct rounding

What it means for a rank to be nearest to a rational number, said without significands and
exponents, and that `Format.nearestRank` finds it.

## What is here

* `Format.magnitude` — the magnitude of a rank as a rational number.  The ranks from that of infinity
  on go on as if exponents had no bound.
* `Format.Nearest` — no rank is nearer to a number, and the rank is even where another is as near.
  There is at most one such rank (`Format.Nearest.unique`), and it grows with the number
  (`Format.Nearest.mono`).
* `Format.nearest_nearestRank` — **`Format.nearestRank` rounds correctly.**  The significand and the
  dropped digits that it computes (`Format.Place`) make the rank nearer than its two neighbours, and
  then no other is nearer (`Format.nearest_of_neighbours`).
* `Binary.IsNearest` — the same for data with a sign, where a rank beyond the finite ones is an
  infinity.
-/

set_option autoImplicit false
namespace LoxValues

/-! ## The integer nearest to a quotient -/

/-- The integer nearest to a quotient is off by at most a half, and even if it is off by a half. -/
theorem roundHalfEven_bounds (num : Nat) {den : Nat} (pos : 0 < den) :
    2 * num ≤ (2 * roundHalfEven num den + 1) * den ∧
    2 * roundHalfEven num den * den ≤ 2 * num + den ∧
    (2 * num = (2 * roundHalfEven num den + 1) * den ∨
      2 * roundHalfEven num den * den = 2 * num + den → Even (roundHalfEven num den)) := by
  have whole := Nat.div_add_mod num den
  have small := Nat.mod_lt num pos
  rw [roundHalfEven, Nat.even_iff]
  generalize num / den = m at *
  generalize num % den = t at *
  split_ifs with up
  · have above : (2 * (m + 1) + 1) * den = 2 * (den * m) + 3 * den := by ring
    have below : 2 * (m + 1) * den = 2 * (den * m) + 2 * den := by ring
    omega
  · have above : (2 * m + 1) * den = 2 * (den * m) + den := by ring
    have below : 2 * m * den = 2 * (den * m) := by ring
    omega

theorem le_roundHalfEven (num den : Nat) : num / den ≤ roundHalfEven num den := by
  rw [roundHalfEven]
  split_ifs <;> omega

theorem roundHalfEven_le (num den : Nat) : roundHalfEven num den ≤ num / den + 1 := by
  rw [roundHalfEven]
  split_ifs <;> omega

namespace Format

/-! ## Ranks and their magnitudes -/

variable {f : Format}

theorem binade_pos (f : Format) : 0 < f.binade := Nat.pow_pos (by decide)

theorem one_pos (f : Format) : 0 < f.one := Nat.pow_pos (by decide)

theorem units_zero (f : Format) : f.units 0 = 0 := if_pos f.binade_pos

theorem even_binade (precise : 2 ≤ f.precision) : Even f.binade := by
  rw [binade, Nat.pow_eq, Nat.even_pow]
  exact ⟨even_two, by omega⟩

theorem two_mul_binade (precise : 2 ≤ f.precision) : 2 * f.binade = 2 ^ f.precision := by
  rw [binade, Nat.pow_eq, ← pow_succ', Nat.sub_add_cancel (by omega)]

/-- The magnitudes of a binade, up to the first of the next, are the multiples of a power of two. -/
theorem units_add {n k : Nat} (low : k = 0 ∨ f.binade ≤ n) (high : n ≤ 2 * f.binade) :
    f.units (n + k * f.binade) = n * 2 ^ k := by
  have pos := f.binade_pos
  rcases low with rfl | low
  · rw [units, Nat.pow_eq]
    rcases Nat.lt_or_ge n f.binade with small | large
    · simp [small]
    · rcases Nat.lt_or_eq_of_le high with inside | rfl
      · obtain ⟨t, rfl⟩ := Nat.exists_eq_add_of_le large
        have : t < f.binade := by omega
        simp [Nat.add_div_left, Nat.div_eq_of_lt this, Nat.mod_eq_of_lt this, pos]
      · simp [pos, two_mul, mul_comm]
  · obtain ⟨t, rfl⟩ := Nat.exists_eq_add_of_le low
    have regroup : f.binade + t + k * f.binade = t + f.binade * (k + 1) := by ring
    rw [units, Nat.pow_eq, regroup, if_neg (by nlinarith), Nat.add_mul_div_left _ _ pos,
      Nat.add_mul_mod_self_left]
    rcases Nat.lt_or_ge t f.binade with inside | top
    · rw [Nat.mod_eq_of_lt inside, Nat.div_eq_of_lt inside]
      simp
    · obtain rfl : t = f.binade := by omega
      rw [Nat.mod_self, Nat.div_self pos, show 1 + (k + 1) - 1 = k + 1 by omega, pow_succ]
      ring

/-- Every rank has a place in a binade: its significand, and how often the step has been doubled. -/
theorem exists_place (f : Format) (r : Nat) :
    ∃ n k, r = n + k * f.binade ∧ (k = 0 ∨ f.binade ≤ n) ∧ n < 2 * f.binade := by
  have pos := f.binade_pos
  rcases Nat.lt_or_ge r (2 * f.binade) with small | large
  · exact ⟨r, 0, by simp, .inl rfl, small⟩
  · have whole := Nat.div_add_mod r f.binade
    have rest := Nat.mod_lt r pos
    have twice : 2 ≤ r / f.binade := (Nat.le_div_iff_mul_le pos).mpr large
    obtain ⟨k, hk⟩ := Nat.exists_eq_add_of_le' twice
    refine ⟨f.binade + r % f.binade, k + 1, ?_, .inr (by omega), by omega⟩
    rw [hk] at whole
    linarith

/-- The next rank is one step further in its binade. -/
theorem units_add_succ {n k : Nat} (low : k = 0 ∨ f.binade ≤ n) (high : n < 2 * f.binade) :
    f.units (n + k * f.binade + 1) = (n + 1) * 2 ^ k := by
  rw [Nat.add_right_comm]
  exact units_add (low.imp_right Nat.le_succ_of_le) high

theorem units_lt_units_succ (f : Format) (r : Nat) : f.units r < f.units (r + 1) := by
  obtain ⟨n, k, rfl, low, high⟩ := f.exists_place r
  rw [units_add low high.le, units_add_succ low high]
  exact Nat.mul_lt_mul_of_pos_right (Nat.lt_succ_self n) (by positivity)

theorem units_strictMono (f : Format) : StrictMono f.units :=
  strictMono_nat_of_lt_succ f.units_lt_units_succ

theorem cast_one (f : Format) : (f.one : ℚ) = 2 ^ f.scale := by
  rw [one, Nat.pow_eq]
  push_cast
  rfl

/-- The magnitude of a rank. -/
def magnitude (f : Format) (r : Nat) : ℚ := f.units r / f.one

theorem magnitude_zero (f : Format) : f.magnitude 0 = 0 := by
  rw [magnitude, units_zero, Nat.cast_zero, zero_div]

theorem magnitude_strictMono (f : Format) : StrictMono f.magnitude := by
  intro r s lt
  have pos : (0 : ℚ) < f.one := by exact_mod_cast f.one_pos
  rw [magnitude, magnitude, div_lt_div_iff_of_pos_right pos]
  exact_mod_cast f.units_strictMono lt

/-! ## The nearest rank -/

/-- The rank `r` is nearest to the number `q`: no other is nearer, and if another is as near, then `r`
is even. -/
structure Nearest (f : Format) (q : ℚ) (r : Nat) : Prop where
  /-- No rank is nearer. -/
  closest : ∀ s, |f.magnitude r - q| ≤ |f.magnitude s - q|
  /-- A tie goes to the even rank. -/
  even : ∀ s, s ≠ r → |f.magnitude s - q| = |f.magnitude r - q| → Even r

/-- The nearest rank of a rank's own magnitude is the rank. -/
theorem nearest_magnitude (f : Format) (r : Nat) : f.Nearest (f.magnitude r) r where
  closest s := by simp
  even s ne tie := by
    rw [sub_self, abs_zero, abs_eq_zero, sub_eq_zero] at tie
    exact absurd (f.magnitude_strictMono.injective tie) ne

namespace Nearest

variable {p q : ℚ} {r s : Nat}

/-- What a number rounds to lies on the number's side of the middle to any other rank. -/
theorem le_middle (hr : f.Nearest q r) (lt : r < s) : 2 * q ≤ f.magnitude r + f.magnitude s := by
  have less := f.magnitude_strictMono lt
  have closest := hr.closest s
  rcases abs_cases (f.magnitude r - q) with h₁ | h₁ <;>
    rcases abs_cases (f.magnitude s - q) with h₂ | h₂ <;> linarith

theorem middle_le (hr : f.Nearest q r) (lt : s < r) : f.magnitude s + f.magnitude r ≤ 2 * q := by
  have less := f.magnitude_strictMono lt
  have closest := hr.closest s
  rcases abs_cases (f.magnitude r - q) with h₁ | h₁ <;>
    rcases abs_cases (f.magnitude s - q) with h₂ | h₂ <;> linarith

/-- A middle goes to the even rank. -/
theorem even_of_middle (hr : f.Nearest q r) (ne : s ≠ r)
    (middle : 2 * q = f.magnitude r + f.magnitude s) : Even r := by
  refine hr.even s ne ?_
  rw [show f.magnitude s - q = -(f.magnitude r - q) by linarith, abs_neg]

/-- Of two numbers, the nearest rank of the smaller is at most that of the larger. -/
theorem le_of_lt (hr : f.Nearest p r) (hs : f.Nearest q s) (lt : p < q) : r ≤ s := by
  by_contra above
  -- `p` would be at or beyond the middle between the two magnitudes, and `q` not beyond it
  have left := hr.middle_le (Nat.lt_of_not_le above)
  have right := hs.le_middle (Nat.lt_of_not_le above)
  linarith

/-- There is only one nearest rank. -/
theorem unique (hr : f.Nearest q r) (hs : f.Nearest q s) : r = s := by
  wlog less : r < s generalizing r s
  · by_contra ne
    exact ne (this hs hr (by omega)).symm
  have left := hr.le_middle less
  have right := hs.middle_le less
  have evenR := hr.even_of_middle (s := s) (by omega) (by linarith)
  have evenS := hs.even_of_middle (s := r) (by omega) (by linarith)
  -- between two even ranks there is another, which is nearer than both
  have between : r + 1 < s := by
    rw [Nat.even_iff] at evenR evenS
    omega
  have nearer := hr.le_middle (Nat.lt_succ_self r)
  have farther := f.magnitude_strictMono between
  rw [Nat.succ_eq_add_one] at nearer
  linarith

/-- **The nearest rank grows with the number.** -/
theorem mono (hr : f.Nearest p r) (hs : f.Nearest q s) (le : p ≤ q) : r ≤ s := by
  rcases le.lt_or_eq with lt | rfl
  · exact hr.le_of_lt hs lt
  · exact (hr.unique hs).le

/-- What lies between two numbers with the same nearest rank has that rank, too. -/
theorem between {m : ℚ} {t : Nat} (hp : f.Nearest p r) (hq : f.Nearest q r) (hm : f.Nearest m t)
    (lower : p ≤ m) (upper : m ≤ q) : t = r :=
  le_antisymm (hm.mono hq upper) (hp.mono hm lower)

end Nearest

/-- A rank is nearest if it is nearer than its two neighbours, and even where a neighbour is as near. -/
theorem nearest_of_neighbours {q : ℚ} {r : Nat}
    (above : 2 * q ≤ f.magnitude r + f.magnitude (r + 1))
    (aboveTie : 2 * q = f.magnitude r + f.magnitude (r + 1) → Even r)
    (below : ∀ s, r = s + 1 → f.magnitude s + f.magnitude r ≤ 2 * q)
    (belowTie : ∀ s, r = s + 1 → f.magnitude s + f.magnitude r = 2 * q → Even r) :
    f.Nearest q r := by
  have mono := f.magnitude_strictMono
  -- whatever lies beyond a neighbour is farther away than the neighbour
  have far : ∀ s, s ≠ r → |f.magnitude r - q| ≤ |f.magnitude s - q| ∧
      (|f.magnitude s - q| = |f.magnitude r - q| → Even r) := by
    intro s ne
    rcases Nat.lt_or_gt_of_ne ne with lt | gt
    · obtain ⟨t, rfl⟩ : ∃ t, r = t + 1 := ⟨r - 1, by omega⟩
      have order := mono (Nat.lt_succ_self t)
      have reach : f.magnitude s ≤ f.magnitude t := mono.monotone (by omega)
      have half := below t rfl
      rw [Nat.succ_eq_add_one] at order
      rw [abs_of_nonpos (by linarith : f.magnitude s - q ≤ 0)]
      refine ⟨abs_le.mpr ⟨by linarith, by linarith⟩, fun tie => belowTie t rfl ?_⟩
      rcases abs_cases (f.magnitude (t + 1) - q) with h | h <;> linarith
    · have order := mono (Nat.lt_succ_self r)
      have reach : f.magnitude (r + 1) ≤ f.magnitude s := mono.monotone (by omega)
      rw [Nat.succ_eq_add_one] at order
      rw [abs_of_nonneg (by linarith : 0 ≤ f.magnitude s - q)]
      refine ⟨abs_le.mpr ⟨by linarith, by linarith⟩, fun tie => aboveTie ?_⟩
      rcases abs_cases (f.magnitude r - q) with h | h <;> linarith
  refine ⟨fun s => ?_, fun s ne => (far s ne).2⟩
  by_cases same : s = r
  · rw [same]
  · exact (far s same).1

/-! ## The computed rank -/

/-- A magnitude of `num / den` units is rounded to the significand `n` when `k` binary digits are dropped.
Digits are dropped only where as many as fit are left, which the significand may then exceed by a
carry. -/
structure Place (f : Format) (num den n k : Nat) : Prop where
  rounded : n = roundHalfEven num (den * 2 ^ k)
  low : k = 0 ∨ f.binade ≤ n ∧ f.binade * (den * 2 ^ k) ≤ num
  high : n ≤ 2 * f.binade
  less : num < 2 * f.binade * (den * 2 ^ k)

theorem nearestRank_place (precise : 2 ≤ f.precision) (num : Nat) {den : Nat} (pos : 0 < den) :
    ∃ n k, f.nearestRank num den = n + k * f.binade ∧ f.Place num den n k := by
  suffices place : f.Place num den _ (Nat.log2 (num / den) + 1 - f.precision) from ⟨_, _, rfl, place⟩
  rw [Nat.pow_eq]
  generalize hk : Nat.log2 (num / den) + 1 - f.precision = k
  have scaled : 0 < den * 2 ^ k := by positivity
  have twice := two_mul_binade precise
  have less : num < 2 * f.binade * (den * 2 ^ k) := by
    have digits : num / den < 2 ^ (f.precision + k) :=
      Nat.lt_log2_self.trans_le (Nat.pow_le_pow_right (by decide) (by omega))
    rw [Nat.div_lt_iff_lt_mul pos, pow_add, ← twice] at digits
    linarith
  refine ⟨rfl, ?_, ?_, less⟩
  · rcases Nat.eq_zero_or_pos k with zero | dropped
    · exact .inl zero
    · have exact : Nat.log2 (num / den) = f.precision - 1 + k := by omega
      have nonzero : num / den ≠ 0 := by
        intro zero
        rw [zero, Nat.log2_zero] at exact
        omega
      have digits := Nat.log2_self_le nonzero
      rw [exact, Nat.le_div_iff_mul_le pos, pow_add] at digits
      have reach : f.binade * (den * 2 ^ k) ≤ num := by
        rw [binade, Nat.pow_eq]
        linarith
      exact .inr ⟨((Nat.le_div_iff_mul_le scaled).mpr reach).trans (le_roundHalfEven _ _), reach⟩
  · have := (Nat.div_lt_iff_lt_mul scaled).mpr less
    have := roundHalfEven_le num (den * 2 ^ k)
    omega

/-- Ranks and significands have the same parity. -/
theorem even_rank (precise : 2 ≤ f.precision) {n : Nat} (even : Even n) (k : Nat) :
    Even (n + k * f.binade) :=
  even.add ((even_binade precise).mul_left k)

namespace Place

variable {num den n k : Nat}

theorem units_eq (place : f.Place num den n k) : f.units (n + k * f.binade) = n * 2 ^ k :=
  units_add (place.low.imp_right And.left) place.high

/-- Above, the next rank has the next significand, unless the magnitude has reached the next
binade. -/
theorem above (place : f.Place num den n k) (precise : 2 ≤ f.precision) (pos : 0 < den) :
    2 * num ≤ (f.units (n + k * f.binade) + f.units (n + k * f.binade + 1)) * den ∧
      (2 * num = (f.units (n + k * f.binade) + f.units (n + k * f.binade + 1)) * den →
        Even (n + k * f.binade)) := by
  obtain ⟨up, -, tie⟩ := roundHalfEven_bounds num (show 0 < den * 2 ^ k by positivity)
  rw [← place.rounded] at up tie
  rcases Nat.lt_or_eq_of_le place.high with inside | top
  · have succ : f.units (n + k * f.binade + 1) = (n + 1) * 2 ^ k :=
      units_add_succ (place.low.imp_right And.left) inside
    have sum : (f.units (n + k * f.binade) + f.units (n + k * f.binade + 1)) * den =
        (2 * n + 1) * (den * 2 ^ k) := by
      rw [place.units_eq, succ]
      ring
    rw [sum]
    exact ⟨up, fun same => even_rank precise (tie (.inl same)) k⟩
  · have grows := Nat.mul_lt_mul_of_pos_right (f.units_lt_units_succ (n + k * f.binade)) pos
    have reached : f.units (n + k * f.binade) * den = 2 * f.binade * (den * 2 ^ k) := by
      rw [place.units_eq, top]
      ring
    have less := place.less
    rw [add_mul]
    exact ⟨by omega, by omega⟩

/-- Below, the rank before has the significand before, unless that lies in the binade before. -/
theorem below (place : f.Place num den n k) (precise : 2 ≤ f.precision) (pos : 0 < den) {s : Nat}
    (before : n + k * f.binade = s + 1) :
    (f.units s + f.units (n + k * f.binade)) * den ≤ 2 * num ∧
      ((f.units s + f.units (n + k * f.binade)) * den = 2 * num → Even (n + k * f.binade)) := by
  by_cases bottom : k ≠ 0 ∧ n = f.binade
  · have grows := Nat.mul_lt_mul_of_pos_right (f.units_lt_units_succ s) pos
    have reached : f.units (n + k * f.binade) * den = f.binade * (den * 2 ^ k) := by
      rw [place.units_eq, bottom.2]
      ring
    have reach := (place.low.resolve_left bottom.1).2
    rw [before] at reached ⊢
    rw [add_mul]
    exact ⟨by omega, by omega⟩
  · obtain ⟨-, down, tie⟩ := roundHalfEven_bounds num (show 0 < den * 2 ^ k by positivity)
    rw [← place.rounded] at down tie
    have low := place.low
    have positive := f.binade_pos
    obtain ⟨m, rfl⟩ : ∃ m, n = m + 1 := by
      refine ⟨n - 1, ?_⟩
      rcases low with rfl | low <;> omega
    obtain rfl : s = m + k * f.binade := by linarith
    have pred : f.units (m + k * f.binade) = m * 2 ^ k := by
      refine units_add ?_ (place.high.trans' (Nat.le_succ m))
      by_cases zero : k = 0
      · exact .inl zero
      · exact .inr (by omega)
    have sum : (f.units (m + k * f.binade) + f.units (m + 1 + k * f.binade)) * den +
        den * 2 ^ k = 2 * (m + 1) * (den * 2 ^ k) := by
      rw [place.units_eq, pred]
      ring
    exact ⟨by omega, fun same => even_rank precise (tie (.inr (by omega))) k⟩

end Place

/-- The same for a magnitude of `num / den` units, without fractions. -/
theorem nearest_of_neighbouring_units {num den r : Nat} (pos : 0 < den)
    (above : 2 * num ≤ (f.units r + f.units (r + 1)) * den)
    (aboveTie : 2 * num = (f.units r + f.units (r + 1)) * den → Even r)
    (below : ∀ s, r = s + 1 → (f.units s + f.units r) * den ≤ 2 * num)
    (belowTie : ∀ s, r = s + 1 → (f.units s + f.units r) * den = 2 * num → Even r) :
    f.Nearest ((num : ℚ) / den / f.one) r := by
  have denQ : (0 : ℚ) < den := by exact_mod_cast pos
  have oneQ : (0 : ℚ) < f.one := by exact_mod_cast f.one_pos
  have sum (s t : Nat) : f.magnitude s + f.magnitude t =
      ((f.units s + f.units t) * den : Nat) / (den * f.one : ℚ) := by
    rw [magnitude, magnitude]
    push_cast
    field_simp
  have twice : 2 * ((num : ℚ) / den / f.one) = (2 * num : Nat) / (den * f.one : ℚ) := by
    push_cast
    field_simp
  have scale : (0 : ℚ) < den * f.one := by positivity
  refine nearest_of_neighbours ?_ ?_ ?_ ?_
  · rw [sum, twice, div_le_div_iff_of_pos_right scale]
    exact_mod_cast above
  · rw [sum, twice, div_left_inj' scale.ne']
    exact fun tie => aboveTie (by exact_mod_cast tie)
  · intro s next
    rw [sum, twice, div_le_div_iff_of_pos_right scale]
    exact_mod_cast below s next
  · intro s next
    rw [sum, twice, div_left_inj' scale.ne']
    exact fun tie => belowTie s next (by exact_mod_cast tie)

/-- **The computed rank is the nearest** to a magnitude of `num / den` units. -/
theorem nearest_nearestRank (precise : 2 ≤ f.precision) (num : Nat) {den : Nat} (pos : 0 < den) :
    f.Nearest ((num : ℚ) / den / f.one) (f.nearestRank num den) := by
  obtain ⟨n, k, rank, place⟩ := f.nearestRank_place precise num pos
  have above := place.above precise pos
  have below (s : Nat) := place.below precise pos (s := s)
  rw [rank]
  exact nearest_of_neighbouring_units pos above.1 above.2 (fun s before => (below s before).1)
    fun s before => (below s before).2

/-- The magnitudes include every multiple of a power of two by a number with as many digits as fit. -/
theorem exists_units_eq (f : Format) {n : Nat} (fits : n ≤ 2 * f.binade) (k : Nat) :
    ∃ r, f.units r = n * 2 ^ k := by
  induction k generalizing n with
  | zero => exact ⟨n + 0 * f.binade, units_add (.inl rfl) fits⟩
  | succ k ih =>
    rcases Nat.lt_or_ge n f.binade with small | large
    · obtain ⟨r, hr⟩ := ih (n := 2 * n) (by omega)
      exact ⟨r, by rw [hr, pow_succ]; ring⟩
    · exact ⟨n + (k + 1) * f.binade, units_add (.inr large) fits⟩

theorem one_eq_of_scale_le {g : Format} (finer : f.scale ≤ g.scale) :
    g.one = f.one * 2 ^ (g.scale - f.scale) :=
  (pow_mul_pow_sub 2 finer).symm

/-- Two formats agree on a magnitude if they count it in units that differ by some factor. -/
theorem magnitude_eq_of_units {g : Format} {r s factor : Nat} (pos : 0 < factor)
    (one : g.one = f.one * factor) (units : g.units s = f.units r * factor) :
    g.magnitude s = f.magnitude r := by
  have factorQ : (0 : ℚ) < factor := by exact_mod_cast pos
  have oneQ : (0 : ℚ) < f.one := by exact_mod_cast f.one_pos
  rw [magnitude, magnitude, one, units]
  push_cast
  field_simp

/-- Every finite single-precision magnitude is a double-precision one. -/
theorem exists_double_magnitude (r : Fin single.infinity) :
    ∃ s : Fin double.infinity, double.magnitude s = single.magnitude r := by
  obtain ⟨r, finite⟩ := r
  obtain ⟨n, k, rfl, low, high⟩ := single.exists_place r
  obtain ⟨s, hs⟩ := double.exists_units_eq (high.le.trans (by decide))
    (k + (double.scale - single.scale))
  have within : s < double.infinity := by
    have exponent : k ≤ 254 := by
      have binade : single.binade = 8388608 := rfl
      have infinity : single.infinity = 2139095040 := rfl
      rw [binade, infinity] at finite
      omega
    have top : double.units double.infinity = double.binade * 2 ^ 2046 :=
      units_add (n := double.binade) (k := 2046) (.inr le_rfl) (by decide)
    rw [← double.units_strictMono.lt_iff_lt, hs, top]
    calc n * 2 ^ (k + (double.scale - single.scale))
        < 2 * single.binade * 2 ^ (k + (double.scale - single.scale)) :=
          Nat.mul_lt_mul_of_pos_right high (by positivity)
      _ ≤ 2 * single.binade * 2 ^ (254 + (double.scale - single.scale)) :=
          Nat.mul_le_mul_left _ (Nat.pow_le_pow_right (by decide) (by omega))
      _ ≤ double.binade * 2 ^ 2046 := by decide +kernel
  refine ⟨⟨s, within⟩, ?_⟩
  have ones : double.one = single.one * 2 ^ (double.scale - single.scale) :=
    one_eq_of_scale_le (by decide)
  refine magnitude_eq_of_units (by positivity) ones ?_
  rw [hs, units_add low high.le, mul_assoc, ← pow_add]

end Format

/-! ## Rounding to a datum -/

namespace Binary

variable {f : Format}

/-- The datum that a number with the sign `negative` and the magnitude `q` rounds to: the one of the
nearest rank, and an infinity where that lies beyond the finite ranks. -/
def IsNearest (x : Binary f) (negative : Bool) (q : ℚ) : Prop :=
  ∃ r, f.Nearest q r ∧ x = ofRank negative r

theorem IsNearest.unique {x y : Binary f} {negative : Bool} {q : ℚ} (hx : x.IsNearest negative q)
    (hy : y.IsNearest negative q) : x = y := by
  obtain ⟨r, hr, rfl⟩ := hx
  obtain ⟨s, hs, rfl⟩ := hy
  rw [hr.unique hs]

theorem ofRank_val (negative : Bool) (r : Fin f.infinity) :
    (ofRank negative r.val : Binary f) = .finite negative r :=
  dif_pos r.isLt

/-- A finite number is nearest to its own magnitude. -/
theorem isNearest_magnitude (negative : Bool) (r : Fin f.infinity) :
    (finite negative r).IsNearest negative (f.magnitude r) :=
  ⟨r, f.nearest_magnitude r, (ofRank_val negative r).symm⟩

theorem isNearest_ofRatio (precise : 2 ≤ f.precision) (negative : Bool) (num : Nat) {den : Nat}
    (pos : 0 < den) : (ofRatio negative num den : Binary f).IsNearest negative (num / den) := by
  refine ⟨_, ?_, rfl⟩
  have nearest := f.nearest_nearestRank precise (num * f.one) pos
  have denQ : (0 : ℚ) < den := by exact_mod_cast pos
  have oneQ : (0 : ℚ) < f.one := by exact_mod_cast f.one_pos
  have scaled : ((num * f.one : Nat) : ℚ) / den / f.one = num / den := by
    push_cast
    field_simp
  rwa [scaled] at nearest

/-- **Changing the format rounds correctly**, and keeps the sign. -/
theorem isNearest_convert {g : Format} (precise : 2 ≤ g.precision) (negative : Bool)
    (r : Fin f.infinity) :
    ((finite negative r).convert g).IsNearest negative (f.magnitude r) :=
  isNearest_ofRatio precise negative (f.units r) f.one_pos

end Binary

/-- Widening a finite single-precision number keeps its magnitude. -/
theorem Single.exists_widened (negative : Bool) (r : Fin Format.single.infinity) :
    ∃ s : Fin Format.double.infinity,
      (Binary.finite negative r).convert Format.double = .finite negative s ∧
      Format.double.magnitude s = Format.single.magnitude r := by
  obtain ⟨s, same⟩ := Format.exists_double_magnitude r
  have rounded := Binary.isNearest_convert (g := Format.double) (by decide) negative r
  rw [← same] at rounded
  exact ⟨s, rounded.unique (Binary.isNearest_magnitude negative s), same⟩

/-- **A single-precision number is kept by widening it.** -/
theorem Single.convert_convert (x : Single) :
    (x.convert Format.double).convert Format.single = x := by
  cases x with
  | nan => rfl
  | infinite negative => rfl
  | finite negative r =>
    obtain ⟨s, wide, same⟩ := exists_widened negative r
    have narrow := Binary.isNearest_convert (g := Format.single) (by decide) negative s
    rw [same] at narrow
    rw [wide]
    exact narrow.unique (Binary.isNearest_magnitude negative r)

end LoxValues
