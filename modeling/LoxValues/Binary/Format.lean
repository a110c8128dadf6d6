/-!
# Binary formats, counted by rank

A binary floating-point format has finitely many finite magnitudes, and everything this library
needs to know about one of them is its *rank*: how many smaller magnitudes the format has.  Zero
has rank `0`, the least positive number rank `1`, and one more than the largest finite rank stands
for infinity.  Every finite magnitude is a whole multiple of the least positive one, so a rank
stands for a natural number of *units* and no fraction ever appears.

## What is here

* `Format` — a format, with the two instances `Format.single` and `Format.double`.
* `Format.units` — the magnitude of a rank, in units.
* `roundHalfEven` — the integer nearest to a quotient.
* `Format.nearestRank` — **correct rounding**: the rank nearest to an exact quotient.  Neighbouring
  ranks are neighbouring numbers, so a carry out of the significand, the step from subnormal to
  normal numbers and the step beyond the largest number are all the same step, `r` to `r + 1`.
-/

set_option autoImplicit false
namespace LoxValues

/-- A binary floating-point format. -/
structure Format where
  /-- How many binary digits the significand of a normal number has. -/
  precision : Nat
  /-- The least positive number, which is one unit, is `2` to the power `-scale`. -/
  scale : Nat
  /-- The rank of infinity: the number of finite magnitudes, zero included. -/
  infinity : Nat
  deriving DecidableEq

/-- The integer nearest to `num / den`; of two equally near ones, the even one. -/
def roundHalfEven (num den : Nat) : Nat :=
  if den < 2 * (num % den) ∨ (2 * (num % den) = den ∧ num / den % 2 = 1) then num / den + 1
  else num / den

namespace Format

/-- Single precision: 24 binary digits in 32-bit words. -/
def single : Format := ⟨24, 149, 2139095040⟩

/-- Double precision: 53 binary digits in 64-bit words. -/
def double : Format := ⟨53, 1074, 9218868437227405312⟩

/-- How many magnitudes lie between a power of two and its double, the latter left out. -/
def binade (f : Format) : Nat := Nat.pow 2 (f.precision - 1)

/-- One in units. -/
def one (f : Format) : Nat := Nat.pow 2 f.scale

/-- The magnitude of rank `r`, in units.  Up to twice `binade` the ranks are the units themselves;
from there on each further binade doubles the step. -/
def units (f : Format) (r : Nat) : Nat :=
  if r < f.binade then r else (f.binade + r % f.binade) * Nat.pow 2 (r / f.binade - 1)

/-- The rank nearest to a magnitude of `num / den` units, the even rank of two equally near ones:
so many low digits are rounded away that `precision` digits are left, and a carry out of the top
digit lands on the first rank of the next binade.  A rank of `infinity` or more says that the
magnitude lies beyond the largest finite one by at least half a step. -/
def nearestRank (f : Format) (num den : Nat) : Nat :=
  let dropped := Nat.log2 (num / den) + 1 - f.precision
  roundHalfEven num (den * Nat.pow 2 dropped) + dropped * f.binade

end Format
end LoxValues
