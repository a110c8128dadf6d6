import LoxValues.Binary.Format

/-!
# The shortest decimal that reads back

A positive number of a binary format has many decimals that round to it.  `Format.shortest` finds
one with as few significant digits as possible, and of those the nearest to the number.

The search walks down the decimal grids — the multiples of a power of ten — from one coarser than
the number itself to one so fine that the number lies on it.  The decimals that round to a number
form an interval around it, so when a grid has a point in that interval, one of the number's two
neighbours on the grid lies there.  The first grid with a hit gives the answer: a decimal on a
finer grid with fewer digits would leave room for a power of ten between the two, which lies on a
coarser grid.
-/

set_option autoImplicit false
namespace LoxValues

/-- The decimal `coefficient` times ten to the power `exponent`. -/
structure Decimal where
  /-- The significant digits, as a natural number. -/
  coefficient : Nat
  /-- The power of ten that the last digit counts. -/
  exponent : Int
  deriving DecidableEq

namespace Format

/-- The rank that a decimal rounds to. -/
def rankOfDecimal (f : Format) (d : Decimal) : Nat :=
  f.nearestRank (d.coefficient * Nat.pow 10 d.exponent.toNat * f.one)
    (Nat.pow 10 (-d.exponent).toNat)

/-- The decimals with a given last place that might be the answer for a rank: the nearest one
first, then the neighbours on either side. -/
def candidates (f : Format) (rank : Nat) (exponent : Int) : List Decimal :=
  let num := f.units rank * Nat.pow 10 (-exponent).toNat
  let den := f.one * Nat.pow 10 exponent.toNat
  [⟨roundHalfEven num den, exponent⟩, ⟨num / den, exponent⟩, ⟨num / den + 1, exponent⟩]

/-- The first decimal found that rounds to a rank, from a given last place down to finer ones. -/
def firstReading (f : Format) (rank : Nat) : (finer : Nat) → (exponent : Int) → Decimal
  | 0, exponent => ⟨f.units rank * Nat.pow 10 (-exponent).toNat / f.one, exponent⟩
  | finer + 1, exponent =>
    match (f.candidates rank exponent).find? fun d => f.rankOfDecimal d == rank with
    | some d => d
    | none => f.firstReading rank finer (exponent - 1)

/-- The shortest decimal that rounds to a rank, and the nearest of the shortest; on a tie, the one
whose last digit is even.  The last grid tried has a point for every unit. -/
def shortest (f : Format) (rank : Nat) : Decimal :=
  let whole := (Nat.toDigits 10 (f.units rank / f.one)).length
  f.firstReading rank (whole + f.scale) whole

end Format
end LoxValues
