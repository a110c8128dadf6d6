/-!
# Decimal digits

Many scripts have characters of their own for the digits zero to nine.  Those of one script follow
each other in order, so a script is known by its zero.

* `digitValue?` — the digit that a character stands for.
* `plainDigit` — the same digit written as one of `0` to `9`.
-/

set_option autoImplicit false
namespace LoxValues.Text

/-- The code points of the zeros, in order. -/
def zeros : List Nat := [
  48, 1632, 1776, 1984, 2406, 2534, 2662, 2790, 2918, 3046, 3174, 3302, 3430, 3558, 3664, 3792,
  3872, 4160, 4240, 6112, 6160, 6470, 6608, 6784, 6800, 6992, 7088, 7232, 7248, 42528, 43216,
  43264, 43472, 43504, 43600, 44016, 65296, 66720, 68912, 69734, 69872, 69942, 70096, 70384,
  70736, 70864, 71248, 71360, 71472, 71904, 72016, 72784, 73040, 73120, 92768, 92864, 93008,
  120782, 120792, 120802, 120812, 120822, 123200, 123632, 125264, 130032]

/-- The digit that a character stands for. -/
def digitValue? (c : Char) : Option Nat :=
  (zeros.find? fun first => first ≤ c.toNat && c.toNat < first + 10).map fun first =>
    c.toNat - first

/-- A character that stands for a digit as one of `0` to `9`; any other character as it is. -/
def plainDigit (c : Char) : Char :=
  match digitValue? c with
  | some d => Nat.digitChar d
  | none => c

end LoxValues.Text
