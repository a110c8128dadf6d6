import LoxValues.Binary.Number
import LoxValues.Decimal.Shortest

/-!
# How floating-point numbers are written

The digits are those of the shortest decimal that reads back; this module lays them out.

* `Single.text` writes a single-precision number as the language shows it: always positional,
  filled up with zeros, and without a fraction where there is none.
* `Double.text` writes a double as a literal: a point with a digit on each side, or an exponent of
  at least two digits where the leading digit stands below `10 ^ -4` or from `10 ^ 16` on.
-/

set_option autoImplicit false
namespace LoxValues

/-- An integer in decimal digits, with a minus sign below zero. -/
def intText (n : Int) : String :=
  if n < 0 then "-" ++ Nat.repr n.natAbs else Nat.repr n.natAbs

/-- The most digits that an integer is read and written with. -/
def longestInteger : Nat := 4300

/-- Has an integer no more digits than it may be written with? -/
def isWritable (n : Int) : Bool := n.natAbs < Nat.pow 10 longestInteger

/-- What is said about an integer with too many digits; on reading, their count comes in between. -/
def digitLimitText (count : String) : String :=
  "Exceeds the limit (" ++ Nat.repr longestInteger ++ " digits) for integer string conversion" ++
    count ++ "; use sys.set_int_max_str_digits() to increase the limit"

namespace Decimal

/-- The significant digits. -/
def digits (d : Decimal) : List Char := Nat.toDigits 10 d.coefficient

/-- How many digits stand before the point; negative when zeros follow it first. -/
def point (d : Decimal) : Int := d.digits.length + d.exponent

/-- The digits with the point in its place and zeros on the side where digits are missing. -/
def positional (d : Decimal) : List Char :=
  if d.point ≤ 0 then
    ['0', '.'] ++ List.replicate (-d.point).toNat '0' ++ d.digits
  else if 0 ≤ d.exponent then
    d.digits ++ List.replicate d.exponent.toNat '0'
  else
    d.digits.take d.point.toNat ++ '.' :: d.digits.drop d.point.toNat

/-- The exponent of a number written with one digit before the point: a sign, then at least two
digits. -/
def exponentMark (e : Int) : List Char :=
  let sign := if e < 0 then '-' else '+'
  let digits := Nat.toDigits 10 e.natAbs
  ['e', sign] ++ List.replicate (2 - digits.length) '0' ++ digits

/-- One digit before the point, the others behind it, and an exponent. -/
def scientific (d : Decimal) : List Char :=
  d.digits.take 1 ++ (if d.digits.length ≤ 1 then [] else '.' :: d.digits.drop 1) ++
    exponentMark (d.point - 1)

/-- Positional where the leading digit stands at `10 ^ -4` or above and below `10 ^ 16`, with a
fraction of `0` where there is none; otherwise scientific. -/
def literal (d : Decimal) : List Char :=
  if -4 < d.point ∧ d.point ≤ 16 then
    if 0 ≤ d.exponent then d.positional ++ ['.', '0'] else d.positional
  else d.scientific

end Decimal

/-- A sign in front of a magnitude. -/
def signed (negative : Bool) (magnitude : List Char) : String :=
  String.ofList (if negative then '-' :: magnitude else magnitude)

/-- The text of a single-precision number. -/
def Single.text : Single → String
  | .nan => "NaN"
  | .infinite negative => signed negative ['i', 'n', 'f']
  | .finite negative rank =>
    signed negative (if rank.val = 0 then ['0'] else (Format.single.shortest rank).positional)

/-- The text of a double where the language shows a number: that of the nearest single. -/
def Double.singleText (x : Double) : String := Single.text (x.convert Format.single)

/-- The text of a double as a literal. -/
def Double.text : Double → String
  | .nan => "nan"
  | .infinite negative => signed negative ['i', 'n', 'f']
  | .finite negative rank =>
    signed negative (if rank.val = 0 then ['0', '.', '0'] else (Format.double.shortest rank).literal)

end LoxValues
