import LoxValues.Fault
import LoxValues.Text.Blank
import LoxValues.Text.DecimalDigit

/-!
# Making values

Numbers become values only through this module, and it is here that their payloads are brought into
range: an integer outside the 64-bit range is refused, and a double is rounded to the nearest
single-precision number, which is put into a box of its own.  Integers may come as text, which
`readInteger` reads.
-/

set_option autoImplicit false
namespace LoxValues

open Text

/-- The digits of a text without a sign: plain digits in groups divided by single underscores.  What
stands wrong among digits and underscores is seen first, then their number, and then what follows
them. -/
def readDigits (s : String) (cs : List Char) : Except Fault (List Char) :=
  let scanned := cs.takeWhile fun c => c.isDigit || c == '_'
  let groups := pieces '_' scanned
  if groups.any List.isEmpty then .error (.notInteger s)
  else if longestInteger < groups.flatten.length then .error (.integerDigits groups.flatten.length)
  else if scanned.length < cs.length then .error (.notInteger s)
  else .ok groups.flatten

/-- The integer that a text stands for: digits of any script, with a sign in front if need be,
between white space. -/
def readInteger (s : String) : Except Fault Int :=
  match (trim isWhiteSpace s.toList).map plainDigit with
  | '-' :: cs => (readDigits s cs).map fun digits => -(Nat.ofDigitChars 10 digits 0 : Int)
  | '+' :: cs => (readDigits s cs).map fun digits => (Nat.ofDigitChars 10 digits 0 : Int)
  | cs => (readDigits s cs).map fun digits => (Nat.ofDigitChars 10 digits 0 : Int)

namespace Value

/-- The integer value of a number in the 64-bit range.  The refusal of another number names it. -/
def ofInt (n : Int) : Except Fault Value :=
  if minInt ≤ n ∧ n ≤ maxInt then .ok (.int n) else .error (.naming n (.integerRange n))

/-- The float value nearest to a double. -/
def ofDouble (x : Double) (box : Nat) : Value := .float x.toSingle box

/-- The float value of an integer, which is rounded to a double first. -/
def floatOfInt (n : Int) (box : Nat) : Except Fault Value :=
  match Double.ofInt? n with
  | some x => .ok (ofDouble x box)
  | none => .error .beyondDoubles

/-- The value that a literal denotes.  A float is made in the box that is given. -/
def ofLiteral (l : Literal) (box : Nat) : Except Fault Value :=
  match l with
  | .float x => .ok (ofDouble x box)
  | .int n => ofInt n
  | .string s => .ok (.string s)
  | .keyword .nil => .ok .nil
  | .keyword .true => .ok (.bool true)
  | .keyword .false => .ok (.bool false)
  | .stray (.text s) => .error (.notLiteral (.text s))
  | .stray (.number n) => .error (.naming n (.notLiteral (.number n)))

end Value
end LoxValues
