import LoxValues.Decimal.Notation
import LoxValues.Text.Blank
import LoxValues.Text.Quoted

/-!
# Places for arguments

A place in a message is filled by one argument, a text or an integer, in one of several forms.

* `s`, `r` and `a` write the argument as it is, between quotes, and between quotes in plain
  characters; integers are never quoted.  The precision limits how many characters are taken.
* `c` writes a single character, of which an integer is the code point.
* `d`, `i` and `u` write an integer in decimal digits, `o` in octal and `x` and `X` in hexadecimal
  ones.  The precision is the least number of digits.
* `e`, `f`, `g` and their capitals write the double nearest to an integer: with an exponent,
  without one, and in the shorter of the two ways.  The precision, six where none is given, is the
  number of digits behind the point, for `g` that of all digits.

What is written stands at the right of its field, or at the left if that is asked for.  A number may
also show a sign where it is not negative, its base or a point that nothing follows, and its field
may be filled up with zeros behind the sign.
-/

set_option autoImplicit false
namespace LoxValues

open Text

/-- What fills a place. -/
inductive Argument where
  /-- A text. -/
  | text (s : String)
  /-- An integer. -/
  | integer (n : Int)
  deriving DecidableEq

/-- Why a message and its arguments do not go together. -/
inductive MessageFault where
  /-- A place finds no argument left. -/
  | tooFewArguments
  /-- Arguments are left at the end. -/
  | tooManyArguments
  /-- The message ends within a place. -/
  | incomplete
  /-- No form has this letter, which stands at this index of the message. -/
  | unknownForm (letter : Char) (index : Nat)
  /-- A text where a form writes whole numbers. -/
  | wantsWhole (letter : Char)
  /-- A text where a form writes numbers in decimal digits. -/
  | wantsNumber (letter : Char)
  /-- A text where a form writes floats. -/
  | wantsFloat
  /-- A text that is not one character, where one is written. -/
  | wantsCharacter
  /-- An integer that is no code point, where a character is written. -/
  | characterRange
  /-- An integer beyond all doubles, where a form writes floats. -/
  | beyondDoubles
  /-- An integer with more digits than are written, where a form writes decimal digits. -/
  | tooManyDigits
  /-- A place that takes its argument by name. -/
  | wantsNames
  /-- A text where a place takes its width or precision from the arguments. -/
  | wantsWidth
  /-- An argument that is no width of a field. -/
  | widthRange
  /-- An argument that is no precision. -/
  | precisionRange
  /-- A width beyond all fields. -/
  | widthTooBig
  /-- A precision beyond all fields. -/
  | precisionTooBig
  deriving DecidableEq

/-- What is said about a message and arguments that do not go together. -/
def MessageFault.message : MessageFault → String
  | .tooFewArguments => "not enough arguments for format string"
  | .tooManyArguments => "not all arguments converted during string formatting"
  | .incomplete => "incomplete format"
  | .unknownForm letter index =>
    let shown := if 31 ≤ letter.toNat ∧ letter.toNat < 127 then letter else '?'
    "unsupported format character '" ++ String.ofList [shown] ++ "' (0x" ++
      String.ofList (hexDigits 0 letter.toNat) ++ ") at index " ++ Nat.repr index
  | .wantsWhole letter =>
    "%" ++ String.ofList [letter] ++ " format: an integer is required, not str"
  | .wantsNumber letter =>
    "%" ++ String.ofList [letter] ++ " format: a real number is required, not str"
  | .wantsFloat => "must be real number, not str"
  | .wantsCharacter => "%c requires int or char"
  | .characterRange => "%c arg not in range(0x110000)"
  | .beyondDoubles => "int too large to convert to float"
  | .tooManyDigits => digitLimitText ""
  | .wantsNames => "format requires a mapping"
  | .wantsWidth => "* wants int"
  | .widthRange => "Python int too large to convert to C ssize_t"
  | .precisionRange => "Python int too large to convert to C int"
  | .widthTooBig => "width too big"
  | .precisionTooBig => "precision too big"

/-- A place for an argument. -/
structure Place where
  /-- Does the text stand at the left of its field? -/
  leftAligned : Bool
  /-- Is a field filled up with zeros, not blanks, in front of a number? -/
  zeroFilled : Bool
  /-- What stands in front of a number that is not negative. -/
  positiveSign : List Char
  /-- Does a number show its base, or its point where nothing follows it? -/
  alternate : Bool
  /-- The least number of characters written. -/
  width : Nat
  /-- The precision, where one is given. -/
  precision : Option Nat
  /-- The letter of the form. -/
  letter : Char
  deriving DecidableEq

namespace Place

/-! ## Fields -/

/-- A text in its field. -/
def fit (p : Place) (text : List Char) : List Char :=
  let blanks := List.replicate (p.width - text.length) ' '
  if p.leftAligned then text ++ blanks else blanks ++ text

/-- A number in its field: its sign, the mark of its base, and its digits. -/
def fitNumber (p : Place) (negative : Bool) (mark digits : List Char) : List Char :=
  let front := (if negative then ['-'] else p.positiveSign) ++ mark
  if p.zeroFilled && !p.leftAligned then
    front ++ List.replicate (p.width - front.length - digits.length) '0' ++ digits
  else p.fit (front ++ digits)

/-! ## Whole numbers -/

/-- Digits with zeros in front, as many as the precision asks for. -/
def leastDigits (p : Place) (digits : List Char) : List Char :=
  List.replicate (p.precision.getD 0 - digits.length) '0' ++ digits

/-- A whole number in digits of a base, and what marks the base where it is shown. -/
def wholeNumber (p : Place) (base : Nat) (mark : List Char) (n : Int) : List Char :=
  p.fitNumber (decide (n < 0)) (if p.alternate then mark else [])
    (p.leastDigits (Nat.toDigits base n.natAbs))

/-! ## Floats -/

/-- The digits behind a point, and the point if there are any or it is shown in any case. -/
def fraction (p : Place) (digits : List Char) : List Char :=
  if digits.isEmpty && !p.alternate then [] else '.' :: digits

/-- A magnitude in a number of digits, rounded if it has more, and the exponent of the first one. -/
def significant (count magnitude : Nat) : List Char × Nat :=
  let digits := Nat.toDigits 10 magnitude
  let dropped := digits.length - count
  let kept := Nat.toDigits 10 (roundHalfEven magnitude (Nat.pow 10 dropped))
  ((kept ++ List.replicate (count - digits.length) '0').take count, kept.length + dropped - 1)

/-- A magnitude with an exponent. -/
def scientific (p : Place) (digits : List Char) (exponent : Nat) : List Char :=
  digits.take 1 ++ p.fraction (digits.drop 1) ++ Decimal.exponentMark exponent

/-- A whole magnitude as a form for floats writes it; `letter` is the form's small letter. -/
def floatDigits (p : Place) (letter : Char) (magnitude : Nat) : List Char :=
  let precision := p.precision.getD 6
  let digits := Nat.toDigits 10 magnitude
  if letter = 'f' then digits ++ p.fraction (List.replicate precision '0')
  else if letter = 'e' then
    let (digits, exponent) := significant (precision + 1) magnitude
    p.scientific digits exponent
  else
    let count := max precision 1
    if digits.length ≤ count then
      let zeros := List.replicate (count - digits.length) '0'
      digits ++ p.fraction (if p.alternate then zeros else [])
    else
      let (digits, exponent) := significant count magnitude
      p.scientific (if p.alternate then digits else trimEnd (· == '0') digits) exponent

/-- The double nearest to an integer. -/
def floatNumber (p : Place) (n : Int) : Except MessageFault (List Char) :=
  match Double.ofInt? n with
  | some (.finite negative rank) =>
    let whole := Format.double.units rank / Format.double.one
    .ok (p.fitNumber (negative && whole != 0) [] (p.floatDigits p.letter.toLower whole))
  | _ => .error .beyondDoubles

/-! ## All forms -/

/-- A text that has its place for itself, as far as the precision takes it. -/
def taken (p : Place) (text : String) : List Char :=
  let cs := text.toList
  p.fit (cs.take (p.precision.getD cs.length))

/-- The letters of the forms that write an integer in decimal digits. -/
def decimalForms : List Char := ['s', 'r', 'a', 'd', 'i', 'u']

/-- What a place writes for an integer.  The index is that of the form's letter in the message. -/
def writeInteger (p : Place) (index : Nat) (n : Int) : Except MessageFault (List Char) :=
  if p.letter ∈ decimalForms ∧ !isWritable n then .error .tooManyDigits
  else match p.letter with
  | 's' | 'r' | 'a' => .ok (p.taken (intText n))
  | 'c' =>
    if 0 ≤ n ∧ n < 0x110000 then .ok (p.fit [Char.ofNat n.toNat]) else .error .characterRange
  | 'd' | 'i' | 'u' => .ok (p.wholeNumber 10 [] n)
  | 'o' => .ok (p.wholeNumber 8 ['0', 'o'] n)
  | 'x' => .ok (p.wholeNumber 16 ['0', 'x'] n)
  | 'X' => .ok ((p.wholeNumber 16 ['0', 'x'] n).map Char.toUpper)
  | 'e' | 'f' | 'g' => p.floatNumber n
  | 'E' | 'F' | 'G' => (p.floatNumber n).map (·.map Char.toUpper)
  | letter => .error (.unknownForm letter index)

/-- What a place writes for a text.  The index is that of the form's letter in the message. -/
def writeText (p : Place) (index : Nat) (s : String) : Except MessageFault (List Char) :=
  match p.letter with
  | 's' => .ok (p.taken s)
  | 'r' => .ok (p.taken (quoted s))
  | 'a' => .ok (p.taken (plainQuoted s))
  | 'c' => if s.length = 1 then .ok (p.fit s.toList) else .error .wantsCharacter
  | 'd' | 'i' | 'u' => .error (.wantsNumber p.letter)
  | 'o' | 'x' | 'X' => .error (.wantsWhole p.letter)
  | 'e' | 'E' | 'f' | 'F' | 'g' | 'G' => .error .wantsFloat
  | letter => .error (.unknownForm letter index)

/-- What a place writes for an argument. -/
def write (p : Place) (index : Nat) : Argument → Except MessageFault (List Char)
  | .text s => p.writeText index s
  | .integer n => p.writeInteger index n

end Place
end LoxValues
