import LoxValues.Text.Blank

/-!
# Rendering depths

A rendering depth is written as a whole number from 1 to 256.  A plain number — digits without a
zero in front, perhaps behind a minus sign — is read as it stands (`plain?`), and refused if it is
too long.  Any other text is reduced in steps, each of which sees what the one before it left, and
has to be a plain number then:

1. White space around the text does not count, and one sign may stand in front.
2. Zeros in front are dropped, and underscores between them as well (`withoutZeros?`).
3. A fraction of zeros is dropped (`withoutFraction`).
4. Single underscores inside the rest are dropped (`withoutUnderscores`).

The zeros of the second step may also stand in front of a minus sign, which then counts.
-/

set_option autoImplicit false
namespace LoxValues

open Text

/-- Why a rendering depth is refused. -/
inductive DepthIssue where
  /-- It is no whole number. -/
  | notWhole
  /-- It has more digits than are read. -/
  | tooLong
  /-- It is below one. -/
  | tooSmall
  /-- It is above 256. -/
  | tooLarge
  deriving DecidableEq

namespace Depth

/-- What is left of a text that starts with zeros, the last of them or of the underscores between
them being `last`.  A point needs a digit in front of it, and a number of zeros alone needs one
digit: both keep `last`. -/
def afterZeros? (last : Char) : List Char → Option (List Char)
  | [] => some [last]
  | c :: rest =>
    if c = '0' ∨ c = '_' then afterZeros? c rest
    else if c.isDigit ∨ c = '-' then some (c :: rest)
    else if c = '.' then some (last :: c :: rest)
    else none

/-- A text that starts with a digit, without zeros in front. -/
def withoutZeros? (cs : List Char) : Option (List Char) :=
  match cs with
  | '0' :: rest => afterZeros? '0' rest
  | c :: _ => if c.isDigit then some cs else none
  | [] => none

/-- A text without a point and the zeros behind it, where nothing else stands behind it. -/
def withoutFraction (cs : List Char) : List Char :=
  match cut? '.' cs with
  | some (whole, fraction) =>
    if !fraction.isEmpty && fraction.all (· == '0') then whole else cs
  | none => cs

/-- A text without its underscores, where each of them stands between two other characters. -/
def withoutUnderscores (cs : List Char) : List Char :=
  let groups := pieces '_' cs
  if groups.all fun g => !g.isEmpty then groups.flatten else cs

/-- The most digits that a number is read with. -/
def longest : Nat := 4300

/-- Digits without a zero in front, or a single zero.  Too many digits are seen before anything that
follows them. -/
def plainMagnitude? (cs : List Char) : Except DepthIssue Nat :=
  match cs with
  | '0' :: rest => if rest.isEmpty then .ok 0 else .error .notWhole
  | _ =>
    let digits := cs.takeWhile Char.isDigit
    if longest < digits.length then .error .tooLong
    else if digits.isEmpty || digits.length < cs.length then .error .notWhole
    else .ok (Nat.ofDigitChars 10 digits 0)

/-- A magnitude, and perhaps a minus sign in front. -/
def plain? (cs : List Char) : Except DepthIssue Int :=
  match cs with
  | '-' :: rest => (plainMagnitude? rest).map fun n => -(n : Int)
  | _ => (plainMagnitude? cs).map Int.ofNat

/-- A text without a sign in front, reduced in the last three steps. -/
def reducedMagnitude? (cs : List Char) : Option (List Char) :=
  (withoutZeros? cs).map fun cs => withoutUnderscores (withoutFraction cs)

/-- A text reduced in all steps. -/
def reduced? (cs : List Char) : Option (List Char) :=
  match trim isWhiteSpace cs with
  | '+' :: cs => reducedMagnitude? cs
  | '-' :: cs => (reducedMagnitude? cs).map ('-' :: ·)
  | cs => reducedMagnitude? cs

/-- A whole number.  Its length is held against a text only as it stands: one that is too long even
when it is reduced is no whole number. -/
def wholeNumber? (s : String) : Except DepthIssue Int :=
  match plain? s.toList with
  | .ok n => .ok n
  | .error .tooLong => .error .tooLong
  | .error _ =>
    match reduced? s.toList with
    | some cs => (plain? cs).mapError fun _ => .notWhole
    | none => .error .notWhole

/-- A rendering depth from 1 to 256. -/
def read (s : String) : Except DepthIssue Nat :=
  match wholeNumber? s with
  | .error issue => .error issue
  | .ok n =>
    if n < 1 then .error .tooSmall
    else if 256 < n then .error .tooLarge
    else .ok n.toNat

end Depth
end LoxValues
