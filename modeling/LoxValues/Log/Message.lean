import LoxValues.Log.Place

/-!
# Messages with places for arguments

A message of the host's logging may leave places for arguments: a `%`, and behind it, in this order
and all but the last optional,

* flags: `-` for the left of the field, `0` for zeros, `+` or a blank for the sign of numbers that
  are not negative, `#` for the base or the point of a number;
* the width of the field, and behind a point the precision; a `*` takes either from the arguments;
* one of the letters `h`, `l` and `L`, which says nothing;
* the letter of the form.

`%%` stands for a `%`.  The places take the arguments in order, and `Message.fill` refuses a message
whose places do not match them: the first thing wrong, from the left, is what is reported.
-/

set_option autoImplicit false
namespace LoxValues.Message

/-! ## Reading a place -/

/-- The characters that may stand first in a place. -/
def isFlag (c : Char) : Bool := c == '-' || c == '+' || c == ' ' || c == '#' || c == '0'

/-- The number that stands in front, zero where there is none, and what follows it. -/
def number (limit : Nat) (tooBig : MessageFault) (cs : List Char) :
    Except MessageFault (Nat × List Char) :=
  let digits := cs.takeWhile Char.isDigit
  let n := Nat.ofDigitChars 10 digits 0
  if limit < n then .error tooBig else .ok (n, cs.drop digits.length)

/-- The number that the next argument gives to a place, and the arguments after it. -/
def argumentNumber (limit : Nat) (range : MessageFault) :
    List Argument → Except MessageFault (Int × List Argument)
  | [] => .error .tooFewArguments
  | .text _ :: _ => .error .wantsWidth
  | .integer n :: others =>
    if n < -(limit : Int) - 1 ∨ limit < n then .error range else .ok (n, others)

/-- The greatest width. -/
def widthLimit : Nat := 9223372036854775807

/-- The width in front, negative for the left of the field, the arguments left, and what follows. -/
def width (arguments : List Argument) (cs : List Char) :
    Except MessageFault (Int × List Argument × List Char) :=
  match cs with
  | '*' :: rest =>
    (argumentNumber widthLimit .widthRange arguments).map fun (n, others) => (n, others, rest)
  | _ => (number widthLimit .widthTooBig cs).map fun (n, rest) => (n, arguments, rest)

/-- The greatest precision. -/
def precisionLimit : Nat := 2147483647

/-- The precision in front, if there is one, the arguments left, and what follows.  One below zero
counts as zero. -/
def precision (arguments : List Argument) (cs : List Char) :
    Except MessageFault (Option Nat × List Argument × List Char) :=
  match cs with
  | '.' :: '*' :: rest =>
    (argumentNumber precisionLimit .precisionRange arguments).map fun (n, others) =>
      (some n.toNat, others, rest)
  | '.' :: rest =>
    (number precisionLimit .precisionTooBig rest).map fun (n, rest) => (some n, arguments, rest)
  | _ => .ok (none, arguments, cs)

/-- What follows the letter that says nothing. -/
def skipSize (cs : List Char) : List Char :=
  match cs with
  | c :: rest => if c = 'h' ∨ c = 'l' ∨ c = 'L' then rest else cs
  | [] => []

/-- What the flags of a place say about the sign of numbers that are not negative. -/
def positiveSign (flags : List Char) : List Char :=
  if '+' ∈ flags then ['+'] else if ' ' ∈ flags then [' '] else []

/-- The place behind a `%`, the arguments left for it, and what follows the place. -/
def place (arguments : List Argument) (cs : List Char) :
    Except MessageFault (Place × List Argument × List Char) := do
  if cs.head? = some '(' then throw .wantsNames
  let flags := cs.takeWhile isFlag
  let (width, arguments, cs) ← width arguments (cs.drop flags.length)
  let (precision, arguments, cs) ← precision arguments cs
  match skipSize cs with
  | letter :: rest =>
    let p : Place := {
      leftAligned := decide ('-' ∈ flags) || decide (width < 0)
      zeroFilled := decide ('0' ∈ flags)
      positiveSign := positiveSign flags
      alternate := decide ('#' ∈ flags)
      width := width.natAbs
      precision := precision
      letter := letter }
    return (p, arguments, rest)
  | [] => throw .incomplete

/-! ## Filling the places -/

/-- The rest of a message of `length` characters with the arguments in their places.  Each place
takes at least one character, so their number is bounded. -/
def filled (length : Nat) : (bound : Nat) → List Char → List Argument →
    Except MessageFault (List Char)
  | _, [], arguments => if arguments.isEmpty then .ok [] else .error .tooManyArguments
  | 0, _ :: _, _ => .ok []
  | bound + 1, '%' :: '%' :: cs, arguments => (filled length bound cs arguments).map ('%' :: ·)
  | bound + 1, '%' :: cs, arguments => do
    let (p, arguments, rest) ← place arguments cs
    match arguments with
    | [] => throw .tooFewArguments
    | argument :: others =>
      let text ← p.write (length - rest.length - 1) argument
      return text ++ (← filled length bound rest others)
  | bound + 1, c :: cs, arguments => (filled length bound cs arguments).map (c :: ·)

/-- A message with the arguments in their places.  Without arguments it is taken as it is. -/
def fill (message : String) (arguments : List Argument) : Except MessageFault String :=
  if arguments.isEmpty then .ok message
  else (filled message.length message.length message.toList arguments).map String.ofList

end LoxValues.Message
