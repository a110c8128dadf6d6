import LoxValues.Literal
import LoxValues.Log.Message
import LoxValues.Settings
import LoxValues.Value

/-!
# What can go wrong

Two sorts of failure are kept apart.  A `TypeMismatch` is the guest program's doing: a value is not
of the sort an operation expects.  It knows no place in the source; whoever does turns it into a
`ProgramError` (`LoxValues.Writing`).  The other causes of a `Fault` are mistakes of the host: an
integer that cannot be read or does not fit or has too many digits to be written, an index outside an
array, something that is no literal or no value, a variable that cannot be set, settings that cannot be
read, a log level nobody knows, a message without the arguments it asks for.
-/

set_option autoImplicit false
namespace LoxValues

/-- The sort of value that an operation expects. -/
inductive Expectation where
  /-- A number, as a float. -/
  | double
  /-- A number, as an integer. -/
  | integer
  /-- A number. -/
  | number
  /-- A text. -/
  | string
  deriving DecidableEq

/-- What is said when the expectation fails. -/
def Expectation.message : Expectation → String
  | .double => "Type error! Expecting a double!"
  | .integer => "Type error! Expecting an integer!"
  | .number => "Type error! Expecting a number!"
  | .string => "Type error! Expecting a string!"

/-- An operation met a value of the wrong sort. -/
structure TypeMismatch where
  /-- The sort it expected. -/
  expected : Expectation
  /-- The value it met, where that is known. -/
  value : Option Value
  deriving DecidableEq

/-- What went wrong: this depends on the expectation alone. -/
def TypeMismatch.message (m : TypeMismatch) : String := m.expected.message

/-- The causes of a failure. -/
inductive Fault where
  /-- A value of the wrong sort. -/
  | mismatch (m : TypeMismatch)
  /-- A text that is no integer. -/
  | notInteger (s : String)
  /-- An integer with more digits than are read. -/
  | integerDigits (count : Nat)
  /-- An integer with more digits than are written. -/
  | tooManyDigits
  /-- An integer outside the 64-bit range. -/
  | integerRange (n : Int)
  /-- An integer beyond the largest double. -/
  | beyondDoubles
  /-- An index outside an array, in reading. -/
  | indexOutOfRange
  /-- An index outside an array, in writing. -/
  | assignmentOutOfRange
  /-- An index that no array can have: it does not fit in 64 bits. -/
  | indexRange
  /-- Something that is no literal. -/
  | notLiteral (s : Stray)
  /-- A spelling that is no keyword. -/
  | notKeyword (s : String)
  /-- A log level that nobody knows. -/
  | unknownLevel (name : String)
  /-- A log level that nobody knows, given to a module. -/
  | unknownModuleLevel (module level : String)
  /-- A number of the host where only values are possible. -/
  | unreachable (n : Int)
  /-- Settings that cannot be read. -/
  | settings (issue : DepthIssue)
  /-- A variable with a null character in its name or its value. -/
  | nullCharacter
  /-- A variable with an equals sign in its name. -/
  | variableName
  /-- A variable without a name. -/
  | namelessVariable
  /-- A message and arguments that do not go together. -/
  | message (f : MessageFault)
  deriving DecidableEq

/-- The text of something that is no literal: numbers bare, texts between quotes. -/
def Stray.shown : Stray → String
  | .text s => Text.quoted s
  | .number n => intText n

/-- At most the first hundred characters of a text, with dots for the others. -/
def clipped (s : String) : String :=
  if s.length ≤ 100 then s else String.ofList (s.toList.take 100) ++ "..."

/-- What is said about a failure.  Settings have no wording of their own: they name the field and
the issue. -/
def Fault.message? : Fault → Option String
  | .mismatch m => some m.message
  | .notInteger s =>
    some ("invalid literal for int() with base 10: " ++
      String.ofList ((Text.quoted s).toList.take 200))
  | .integerDigits count => some (digitLimitText (": value has " ++ Nat.repr count ++ " digits"))
  | .tooManyDigits => some (digitLimitText "")
  | .integerRange n => some (intText n ++ " does not fit in a 64-bit integer")
  | .beyondDoubles => some "int too large to convert to float"
  | .indexOutOfRange => some "list index out of range"
  | .assignmentOutOfRange => some "list assignment index out of range"
  | .indexRange => some "cannot fit 'int' into an index-sized integer"
  | .notLiteral s => some ("Unknown literal: " ++ s.shown)
  | .notKeyword s => some (Text.quoted s ++ " is not a valid DataKeyword")
  | .unknownLevel name => some ("Level '" ++ name ++ "' does not exist")
  | .unknownModuleLevel module level =>
    some ("The filter dict contains a module '" ++ module ++
      "' associated to a level name which does not exist: '" ++ level ++ "'")
  | .unreachable n =>
    some ("Expected code to be unreachable, but got: " ++ clipped (intText n))
  | .settings _ => none
  | .nullCharacter => some "embedded null byte"
  | .variableName => some "illegal environment variable name"
  | .namelessVariable => some "[Errno 22] Invalid argument"
  | .message f => some f.message

/-- A failure whose message names an integer: an integer with too many digits fails first. -/
def Fault.naming (n : Int) (fault : Fault) : Fault :=
  if isWritable n then fault else .tooManyDigits

end LoxValues
