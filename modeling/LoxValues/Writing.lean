import LoxValues.Fault
import LoxValues.Location

/-!
# Texts with integers

The texts of literals, of places in the source and of errors at such places.  All of them may have
integers of any size in them, and an integer with too many digits is not written: the text that asks
for it fails.  An error is made together with its text, so where its place cannot be written there
is no error of the guest program, but one of the host.
-/

set_option autoImplicit false
namespace LoxValues

/-- The text of an integer that has not too many digits. -/
def writeInteger (n : Int) : Except Fault String :=
  if isWritable n then .ok (intText n) else .error .tooManyDigits

/-- The text of a literal.  Quoted text is put back between quotes as it is. -/
def Literal.text : Literal → Except Fault String
  | .float x => .ok x.text
  | .int n => writeInteger n
  | .string s => .ok ("\"" ++ s ++ "\"")
  | .keyword k => .ok k.text
  | .stray (.text s) => .ok s
  | .stray (.number n) => writeInteger n

/-- `file:line:column`, or the line and column in words where there is no file to name. -/
def Location.text (p : Location) : Except Fault String := do
  let line ← writeInteger p.line
  let column ← writeInteger p.column
  let inWords := "line " ++ line ++ ", column " ++ column
  match p.file with
  | none => return inWords
  | some file => return if file = "" then inWords else file ++ ":" ++ line ++ ":" ++ column

/-- An error of the guest program, with its place in the source. -/
structure ProgramError where
  /-- What went wrong. -/
  message : String
  /-- Where. -/
  location : Location
  /-- The place, and then the message. -/
  text : String
  deriving DecidableEq

/-- The error at a place in the source. -/
def ProgramError.make (message : String) (place : Location) : Except Fault ProgramError := do
  let text ← place.text
  return ⟨message, place, text ++ ": " ++ message⟩

/-- A value of the wrong sort at a place in the source. -/
def TypeMismatch.inProgram (m : TypeMismatch) (place : Location) : Except Fault ProgramError :=
  ProgramError.make m.message place

end LoxValues
