import LoxValues.Text.Blank

/-!
# References in values

A value of an environment file may refer to other variables: `${NAME}` stands for what the variable
says, and `${NAME:-other}` for `other` where there is no such variable.  Without a text of its own
for that case, a reference to no variable stands for nothing.

A name runs up to the next `}` or `:`.  Text that opens a reference and does not go on in one of
the two forms stays as it is.  What a reference stands for is not looked at again.
-/

set_option autoImplicit false
namespace LoxValues

open Text

/-- A reference to a variable. -/
structure Reference where
  /-- The name of the variable. -/
  name : String
  /-- What the reference stands for where there is no such variable. -/
  fallback : String
  deriving DecidableEq

namespace Reference

/-- The reference in front of a text, if there is one, and what follows it. -/
def read? (cs : List Char) : Option (Reference × List Char) :=
  match cs with
  | '$' :: '\x7b' :: rest =>
    let name := rest.takeWhile fun c => c != '\x7d' && c != ':'
    match rest.drop name.length with
    | '\x7d' :: after => some (⟨String.ofList name, ""⟩, after)
    | ':' :: '-' :: more =>
      (cut? '\x7d' more).map fun (fallback, after) =>
        (⟨String.ofList name, String.ofList fallback⟩, after)
    | _ => none
  | _ => none

/-- What a reference stands for. -/
def value (meaning : String → Option String) (r : Reference) : String :=
  (meaning r.name).getD r.fallback

/-- The text with its references replaced.  Each step takes at least one character, so their number
is bounded. -/
def replaceAll (meaning : String → Option String) : (bound : Nat) → List Char → List Char
  | 0, _ => []
  | _, [] => []
  | bound + 1, c :: rest =>
    match read? (c :: rest) with
    | some (r, after) => (r.value meaning).toList ++ replaceAll meaning bound after
    | none => c :: replaceAll meaning bound rest

end Reference

/-- A value with its references replaced by what the variables say. -/
def expand (meaning : String → Option String) (value : String) : String :=
  String.ofList (Reference.replaceAll meaning value.length value.toList)

end LoxValues
