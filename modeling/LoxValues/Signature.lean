import LoxValues.Location

/-!
# Signatures

The name and the parameters of a function without its body.  A trait is made of these: they list
what a class has to provide.
-/

set_option autoImplicit false
namespace LoxValues

/-- A name with its parameters between parentheses. -/
def callText (name : String) (params : List String) : String :=
  name ++ "(" ++ ", ".intercalate params ++ ")"

/-- A function's name and parameters, and where it was declared. -/
structure Signature where
  /-- The function's name. -/
  name : String
  /-- The parameters' names. -/
  params : List String
  /-- The declaration.  Two signatures declared in different places differ. -/
  location : Option Location
  deriving DecidableEq

namespace Signature

/-- How many arguments the function takes. -/
def arity (s : Signature) : Nat := s.params.length

/-- `name(a, b)`. -/
def text (s : Signature) : String := callText s.name s.params

end Signature
end LoxValues
