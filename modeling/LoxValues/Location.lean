/-!
# Source locations

A place in a source text.  How it is written in front of an error message is in
`LoxValues.Writing`.
-/

set_option autoImplicit false
namespace LoxValues

/-- A line and a column, and the file if it is known. -/
structure Location where
  /-- The line. -/
  line : Int
  /-- The column. -/
  column : Int
  /-- The file.  An empty name is a name of its own, though it is not written. -/
  file : Option String
  deriving DecidableEq

end LoxValues
