import LoxValues.Binary.Number

/-!
# Literals

What a parser hands over for a literal in the source text: numbers, quoted text and the three
keywords that denote a value on their own.  `Literal.stray` is something a caller passed off as a
literal; it has a text, and no value.  The texts are in `LoxValues.Writing`.
-/

set_option autoImplicit false
namespace LoxValues

/-- A keyword that denotes a value. -/
inductive Keyword where
  /-- The keyword of the nil value. -/
  | nil
  /-- The keyword of truth. -/
  | true
  /-- The keyword of falsehood. -/
  | false
  deriving DecidableEq

/-- How a keyword is spelled. -/
def Keyword.text : Keyword → String
  | .nil => "nil"
  | .true => "true"
  | .false => "false"

/-- The keyword with a given spelling. -/
def Keyword.ofText? (s : String) : Option Keyword :=
  [Keyword.nil, Keyword.true, Keyword.false].find? fun k => k.text == s

/-- Something that is no literal. -/
inductive Stray where
  /-- A text. -/
  | text (s : String)
  /-- A number. -/
  | number (n : Int)
  deriving DecidableEq

/-- A literal. -/
inductive Literal where
  /-- A number with a point or an exponent. -/
  | float (x : Double)
  /-- A whole number, of any size. -/
  | int (n : Int)
  /-- A quoted text, without its quotes. -/
  | string (s : String)
  /-- A keyword. -/
  | keyword (k : Keyword)
  /-- Something that is no literal. -/
  | stray (s : Stray)
  deriving DecidableEq

/-- Equality of two literals that were made apart.  Numbers with a point are compared as numbers, so
the two zeros are equal and two not-a-numbers differ; otherwise literals are equal when they are the
same. -/
def Literal.equal : Literal → Literal → Bool
  | .float x, .float y => x.numEq y
  | a, b => a == b

end LoxValues
