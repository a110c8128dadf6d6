import LoxValues.Text.CaseMap
import LoxValues.Text.Unprintable

/-!
# Quoted text

Text shown to a reader between quotes: single quotes, or double quotes where the text holds a
single quote and no double one.  The quote in use and the backslash are escaped, tabs and line ends
have short escapes, and other characters that cannot be shown are written by their code point in
two, four or eight hexadecimal digits.  In plain quotes, so is every character beyond ASCII.
-/

set_option autoImplicit false
namespace LoxValues.Text

/-- A number in hexadecimal digits, filled up to a width. -/
def hexDigits (width n : Nat) : List Char :=
  let digits := Nat.toDigits 16 n
  List.replicate (width - digits.length) '0' ++ digits

/-- A character written by its code point. -/
def codePoint (c : Char) : List Char :=
  if c.toNat < 0x100 then '\\' :: 'x' :: hexDigits 2 c.toNat
  else if c.toNat < 0x10000 then '\\' :: 'u' :: hexDigits 4 c.toNat
  else '\\' :: 'U' :: hexDigits 8 c.toNat

/-- A character between quotes. -/
def quotedChar (quote c : Char) : List Char :=
  if c = quote ∨ c = '\\' then ['\\', c]
  else if c = '\t' then ['\\', 't']
  else if c = '\n' then ['\\', 'n']
  else if c = '\r' then ['\\', 'r']
  else if inRuns unprintable c then codePoint c
  else [c]

/-- A text between quotes. -/
def quoted (s : String) : String :=
  let cs := s.toList
  let quote := if '\'' ∈ cs ∧ '"' ∉ cs then '"' else '\''
  String.ofList (quote :: cs.flatMap (quotedChar quote) ++ [quote])

/-- A text between quotes, in ASCII alone. -/
def plainQuoted (s : String) : String :=
  String.ofList ((quoted s).toList.flatMap fun c => if c.toNat < 0x80 then [c] else codePoint c)

end LoxValues.Text
