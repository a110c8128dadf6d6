import LoxValues.Operator
import LoxValues.World.Rendering

/-!
# Conversions that may fail

A conversion that does not apply leaves a record with the text of the value it was given and fails
with that value.  A conversion that applies leaves no record.
-/

set_option autoImplicit false
namespace LoxValues

/-- The module that a failing operation's record comes from. -/
def Expectation.module : Expectation → String
  | .number => "loxrt.eval.operators"
  | _ => "loxrt.eval.coerce"

/-- What the record of a failing operation says in front of the value. -/
def Expectation.complaint : Expectation → String
  | .double => "coerce.fail kind=double value="
  | .integer => "coerce.fail kind=integer value="
  | .number => "negate.fail value="
  | .string => "coerce.fail kind=string value="

namespace World

/-- The record of a value that an operation refuses. -/
def complain (expected : Expectation) (v : Value) (w : World) : World :=
  w.tell .debug expected.module fun w =>
    let (text, w) := w.render v
    (expected.complaint ++ text, w)

/-- The result of a conversion, or else its record and its error. -/
def expect {α : Type} (expected : Expectation) (v : Value) (result : Option α) (w : World) :
    Except Fault α × World :=
  match result with
  | some r => (.ok r, w)
  | none => (.error (.mismatch ⟨expected, some v⟩), w.complain expected v)

/-- A number as an integer. -/
def toInteger (v : Value) (w : World) : Except Fault Int × World :=
  w.expect .integer v v.toInteger?

/-- A number as a float. -/
def toFloat (v : Value) (w : World) : Except Fault Double × World :=
  w.expect .double v v.toFloat?

/-- A text as it is. -/
def toText (v : Value) (w : World) : Except Fault String × World :=
  w.expect .string v v.toText?

/-- Unary minus, where a float is made in the box that is given. -/
def negate (v : Value) (box : Nat) (w : World) : Except Fault Value × World :=
  w.expect .number v (v.negated? box)

end World
end LoxValues
