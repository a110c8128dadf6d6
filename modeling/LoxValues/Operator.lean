import LoxValues.Fault

/-!
# Operators and conversions

What the operators make of a value, and what a value is as a number or a text of the host.  All of
it looks at the value alone and never into the heap.  A conversion that does not apply gives
`none`; the error that follows, and the log record that goes with it, are made in
`LoxValues.World.Conversion`.
-/

set_option autoImplicit false
namespace LoxValues.Value

/-- Nil, uninitialized variables, false and every zero are falsy; all else is truthy, not-a-number
included. -/
def isTruthy : Value → Except Fault Bool
  | .nil | .uninitialized => .ok false
  | .bool b => .ok b
  | .int n => .ok (n != 0)
  | .float x _ => .ok (!x.isZero)
  | .foreign n => .error (.naming n (.unreachable n))
  | _ => .ok true

/-- False for what is truthy and true for what is falsy. -/
def logicalNot (v : Value) : Except Fault Value := v.isTruthy.map fun b => .bool !b

/-- An integer brought into the 64-bit range by a multiple of `2 ^ 64`. -/
def wrap (n : Int) : Int := Int.bmod n 18446744073709551616

/-- Unary minus, which wraps on integers and applies to numbers only.  A float is made in the box that
is given. -/
def negated? (box : Nat) : Value → Option Value
  | .int n => some (.int (wrap (-n)))
  | .float x _ => some (.float x.negate box)
  | _ => none

/-- A number as an integer: fractions are cut off. -/
def toInteger? : Value → Option Int
  | .int n => some n
  | .float x _ => some x.truncate
  | _ => none

/-- A number as a float: integers go to a double and from there to the nearest single-precision
number. -/
def toFloat? : Value → Option Double
  | .float x _ => some x
  | .int n => some (Double.ofInt n).toSingle
  | _ => none

/-- A text as it is. -/
def toText? : Value → Option String
  | .string s => some s
  | _ => none

/-- Equality without looking into descriptors.  Values of different variants differ, and composite
values are equal when they refer to the same descriptors.  Floats are equal when they have the very
same number in the same box, and otherwise compared as numbers. -/
def identical : Value → Value → Bool
  | .float x i, .float y j => (x == y && i == j) || x.numEq y
  | a, b => a == b

theorem identical_float_iff {x y : Double} {i j : Nat} :
    (float x i).identical (float y j) = true ↔ (x = y ∧ i = j) ∨ x.numEq y = true := by
  simp [identical]

/-- The identity comparison of the language, which the first operand decides to take part in. -/
def isSame (a b : Value) : Except Fault Bool :=
  match a with
  | .foreign n => .error (.naming n (.unreachable n))
  | _ => .ok (a.identical b)

end LoxValues.Value
