import LoxValues.Binary.Number

/-!
# Values

The values of the language.  A composite value — function, method, class, object, trait or array —
only refers to a *descriptor*, a shared record kept in the heap (`LoxValues.Heap`): copying the
value never copies the record.  Each kind of descriptor has its own kind of reference, so a value
cannot point to a record of the wrong kind.

Payloads are plain: that an integer fits in 64 bits and that a float is a single-precision number
is established where values are made (`LoxValues.Construction`) and kept by every operation.

A float has its number in a *box*, an object of the host that is new when the float is made and that
copies of the float share.  Nothing but equality asks for the box: a number is equal to the very
number in the same box, and so not-a-number to itself, though it differs from every number in
another box.  Boxes are told apart by numbers here, and whoever makes a float names its box.

The last constructor, `Value.foreign`, is none of the language's values: it stands for a number of
the host program that strayed in where a value belongs.
-/

set_option autoImplicit false
namespace LoxValues

/-- The identity of a function descriptor. -/
structure FunctionRef where
  /-- The place in the heap. -/
  index : Nat
  deriving DecidableEq

/-- The identity of a class descriptor. -/
structure ClassRef where
  /-- The place in the heap. -/
  index : Nat
  deriving DecidableEq

/-- The identity of an object descriptor. -/
structure ObjectRef where
  /-- The place in the heap. -/
  index : Nat
  deriving DecidableEq

/-- The identity of a trait descriptor. -/
structure TraitRef where
  /-- The place in the heap. -/
  index : Nat
  deriving DecidableEq

/-- The identity of an array descriptor. -/
structure ArrayRef where
  /-- The place in the heap. -/
  index : Nat
  deriving DecidableEq

/-- The identity of a descriptor of any kind. -/
inductive Descriptor where
  /-- A function. -/
  | function (f : FunctionRef)
  /-- A class. -/
  | cls (c : ClassRef)
  /-- An object. -/
  | object (o : ObjectRef)
  /-- A trait. -/
  | trait (t : TraitRef)
  /-- An array. -/
  | array (a : ArrayRef)
  deriving DecidableEq

/-- A value. -/
inductive Value where
  /-- The nil value. -/
  | nil
  /-- The content of a variable that was declared and not yet assigned. -/
  | uninitialized
  /-- A truth value. -/
  | bool (b : Bool)
  /-- A 64-bit integer. -/
  | int (n : Int)
  /-- A single-precision number, held as a double, and the box that it is in. -/
  | float (x : Double) (box : Nat)
  /-- A text. -/
  | string (s : String)
  /-- A function. -/
  | function (f : FunctionRef)
  /-- A function bound to the object it was looked up on. -/
  | method (f : FunctionRef) (receiver : ObjectRef)
  /-- A class. -/
  | cls (c : ClassRef)
  /-- An object. -/
  | object (o : ObjectRef)
  /-- A trait. -/
  | trait (t : TraitRef)
  /-- An array. -/
  | array (a : ArrayRef)
  /-- A module, by name. -/
  | module (name : String)
  /-- A number of the host program, which is no value of the language. -/
  | foreign (n : Int)
  deriving DecidableEq

namespace Value

/-- Is it an integer or a float? -/
def isNumber : Value → Bool
  | .int _ | .float _ _ => true
  | _ => false

/-- Is it a class? -/
def isClass : Value → Bool
  | .cls _ => true
  | _ => false

/-- Is it a trait? -/
def isTrait : Value → Bool
  | .trait _ => true
  | _ => false

end Value
end LoxValues
