import LoxValues.Fault
import LoxValues.Heap

/-!
# Array elements

An element has two names: its place counted from the start, and its place counted from the end as a
negative number.  An index that names no element is refused, and so is at once one that does not fit
in 64 bits; a refused write changes nothing.
-/

set_option autoImplicit false
namespace LoxValues

/-- The place among `length` elements that an index names. -/
def place? (length : Nat) (index : Int) : Option Nat :=
  let fromStart := if index < 0 then index + length else index
  if 0 ≤ fromStart ∧ fromStart < length then some fromStart.toNat else none

/-- What is wrong with an index that names no element, `ordinary` if it is an ordinary index. -/
def indexFault (ordinary : Fault) (index : Int) : Fault :=
  if -9223372036854775808 ≤ index ∧ index ≤ 9223372036854775807 then ordinary else .indexRange

namespace Heap

/-- The element of an array at an index. -/
def readElement (h : Heap) (a : ArrayRef) (index : Int) : Except Fault Value :=
  match (place? (h.elements a).length index).bind fun i => (h.elements a)[i]? with
  | some v => .ok v
  | none => .error (indexFault .indexOutOfRange index)

/-- The heap with the element of an array at an index overwritten. -/
def writeElement (h : Heap) (a : ArrayRef) (index : Int) (v : Value) : Except Fault Heap :=
  match place? (h.elements a).length index with
  | some i => .ok (h.modifyArray a fun r => { r with elements := r.elements.set i v })
  | none => .error (indexFault .assignmentOutOfRange index)

/-- The heap with an element added at the end of an array.  The capacity is not looked at. -/
def pushElement (h : Heap) (a : ArrayRef) (v : Value) : Heap :=
  h.modifyArray a fun r => { r with elements := r.elements ++ [v] }

/-- The last element of an array. -/
def lastElement? (h : Heap) (a : ArrayRef) : Option Value := (h.elements a).getLast?

/-- The heap with the last element of an array taken away. -/
def dropElement (h : Heap) (a : ArrayRef) : Heap :=
  h.modifyArray a fun r => { r with elements := r.elements.dropLast }

end Heap
end LoxValues
