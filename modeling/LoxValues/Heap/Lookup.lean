import LoxValues.Heap

/-!
# Looking up methods

A method is looked for in a class, then in its superclass, and so on.  Superclasses may be changed
at any time, so the chain of classes may bite its own tail; a method that no class on such a chain
has is looked for without end.  A walk that has visited as many classes as there are has visited
one twice, and from there on it repeats itself.
-/

set_option autoImplicit false
namespace LoxValues

/-- How looking for a method ends. -/
inductive Lookup where
  /-- A class on the chain has it. -/
  | found (f : FunctionRef)
  /-- The chain ends and no class on it has it. -/
  | absent
  /-- The chain has no end, and no class on it has it. -/
  | endless
  deriving DecidableEq

namespace Heap

/-- The walk along the chain, for at most so many classes. -/
def walk (h : Heap) (name : String) : (classes : Nat) → ClassRef → Lookup
  | 0, _ => .endless
  | classes + 1, c =>
    match h.class? c with
    | none => .absent
    | some r =>
      match r.methods.get? name with
      | some f => .found f
      | none =>
        match r.superclass with
        | none => .absent
        | some d => h.walk name classes d

/-- The method of a class under a name: that of the nearest class on its chain. -/
def findMethod (h : Heap) (c : ClassRef) (name : String) : Lookup :=
  h.walk name (h.classes.length + 1) c

end Heap
end LoxValues
