import LoxValues.Heap
import LoxValues.Operator

/-!
# Structural equality

Two values are compared part by part, down through their descriptors.  Descriptors may form cycles,
so the comparison keeps a list of the pairs it is *in the middle of*: an array or an object met
again in the same pairing counts as equal, because the comparison further out will find the
difference if there is one.  Only pairs in progress count.  A finished pair is taken off the list
and would be compared anew.  Functions, classes and traits are not put on the list, and a cycle
through these alone makes the comparison run forever.

Not-a-number differs from every float but those that share its box: a float that is copied, or kept
by two descriptors at once, is equal to itself wherever it is met, and a float that is made anew from
the same payload is not.

## What is here

* `Goal` — one thing to be checked: a fact about names and numbers, or a pair of descriptors.
* `Heap.parts` — the goals that a pair of descriptors consists of, **in the order in which they are
  checked**.  The first that fails ends the comparison.
* `Heap.compare` — the comparison proper.  It takes the list of pairs in progress and returns it,
  and it works to a bound on how deep the pairs may nest.
* `Heap.equal?` — the comparison of two values under a bound deep enough that running into it means
  running forever: on the way down no pair of arrays or objects comes twice, and between two of
  these a pair of functions or classes that comes twice comes for ever.
-/

set_option autoImplicit false
namespace LoxValues

/-- Something to be checked in a comparison. -/
inductive Goal where
  /-- A fact that needs no descriptor. -/
  | check (holds : Bool)
  /-- Two functions are equal. -/
  | functions (f g : FunctionRef)
  /-- Two classes are equal. -/
  | classes (c d : ClassRef)
  /-- Two objects are equal. -/
  | objects (o p : ObjectRef)
  /-- Two traits are equal. -/
  | traits (s t : TraitRef)
  /-- Two arrays are equal. -/
  | arrays (a b : ArrayRef)
  deriving DecidableEq

namespace Goal

/-- Does the goal ask whether a descriptor is equal to itself? -/
def isReflexive : Goal → Bool
  | .check _ => false
  | .functions f g => f == g
  | .classes c d => c == d
  | .objects o p => o == p
  | .traits s t => s == t
  | .arrays a b => a == b

/-- Is the goal remembered while it is in progress? -/
def isGuarded : Goal → Bool
  | .objects _ _ | .arrays _ _ => true
  | _ => false

end Goal

namespace Value

/-- What has to hold for two values to be equal. -/
def goals : Value → Value → List Goal
  | .function f, .function g => [.functions f g]
  | .method f o, .method g p => [.functions f g, .objects o p]
  | .cls c, .cls d => [.classes c d]
  | .object o, .object p => [.objects o p]
  | .trait s, .trait t => [.traits s t]
  | .array a, .array b => [.arrays a b]
  | v, w => [.check (v.identical w)]

end Value

/-- What has to hold for two closures to be equal. -/
def Closure.goals : Closure → Closure → List Goal
  | .value v, .value w => v.goals w
  | c, d => [.check (c == d)]

/-- What has to hold for two lists of values to be equal. -/
def elementGoals (vs ws : List Value) : List Goal :=
  .check (vs.length == ws.length) :: (vs.zip ws).flatMap fun (v, w) => v.goals w

/-- What has to hold for two tables to be equal: as many names, and under each name of the first
something equal in the second.  The order of the names does not count. -/
def Table.goals {α : Type} (entryGoals : α → α → List Goal) (s t : Table α) : List Goal :=
  .check (s.size == t.size) :: s.entries.flatMap fun (name, x) =>
    match t.get? name with
    | some y => entryGoals x y
    | none => [.check false]

/-- What has to hold for two superclasses to be equal. -/
def superclassGoals : Option ClassRef → Option ClassRef → List Goal
  | some c, some d => [.classes c d]
  | c, d => [.check (c == d)]

/-- What has to hold for two method tables to be equal. -/
def methodGoals (s t : Table FunctionRef) : List Goal :=
  s.goals (fun f g => [.functions f g]) t

/-- The parts of two functions. -/
def FunctionRecord.goals (f g : FunctionRecord) : List Goal :=
  [.check (f.name == g.name), .check (f.params == g.params), .check (f.body == g.body)] ++
    f.closure.goals g.closure ++ [.check (f.initializer == g.initializer)]

/-- The parts of two classes. -/
def ClassRecord.goals (c d : ClassRecord) : List Goal :=
  .check (c.name == d.name) :: methodGoals c.methods d.methods ++ methodGoals c.statics d.statics ++
    methodGoals c.getters d.getters ++ methodGoals c.setters d.setters ++
    superclassGoals c.superclass d.superclass ++ [.check (c.traits == d.traits)]

/-- The parts of two objects. -/
def ObjectRecord.goals (o p : ObjectRecord) : List Goal :=
  .classes o.cls p.cls :: o.fields.goals Value.goals p.fields

/-- The parts of two arrays. -/
def ArrayRecord.goals (a b : ArrayRecord) : List Goal :=
  .check (a.capacity == b.capacity) :: elementGoals a.elements b.elements

namespace Heap

/-- The parts of two records, where both are there. -/
def partsOf {α : Type} (recordGoals : α → α → List Goal) (r s : Option α) : List Goal :=
  match r, s with
  | some r, some s => recordGoals r s
  | _, _ => [.check false]

/-- What a goal consists of, in the order of checking. -/
def parts (h : Heap) : Goal → List Goal
  | .check holds => [.check holds]
  | .functions f g => partsOf FunctionRecord.goals (h.function? f) (h.function? g)
  | .classes c d => partsOf ClassRecord.goals (h.class? c) (h.class? d)
  | .objects o p => partsOf ObjectRecord.goals (h.object? o) (h.object? p)
  | .traits s t => partsOf (fun r s => [.check (r == s)]) (h.trait? s) (h.trait? t)
  | .arrays a b => partsOf ArrayRecord.goals (h.array? a) (h.array? b)

/-- The pairs of arrays and of objects that a comparison is in the middle of, the latest first. -/
abbrev Pending := List Goal

/-- Goals one after the other, up to the first that fails. -/
def compareAll (compare : Goal → Pending → Option (Bool × Pending)) :
    List Goal → Pending → Option (Bool × Pending)
  | [], pending => some (true, pending)
  | goal :: goals, pending =>
    match compare goal pending with
    | none => none
    | some (false, pending) => some (false, pending)
    | some (true, pending) => compareAll compare goals pending

/-- One goal, with the pairs in progress before and after; `none` where the pairs nest deeper than
the bound. -/
def compare (h : Heap) : (bound : Nat) → Goal → Pending → Option (Bool × Pending)
  | _, .check holds, pending => some (holds, pending)
  | 0, _, _ => none
  | bound + 1, goal, pending =>
    if goal.isReflexive then some (true, pending)
    else if goal.isGuarded then
      if goal ∈ pending then some (true, pending)
      else
        (compareAll (h.compare bound) (h.parts goal) (goal :: pending)).map fun (holds, pending) =>
          (holds, pending.erase goal)
    else compareAll (h.compare bound) (h.parts goal) pending

/-- How deep the pairs of a comparison that comes to an end can nest. -/
def depthBound (h : Heap) : Nat :=
  (h.arrays.length * h.arrays.length + h.objects.length * h.objects.length + 1) *
    (h.functions.length * h.functions.length + h.classes.length * h.classes.length + 1) + 1

/-- Goals one after the other, with nothing in progress before; `none` for a comparison that never
ends. -/
def decide? (h : Heap) (goals : List Goal) : Option Bool :=
  (compareAll (h.compare h.depthBound) goals []).map Prod.fst

/-- Are two values equal?  `none` where the comparison never ends. -/
def equal? (h : Heap) (a b : Value) : Option Bool := h.decide? (a.goals b)

/-- Are two descriptors equal?  Those of different kinds are not. -/
def equalDescriptors? (h : Heap) : Descriptor → Descriptor → Option Bool
  | .function f, .function g => h.decide? [.functions f g]
  | .cls c, .cls d => h.decide? [.classes c d]
  | .object o, .object p => h.decide? [.objects o p]
  | .trait s, .trait t => h.decide? [.traits s t]
  | .array a, .array b => h.decide? [.arrays a b]
  | _, _ => some false

end Heap
end LoxValues
