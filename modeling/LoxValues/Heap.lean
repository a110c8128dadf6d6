import LoxValues.Signature
import LoxValues.Table
import LoxValues.Value

/-!
# The heap

Descriptors are the shared, mutable records behind composite values.  The heap keeps the records of
each kind in a list of their own, in order of creation, and a reference is a place in that list.
References may form cycles of any shape.

Reading a place that holds no record gives `none`; writing to one changes nothing.
-/

set_option autoImplicit false
namespace LoxValues

/-! ## Records -/

/-- What a function closes over.  Its meaning belongs to the evaluator; here it only takes part in
comparisons. -/
inductive Closure where
  /-- Nothing. -/
  | none
  /-- An environment that only the evaluator can look into, known by a mark. -/
  | mark (s : String)
  /-- A value. -/
  | value (v : Value)
  deriving DecidableEq

/-- The record of a function. -/
structure FunctionRecord where
  /-- The name. -/
  name : String
  /-- The parameters' names. -/
  params : List String
  /-- The body, which belongs to the evaluator and is known here by a mark. -/
  body : Option String
  /-- What the function closes over. -/
  closure : Closure
  /-- Does the function initialise new objects of its class? -/
  initializer : Bool
  deriving DecidableEq

/-- The record of a class. -/
structure ClassRecord where
  /-- The name. -/
  name : String
  /-- The methods of its objects. -/
  methods : Table FunctionRef
  /-- The methods of the class itself. -/
  statics : Table FunctionRef
  /-- The functions that compute a field. -/
  getters : Table FunctionRef
  /-- The functions that assign a computed field. -/
  setters : Table FunctionRef
  /-- The class it inherits from. -/
  superclass : Option ClassRef
  /-- The traits it claims to provide, by name. -/
  traits : List String
  deriving DecidableEq

/-- The record of an object. -/
structure ObjectRecord where
  /-- The class. -/
  cls : ClassRef
  /-- The fields. -/
  fields : Table Value
  deriving DecidableEq

/-- The record of a trait: signatures only, never state. -/
structure TraitRecord where
  /-- The name. -/
  name : String
  /-- The methods a class has to provide. -/
  methods : List Signature
  /-- The getters a class has to provide. -/
  getters : List Signature
  /-- The setters a class has to provide. -/
  setters : List Signature
  /-- The methods the class itself has to provide. -/
  statics : List Signature
  deriving DecidableEq

/-- The record of an array. -/
structure ArrayRecord where
  /-- The bound given when the array was made.  Keeping to it is up to the owner. -/
  capacity : Int
  /-- The elements. -/
  elements : List Value
  deriving DecidableEq

/-- Is there no room left under the capacity? -/
def ArrayRecord.isFull (a : ArrayRecord) : Bool := decide (a.capacity ≤ a.elements.length)

/-- `<fn name(a, b)>`. -/
def FunctionRecord.text (f : FunctionRecord) : String := "<fn " ++ callText f.name f.params ++ ">"

/-- How many arguments the function takes. -/
def FunctionRecord.arity (f : FunctionRecord) : Nat := f.params.length

/-! ## The heap -/

/-- All descriptors. -/
structure Heap where
  /-- The functions. -/
  functions : List FunctionRecord
  /-- The classes. -/
  classes : List ClassRecord
  /-- The objects. -/
  objects : List ObjectRecord
  /-- The traits. -/
  traits : List TraitRecord
  /-- The arrays. -/
  arrays : List ArrayRecord
  deriving DecidableEq

namespace Heap

/-- The heap without descriptors. -/
def empty : Heap := ⟨[], [], [], [], []⟩

/-- The record of a function. -/
def function? (h : Heap) (f : FunctionRef) : Option FunctionRecord := h.functions[f.index]?

/-- The record of a class. -/
def class? (h : Heap) (c : ClassRef) : Option ClassRecord := h.classes[c.index]?

/-- The record of an object. -/
def object? (h : Heap) (o : ObjectRef) : Option ObjectRecord := h.objects[o.index]?

/-- The record of a trait. -/
def trait? (h : Heap) (t : TraitRef) : Option TraitRecord := h.traits[t.index]?

/-- The record of an array. -/
def array? (h : Heap) (a : ArrayRef) : Option ArrayRecord := h.arrays[a.index]?

/-- The elements of an array. -/
def elements (h : Heap) (a : ArrayRef) : List Value := ((h.array? a).map (·.elements)).getD []

/-- The name of a class. -/
def className (h : Heap) (c : ClassRef) : String := ((h.class? c).map (·.name)).getD ""

/-- The name of an object's class. -/
def classNameOf (h : Heap) (o : ObjectRef) : String :=
  ((h.object? o).map fun r => h.className r.cls).getD ""

/-! ## New descriptors -/

/-- A new function. -/
def newFunction (h : Heap) (r : FunctionRecord) : FunctionRef × Heap :=
  (⟨h.functions.length⟩, { h with functions := h.functions ++ [r] })

/-- A new class. -/
def newClass (h : Heap) (r : ClassRecord) : ClassRef × Heap :=
  (⟨h.classes.length⟩, { h with classes := h.classes ++ [r] })

/-- A new object. -/
def newObject (h : Heap) (r : ObjectRecord) : ObjectRef × Heap :=
  (⟨h.objects.length⟩, { h with objects := h.objects ++ [r] })

/-- A new trait. -/
def newTrait (h : Heap) (r : TraitRecord) : TraitRef × Heap :=
  (⟨h.traits.length⟩, { h with traits := h.traits ++ [r] })

/-- A new array. -/
def newArray (h : Heap) (r : ArrayRecord) : ArrayRef × Heap :=
  (⟨h.arrays.length⟩, { h with arrays := h.arrays ++ [r] })

/-! ## Changes -/

/-- A change to a function. -/
def modifyFunction (h : Heap) (f : FunctionRef) (change : FunctionRecord → FunctionRecord) : Heap :=
  { h with functions := h.functions.modify f.index change }

/-- A change to a class. -/
def modifyClass (h : Heap) (c : ClassRef) (change : ClassRecord → ClassRecord) : Heap :=
  { h with classes := h.classes.modify c.index change }

/-- A change to an object. -/
def modifyObject (h : Heap) (o : ObjectRef) (change : ObjectRecord → ObjectRecord) : Heap :=
  { h with objects := h.objects.modify o.index change }

/-- A change to a trait. -/
def modifyTrait (h : Heap) (t : TraitRef) (change : TraitRecord → TraitRecord) : Heap :=
  { h with traits := h.traits.modify t.index change }

/-- A change to an array. -/
def modifyArray (h : Heap) (a : ArrayRef) (change : ArrayRecord → ArrayRecord) : Heap :=
  { h with arrays := h.arrays.modify a.index change }

/-! ### Records after a change -/

theorem getElem?_modify {α : Type} (records : List α) (change : α → α) (i j : Nat) :
    (records.modify i change)[j]? =
      if j = i then records[j]?.map change else records[j]? := by
  rw [List.getElem?_modify]
  by_cases here : j = i
  · subst here
    simp
  · simp [here, Ne.symm here]

theorem class?_modifyClass (h : Heap) (c : ClassRef) (change : ClassRecord → ClassRecord)
    (d : ClassRef) :
    (h.modifyClass c change).class? d = if d = c then (h.class? d).map change else h.class? d := by
  have same : d = c ↔ d.index = c.index := by cases d; cases c; simp
  simp only [same]
  exact getElem?_modify h.classes change c.index d.index

theorem array?_modifyArray (h : Heap) (a : ArrayRef) (change : ArrayRecord → ArrayRecord)
    (b : ArrayRef) :
    (h.modifyArray a change).array? b = if b = a then (h.array? b).map change else h.array? b := by
  have same : b = a ↔ b.index = a.index := by cases b; cases a; simp
  simp only [same]
  exact getElem?_modify h.arrays change a.index b.index

end Heap
end LoxValues
