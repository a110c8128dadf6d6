import LoxValues.Construction
import LoxValues.Heap.Element
import LoxValues.Heap.Equality
import LoxValues.Heap.Lookup
import LoxValues.World.Configuration
import LoxValues.World.Conversion

/-!
# Steps

What a host can ask for, one `Step` at a time: operations on values, changes to descriptors, changes
to the environment, and logging.  `World.perform` carries a step out and gives its answer, or the
fault it failed with, together with the log lines written on the way.  A step that fails still
leaves what it did before failing — records written, settings read, sinks taken away.
-/

set_option autoImplicit false
namespace LoxValues

/-- A record of any kind, for a new descriptor. -/
inductive DescriptorRecord where
  /-- A function. -/
  | function (r : FunctionRecord)
  /-- A class. -/
  | cls (r : ClassRecord)
  /-- An object. -/
  | object (r : ObjectRecord)
  /-- A trait. -/
  | trait (r : TraitRecord)
  /-- An array. -/
  | array (r : ArrayRecord)
  deriving DecidableEq

/-- One of the four tables of a class. -/
inductive MethodTable where
  /-- The methods of its objects. -/
  | methods
  /-- The methods of the class itself. -/
  | statics
  /-- The getters. -/
  | getters
  /-- The setters. -/
  | setters
  deriving DecidableEq

/-- What a host can ask for. -/
inductive Step where
  /-- The text of a value. -/
  | render (v : Value)
  /-- Is a value truthy? -/
  | isTruthy (v : Value)
  /-- The negation of a value as a truth value. -/
  | logicalNot (v : Value)
  /-- Unary minus, with the box for a float that is made. -/
  | negate (v : Value) (box : Nat)
  /-- A number as an integer. -/
  | toInteger (v : Value)
  /-- A number as a float. -/
  | toFloat (v : Value)
  /-- A text as it is. -/
  | toText (v : Value)
  /-- Is a value a number? -/
  | isNumber (v : Value)
  /-- Is a value a class? -/
  | isClass (v : Value)
  /-- Is a value a trait? -/
  | isTrait (v : Value)
  /-- Are two values equal part by part? -/
  | equal (a b : Value)
  /-- Are two values the same? -/
  | same (a b : Value)
  /-- Are two descriptors equal part by part? -/
  | equalDescriptors (d e : Descriptor)
  /-- A new descriptor. -/
  | create (r : DescriptorRecord)
  /-- How many elements an array has. -/
  | arrayLength (a : ArrayRef)
  /-- Has an array reached its capacity? -/
  | arrayFull (a : ArrayRef)
  /-- An element of an array. -/
  | readElement (a : ArrayRef) (index : Int)
  /-- Overwrite an element of an array. -/
  | writeElement (a : ArrayRef) (index : Int) (v : Value)
  /-- Add an element at the end of an array. -/
  | pushElement (a : ArrayRef) (v : Value)
  /-- Take the last element of an array. -/
  | popElement (a : ArrayRef)
  /-- Overwrite the capacity of an array. -/
  | setCapacity (a : ArrayRef) (capacity : Int)
  /-- A field of an object. -/
  | readField (o : ObjectRef) (name : String)
  /-- Write a field of an object. -/
  | writeField (o : ObjectRef) (name : String) (v : Value)
  /-- The name of an object's class. -/
  | className (o : ObjectRef)
  /-- Change the class of an object. -/
  | setClass (o : ObjectRef) (c : ClassRef)
  /-- Change the name of a function, class or trait. -/
  | rename (d : Descriptor) (name : String)
  /-- Change the superclass of a class. -/
  | setSuperclass (c : ClassRef) (superclass : Option ClassRef)
  /-- Write a method of a class. -/
  | setMethod (c : ClassRef) (table : MethodTable) (name : String) (f : FunctionRef)
  /-- Make a function close over a value. -/
  | setClosure (f : FunctionRef) (v : Value)
  /-- Add a parameter to a function. -/
  | pushParam (f : FunctionRef) (name : String)
  /-- Name, arity and text of a function. -/
  | describe (f : FunctionRef)
  /-- Look up a method of a class. -/
  | findMethod (c : ClassRef) (name : String)
  /-- Set or remove a variable of the process. -/
  | setVariable (name : String) (value : Option String)
  /-- Forget the settings that were read. -/
  | clearCache
  /-- The settings that rendering goes by. -/
  | getSettings
  /-- The settings as the environment has them now. -/
  | loadSettings
  /-- Configure the log. -/
  | configure (profile : Profile)
  /-- The configured profile and the number of handlers for the host's records. -/
  | logState
  /-- Set the severity from which on a logger of the host takes records. -/
  | setThreshold (logger : String) (number : Int)
  /-- A record from the host's logging. -/
  | hostRecord (module logger : String) (number : Int) (message : String)
    (arguments : List Argument)

/-- What a step answers. -/
inductive Answer where
  /-- Nothing. -/
  | nothing
  /-- A truth value of the host. -/
  | flag (b : Bool)
  /-- A text of the host. -/
  | text (s : String)
  /-- An integer of the host. -/
  | integer (n : Int)
  /-- A float of the host. -/
  | double (x : Double)
  /-- A count. -/
  | count (n : Nat)
  /-- A value of the language. -/
  | value (v : Value)
  /-- A descriptor. -/
  | descriptor (d : Descriptor)
  /-- A function: where it is, its name, its arity and its text. -/
  | callable (f : FunctionRef) (name : String) (arity : Nat) (text : String)
  /-- Settings. -/
  | settings (s : Settings)
  /-- The configured profile and the number of handlers for the host's records. -/
  | logState (profile : Option Profile) (intercepts : Nat)
  /-- No answer ever: the step does not come to an end. -/
  | endless
  deriving DecidableEq

/-- What comes of a step. -/
structure Outcome where
  /-- The answer, or the fault. -/
  answer : Except Fault Answer
  /-- The log lines written on the way. -/
  lines : List Line

/-- The answer of a comparison. -/
def Answer.ofComparison : Option Bool → Answer
  | some b => .flag b
  | none => .endless

namespace Heap

/-- The heap with a new descriptor. -/
def create (h : Heap) : DescriptorRecord → Descriptor × Heap
  | .function r => let (f, h) := h.newFunction r; (.function f, h)
  | .cls r => let (c, h) := h.newClass r; (.cls c, h)
  | .object r => let (o, h) := h.newObject r; (.object o, h)
  | .trait r => let (t, h) := h.newTrait r; (.trait t, h)
  | .array r => let (a, h) := h.newArray r; (.array a, h)

/-- The heap with a function, class or trait renamed. -/
def rename (h : Heap) (name : String) : Descriptor → Heap
  | .function f => h.modifyFunction f fun r => { r with name := name }
  | .cls c => h.modifyClass c fun r => { r with name := name }
  | .trait t => h.modifyTrait t fun r => { r with name := name }
  | .object _ | .array _ => h

/-- The heap with a method of a class written. -/
def setMethod (h : Heap) (c : ClassRef) (table : MethodTable) (name : String) (f : FunctionRef) :
    Heap :=
  h.modifyClass c fun r =>
    match table with
    | .methods => { r with methods := r.methods.insert name f }
    | .statics => { r with statics := r.statics.insert name f }
    | .getters => { r with getters := r.getters.insert name f }
    | .setters => { r with setters := r.setters.insert name f }

/-- A field of an object. -/
def field? (h : Heap) (o : ObjectRef) (name : String) : Option Value :=
  (h.object? o).bind fun r => r.fields.get? name

/-- The heap with a field of an object written. -/
def writeField (h : Heap) (o : ObjectRef) (name : String) (v : Value) : Heap :=
  h.modifyObject o fun r => { r with fields := r.fields.insert name v }

/-- What there is to say about a function. -/
def describe (h : Heap) (f : FunctionRef) : Answer :=
  match h.function? f with
  | some r => .callable f r.name r.arity r.text
  | none => .nothing

end Heap

namespace World

/-- The world with another heap. -/
def withHeap (w : World) (h : Heap) : World := { w with heap := h }

/-- The answer of a step and the world after it. -/
def step (w : World) : Step → Except Fault Answer × World
  | .render v => let (text, w) := w.render v; (.ok (.text text), w)
  | .isTruthy v => (v.isTruthy.map .flag, w)
  | .logicalNot v => (v.logicalNot.map .value, w)
  | .negate v box => let (r, w) := w.negate v box; (r.map .value, w)
  | .toInteger v => let (r, w) := w.toInteger v; (r.map .integer, w)
  | .toFloat v => let (r, w) := w.toFloat v; (r.map .double, w)
  | .toText v => let (r, w) := w.toText v; (r.map .text, w)
  | .isNumber v => (.ok (.flag v.isNumber), w)
  | .isClass v => (.ok (.flag v.isClass), w)
  | .isTrait v => (.ok (.flag v.isTrait), w)
  | .equal a b => (.ok (.ofComparison (w.heap.equal? a b)), w)
  | .same a b => ((a.isSame b).map .flag, w)
  | .equalDescriptors d e => (.ok (.ofComparison (w.heap.equalDescriptors? d e)), w)
  | .create r => let (d, h) := w.heap.create r; (.ok (.descriptor d), w.withHeap h)
  | .arrayLength a => (.ok (.count (w.heap.elements a).length), w)
  | .arrayFull a => (.ok (.flag (((w.heap.array? a).map (·.isFull)).getD true)), w)
  | .readElement a index => ((w.heap.readElement a index).map .value, w)
  | .writeElement a index v =>
    match w.heap.writeElement a index v with
    | .ok h => (.ok .nothing, w.withHeap h)
    | .error fault => (.error fault, w)
  | .pushElement a v => (.ok .nothing, w.withHeap (w.heap.pushElement a v))
  | .popElement a =>
    match w.heap.lastElement? a with
    | some v => (.ok (.value v), w.withHeap (w.heap.dropElement a))
    | none => (.error .indexOutOfRange, w)
  | .setCapacity a capacity =>
    (.ok .nothing, w.withHeap (w.heap.modifyArray a fun r => { r with capacity := capacity }))
  | .readField o name =>
    match w.heap.field? o name with
    | some v => (.ok (.value v), w)
    | none => (.ok .nothing, w)
  | .writeField o name v => (.ok .nothing, w.withHeap (w.heap.writeField o name v))
  | .className o => (.ok (.text (w.heap.classNameOf o)), w)
  | .setClass o c =>
    (.ok .nothing, w.withHeap (w.heap.modifyObject o fun r => { r with cls := c }))
  | .rename d name => (.ok .nothing, w.withHeap (w.heap.rename name d))
  | .setSuperclass c superclass =>
    (.ok .nothing, w.withHeap (w.heap.modifyClass c fun r => { r with superclass := superclass }))
  | .setMethod c table name f => (.ok .nothing, w.withHeap (w.heap.setMethod c table name f))
  | .setClosure f v =>
    (.ok .nothing, w.withHeap (w.heap.modifyFunction f fun r => { r with closure := .value v }))
  | .pushParam f name =>
    (.ok .nothing,
      w.withHeap (w.heap.modifyFunction f fun r => { r with params := r.params ++ [name] }))
  | .describe f => (.ok (w.heap.describe f), w)
  | .findMethod c name =>
    match w.heap.findMethod c name with
    | .found f => (.ok (w.heap.describe f), w)
    | .absent => (.ok .nothing, w)
    | .endless => (.ok .endless, w)
  | .setVariable name (some value) =>
    match w.setVariable name value with
    | .ok w => (.ok .nothing, w)
    | .error fault => (.error fault, w)
  | .setVariable name none => (.ok .nothing, w.removeVariable name)
  | .clearCache => (.ok .nothing, w.clearCache)
  | .getSettings => let (s, w) := w.getSettings; (.ok (.settings s), w)
  | .loadSettings =>
    match w.loadSettings with
    | (.ok s, w) => (.ok (.settings s), w)
    | (.error issue, w) => (.error (.settings issue), w)
  | .configure profile => let (r, w) := w.configure profile; (r.map fun _ => .nothing, w)
  | .logState => (.ok (.logState w.log.profile w.log.intercepts), w)
  | .setThreshold logger number =>
    (.ok .nothing, { w with log := w.log.setThreshold logger number })
  | .hostRecord module logger number message arguments =>
    let severity := Severity.ofHost number
    let (heard, log) := w.log.askHost logger severity
    let w := { w with log := log }
    if heard then
      match Message.fill message arguments with
      | .ok text => (.ok .nothing, { w with log := log.passOn ⟨severity, module, text⟩ })
      | .error fault => (.error (.message fault), w)
    else (.ok .nothing, w)

/-- What comes of a step, and the world after it. -/
def perform (w : World) (s : Step) : Outcome × World :=
  let (answer, after) := w.step s
  (⟨answer, after.log.written.drop w.log.written.length⟩, after)

end World
end LoxValues
