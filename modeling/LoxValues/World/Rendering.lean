import LoxValues.World

/-!
# Rendering

The text that printing shows for a value.  Every value but an array has a text of its own that does
not look into its parts.  An array shows its elements between brackets, and `[...]` instead of them
where it is being rendered already or where too many arrays are.

The world keeps the list of arrays being rendered, which an array joins while its elements are
rendered and leaves again.  Being on the list is asked first; only an array that is not on it reads
the settings for the bound.

Each level of rendering takes some calls of the host, so the bound is also held to a share of the
calls that may nest.  `World.renderWithin` counts down how much deeper rendering may go.  The count
starts above the greatest bound there is, so the list always reaches its bound before the count
reaches zero.
-/

set_option autoImplicit false
namespace LoxValues

/-- What stands for an array whose elements are not shown. -/
def ellipsis : String := "[...]"

/-- The text of a value other than an array. -/
def Heap.text (h : Heap) : Value → String
  | .nil => "Nil"
  | .uninitialized => "Uninitialized"
  | .bool true => "true"
  | .bool false => "false"
  | .int n => intText n
  | .float x _ => x.singleText
  | .string s => s
  | .function f => ((h.function? f).map FunctionRecord.text).getD ""
  | .method f o =>
    "<method " ++ ((h.function? f).map (·.name)).getD "" ++ " of " ++ h.classNameOf o ++ ">"
  | .cls c => h.className c
  | .object o => h.classNameOf o ++ " instance"
  | .trait t => ((h.trait? t).map (·.name)).getD ""
  | .array _ => ellipsis
  | .module _ => "[Module]"
  | .foreign n => intText n

/-- The texts of the elements, between brackets. -/
def bracketed (texts : List String) : String := "[" ++ ", ".intercalate texts ++ "]"

namespace World

/-- No setting lets more arrays than this be rendered inside one another. -/
def deepestRendering (w : World) : Nat := w.callLimit / 8

/-- How many arrays may be rendered inside one another. -/
def renderBound (w : World) : Nat × World :=
  let (s, w) := w.getSettings
  (min s.maxRenderDepth w.deepestRendering, w)

/-- Several values, rendered one after the other. -/
def renderAll (render : Value → World → String × World) : List Value → World → List String × World
  | [], w => ([], w)
  | v :: vs, w =>
    let (text, w) := render v w
    let (texts, w) := renderAll render vs w
    (text :: texts, w)

/-- A record of rendering, with the number of arrays that are being rendered. -/
def noteRendering (what : String) (w : World) : World :=
  w.note .debug "loxrt.eval.value" (what ++ " depth=" ++ Nat.repr w.rendering.length)

/-- An array, where `render` renders its elements. -/
def renderArray (render : Value → World → String × World) (a : ArrayRef) (w : World) :
    String × World :=
  if a ∈ w.rendering then (ellipsis, w.noteRendering "render.cycle")
  else
    let (bound, w) := w.renderBound
    if bound ≤ w.rendering.length then (ellipsis, w.noteRendering "render.truncate")
    else
      let entered := { w with rendering := w.rendering ++ [a] }
      let (texts, w) := renderAll render (w.heap.elements a) entered
      (bracketed texts, { w with rendering := w.rendering.dropLast })

/-- A value, where arrays may nest so many levels deeper. -/
def renderWithin : (levels : Nat) → Value → World → String × World
  | levels + 1, .array a, w => renderArray (renderWithin levels) a w
  | _, v, w => (w.heap.text v, w)

/-- The text of a value. -/
def render (v : Value) (w : World) : String × World := renderWithin (w.deepestRendering + 1) v w

end World
end LoxValues
