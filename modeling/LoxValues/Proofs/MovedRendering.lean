import LoxValues.Proofs.Layers
import LoxValues.Proofs.Moving

/-!
# Rendering at other places

A value is rendered from its unfolding, and an array is known there by its place only: it is cut off
where its place is on the path.  So the text of a value is the same when all that it shows is at other
places, as long as no two arrays come to the same place.

## What is here

* `Heap.Meets` — the values that come up when a value is unfolded, on whatever path.
* `Heap.unfolding_moved` — a moved value has the same pieces.  Only the elements of the arrays met and
  the texts of the values met have to agree.
* `World.moved` — a world with its descriptors at other places, those being rendered among them.
* `World.render_moved` — rendering a moved value in the moved world gives the same text, and the moved
  world with the same records.
-/

set_option autoImplicit false
namespace LoxValues

variable {g h : Heap} {φ : Renaming}

/-! ## Pieces of moved values -/

namespace Heap

/-- A value comes up when another one is unfolded: it is that value, or an element of an array met. -/
def Meets (h : Heap) (v u : Value) : Prop := u = v ∨ ∃ a, h.Contains v a ∧ u ∈ h.elements a

theorem meets_self (v : Value) : h.Meets v v := .inl rfl

theorem Meets.of_element {a : ArrayRef} {v u : Value} (mem : v ∈ h.elements a)
    (met : h.Meets v u) : h.Meets (.array a) u := by
  rcases met with rfl | ⟨b, contained, element⟩
  · exact .inr ⟨a, contains_self a, mem⟩
  · exact .inr ⟨b, contained.of_element mem, element⟩

/-- **A moved value has the same pieces** along the moved path, if the arrays met have the same elements
at their new places and the values met have the same texts. -/
theorem unfolding_moved (injective : Function.Injective φ.array) {bound : Nat} {path : List ArrayRef}
    {v : Value}
    (elements : ∀ a, g.Contains v a → h.elements (φ.array a) = (g.elements a).map (Value.rename φ))
    (texts : ∀ u, g.Meets v u → h.text (u.rename φ) = g.text u) :
    h.unfolding bound (path.map φ.array) (v.rename φ) = g.unfolding bound path v := by
  induction path, v using Heap.unfolding.induct bound with
  | case1 path a onPath =>
    have onPath' : φ.array a ∈ path.map φ.array := List.mem_map_of_mem onPath
    rw [Value.rename, unfolding, if_pos onPath', unfolding, if_pos onPath, List.length_map]
  | case2 path a offPath full =>
    have offPath' : φ.array a ∉ path.map φ.array := by rwa [List.mem_map_of_injective injective]
    have full' : bound ≤ (path.map φ.array).length := by rwa [List.length_map]
    rw [Value.rename, unfolding, if_neg offPath', if_pos full', unfolding, if_neg offPath,
      if_pos full, List.length_map]
  | case3 path a offPath room ih =>
    have offPath' : φ.array a ∉ path.map φ.array := by rwa [List.mem_map_of_injective injective]
    have room' : ¬ bound ≤ (path.map φ.array).length := by rwa [List.length_map]
    rw [Value.rename, unfolding, if_neg offPath', if_neg room', unfolding, if_neg offPath,
      if_neg room, elements a (contains_self a), List.map_map]
    refine congrArg Piece.bracket (List.map_congr_left fun v mem => ?_)
    have inner := ih v (fun b contained => elements b (contained.of_element mem))
      fun u met => texts u (met.of_element mem)
    rwa [List.map_append, List.map_singleton] at inner
  | case4 path v other =>
    have other' : ∀ a, v.rename φ ≠ .array a := by
      intro a same
      cases v with
      | array b => exact other b rfl
      | _ => cases same
    rw [unfolding_of_ne_array other, unfolding_of_ne_array other', texts v (meets_self v)]

/-! ## Texts of moved values -/

theorem elements_moved {a : ArrayRef} (moved : g.MovedTo φ h (.array a)) :
    h.elements (φ.array a) = (g.elements a).map (Value.rename φ) := by
  have here : h.array? (φ.array a) = (g.array? a).map (ArrayRecord.rename φ) := moved
  rw [elements, elements, here]
  cases g.array? a <;> rfl

theorem className_moved {c : ClassRef} (moved : g.MovedTo φ h (.cls c)) :
    h.className (φ.cls c) = g.className c := by
  have here : h.class? (φ.cls c) = (g.class? c).map (ClassRecord.rename φ) := moved
  rw [className, className, here]
  cases g.class? c <;> rfl

theorem classNameOf_moved (moved : ∀ x, g.MovedTo φ h x) (o : ObjectRef) :
    h.classNameOf (φ.object o) = g.classNameOf o := by
  have here : h.object? (φ.object o) = (g.object? o).map (ObjectRecord.rename φ) :=
    moved (.object o)
  rw [classNameOf, classNameOf, here]
  cases g.object? o with
  | none => rfl
  | some r => exact className_moved (moved (.cls r.cls))

/-- The text of a value on its own says nothing about places. -/
theorem text_moved (moved : ∀ x, g.MovedTo φ h x) (v : Value) : h.text (v.rename φ) = g.text v := by
  have functions (f : FunctionRef) :
      h.function? (φ.function f) = (g.function? f).map (FunctionRecord.rename φ) :=
    moved (.function f)
  cases v with
  | function f =>
    rw [Value.rename, text, text, functions, Option.map_map]
    rfl
  | method f o =>
    rw [Value.rename, text, text, functions, Option.map_map, classNameOf_moved moved]
    rfl
  | cls c => exact className_moved (moved (.cls c))
  | object o => rw [Value.rename, text, text, classNameOf_moved moved]
  | trait t =>
    have here : h.trait? (φ.trait t) = g.trait? t := moved (.trait t)
    rw [Value.rename, text, text, here]
  | bool b => cases b <;> rfl
  | _ => rfl

end Heap

/-! ## Moved worlds -/

namespace World

/-- The world with its descriptors at other places, where they make up another heap. -/
def moved (φ : Renaming) (h : Heap) (w : World) : World :=
  { w with heap := h, rendering := w.rendering.map φ.array }

theorem moved_note (w : World) (severity : Severity) (module message : String) :
    (w.moved φ h).note severity module message = (w.note severity module message).moved φ h := by
  rw [note_eq, note_eq]
  rfl

theorem getSettings_moved (w : World) :
    (w.moved φ h).getSettings = (w.getSettings.1, w.getSettings.2.moved φ h) := by
  cases cached : w.cache with
  | some s =>
    have cached' : (w.moved φ h).cache = some s := cached
    rw [getSettings_of_cached cached, getSettings_of_cached cached']
  | none =>
    have cached' : (w.moved φ h).cache = none := cached
    have read : (w.moved φ h).loadSettings = (w.loadSettings.1, w.loadSettings.2.moved φ h) := rfl
    rw [getSettings, getSettings, cached, cached', read]
    cases w.loadSettings with
    | mk loaded after =>
      cases loaded with
      | ok s => rfl
      | error issue =>
        dsimp only
        rw [moved_note]
        rfl

theorem depthLimit_moved (w : World) : (w.moved φ h).depthLimit = w.depthLimit := by
  rw [depthLimit, getSettings_moved, depthLimit]
  rfl

theorem prepared_moved (injective : Function.Injective φ.array) (w : World) (v : Value) :
    (w.moved φ h).prepared (v.rename φ) = (w.prepared v).moved φ h := by
  cases v with
  | array a =>
    have onPath : φ.array a ∈ (w.moved φ h).rendering ↔ a ∈ w.rendering :=
      List.mem_map_of_injective injective
    rw [Value.rename, prepared, prepared, getSettings_moved]
    simp only [onPath, apply_ite (World.moved φ h)]
  | _ => rfl

/-- **Rendering a moved value** in the moved world gives the text of the value and leaves its records, if
the arrays that the value contains have the same elements at their new places and the values met
have the same texts. -/
theorem render_moved (injective : Function.Injective φ.array) {w : World} {v : Value}
    (elements : ∀ a, w.heap.Contains v a →
      h.elements (φ.array a) = (w.heap.elements a).map (Value.rename φ))
    (texts : ∀ u, w.heap.Meets v u → h.text (u.rename φ) = w.heap.text u) :
    (w.moved φ h).render (v.rename φ) = ((w.render v).1, (w.render v).2.moved φ h) := by
  have pieces : h.unfolding w.depthLimit (w.rendering.map φ.array) (v.rename φ) =
      w.heap.unfolding w.depthLimit w.rendering v :=
    Heap.unfolding_moved injective elements texts
  rw [render_eq, render_eq, depthLimit_moved, prepared_moved injective]
  show (Piece.textOf (h.unfolding w.depthLimit (w.rendering.map φ.array) (v.rename φ)),
    ((w.prepared v).moved φ h).record
      (h.unfolding w.depthLimit (w.rendering.map φ.array) (v.rename φ))) = _
  rw [pieces]
  rfl

end World
end LoxValues
