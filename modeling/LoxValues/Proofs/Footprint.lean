import LoxValues.Proofs.MovedRendering
import LoxValues.World.Step

/-!
# What rendering and comparing look at

Rendering looks at the elements of the arrays that it opens and at the names of everything else that
comes up; comparing looks at whole records, of all that the two values refer to.  Heaps that agree on
what is looked at give the same results, whatever else is different.

## What is here

* `World.RendersIn` — a value is rendered with another heap as it is with the world's own.
* `World.rendersIn_of_agree` — it is enough to agree on elements and names, as far as rendering goes.
* `World.rendersIn_of_sameNames` — in particular, what rendering never looks at may be changed
  anywhere.
* `Heap.SameRecord`, `Heap.equal?_congr` — comparing, for heaps that agree on all that is reached.
* `World.footprint` — all of this together.

Nothing moves from one place to another here, which is a move like others (`Renaming.stay`).
-/

set_option autoImplicit false
namespace LoxValues

/-! ## Nothing moves -/

section Stay

theorem Value.rename_stay (v : Value) : v.rename .stay = v := by
  cases v <;> rfl

theorem Closure.rename_stay (c : Closure) : c.rename .stay = c := by
  cases c with
  | value v => exact congrArg Closure.value v.rename_stay
  | _ => rfl

theorem Value.map_rename_stay (vs : List Value) : vs.map (Value.rename .stay) = vs := by
  rw [funext Value.rename_stay, List.map_id']

theorem Table.map_id {α : Type} (t : Table α) : t.map id = t := by
  have same : (t.map id).entries = t.entries := List.map_id t.entries
  generalize t.map id = s at same
  cases s
  cases t
  cases same
  rfl

theorem FunctionRecord.rename_stay (r : FunctionRecord) : r.rename .stay = r := by
  rw [rename, Closure.rename_stay]

theorem ClassRecord.rename_stay (r : ClassRecord) : r.rename .stay = r := by
  simp only [rename, Renaming.stay, Table.map_id, Option.map_id_fun, id_eq]

theorem ObjectRecord.rename_stay (r : ObjectRecord) : r.rename .stay = r := by
  have fields : r.fields.map (Value.rename .stay) = r.fields := by
    rw [show Value.rename .stay = id from funext Value.rename_stay, Table.map_id]
  rw [rename, fields]
  rfl

theorem ArrayRecord.rename_stay (r : ArrayRecord) : r.rename .stay = r := by
  rw [rename, Value.map_rename_stay]

end Stay

/-! ## Rendering -/

namespace World

variable {w : World} {h : Heap}

theorem moved_stay (h : Heap) (w : World) : w.moved .stay h = w.withHeap h :=
  congrArg (fun arrays => { w with heap := h, rendering := arrays }) (List.map_id w.rendering)

/-- A value gives the same text and leaves the same records with another heap. -/
def RendersIn (w : World) (h : Heap) (v : Value) : Prop :=
  (w.withHeap h).render v = ((w.render v).1, (w.render v).2.withHeap h)

/-- **Rendering looks at nothing else** than the elements of the arrays that a value contains and what
the texts of the values met say. -/
theorem rendersIn_of_agree {v : Value}
    (elements : ∀ a, w.heap.Contains v a → w.heap.elements a = h.elements a)
    (labels : ∀ u, w.heap.Meets v u → w.heap.SameLabels h u) : w.RendersIn h v := by
  have elements' (a : ArrayRef) (contained : w.heap.Contains v a) :
      h.elements (Renaming.stay.array a) = (w.heap.elements a).map (Value.rename .stay) := by
    rw [Value.map_rename_stay, elements a contained]
    rfl
  have texts (u : Value) (met : w.heap.Meets v u) : h.text (u.rename .stay) = w.heap.text u := by
    rw [Value.rename_stay, Heap.text_eq_of_sameLabels (labels u met)]
  have rendered := render_moved Renaming.stay_injective.array elements' texts
  rwa [Value.rename_stay, moved_stay, moved_stay] at rendered

theorem rendersIn_of_sameNames (names : w.heap.SameNames h)
    (elements : ∀ a, w.heap.elements a = h.elements a) (v : Value) : w.RendersIn h v :=
  rendersIn_of_agree (fun a _ => elements a) fun u _ => names.sameLabels u

end World

/-! ### Changes that rendering does not look at -/

theorem map_getElem?_modify {α β : Type} {seen : α → β} {change : α → α}
    (keeps : ∀ r, seen (change r) = seen r) (records : List α) (i j : Nat) :
    (records[j]?).map seen = ((records.modify i change)[j]?).map seen := by
  rw [Heap.getElem?_modify]
  split
  · rw [Option.map_map, show seen ∘ change = seen from funext keeps]
  · rfl

namespace Heap

variable {h : Heap}

theorem sameNames_modifyFunction (f : FunctionRef) {change : FunctionRecord → FunctionRecord}
    (keeps : ∀ r, (change r).name = r.name ∧ (change r).params = r.params) :
    h.SameNames (h.modifyFunction f change) where
  functions g := map_getElem?_modify (fun r => Prod.ext (keeps r).1 (keeps r).2) h.functions _ g.index
  classes _ := rfl
  objects _ := rfl
  traits _ := rfl

theorem sameNames_modifyClass (c : ClassRef) {change : ClassRecord → ClassRecord}
    (keeps : ∀ r, (change r).name = r.name) : h.SameNames (h.modifyClass c change) where
  functions _ := rfl
  classes d := map_getElem?_modify keeps h.classes _ d.index
  objects _ := rfl
  traits _ := rfl

theorem sameNames_modifyObject (o : ObjectRef) {change : ObjectRecord → ObjectRecord}
    (keeps : ∀ r, (change r).cls = r.cls) : h.SameNames (h.modifyObject o change) where
  functions _ := rfl
  classes _ := rfl
  objects p := map_getElem?_modify keeps h.objects _ p.index
  traits _ := rfl

theorem sameNames_modifyTrait (t : TraitRef) {change : TraitRecord → TraitRecord}
    (keeps : ∀ r, (change r).name = r.name) : h.SameNames (h.modifyTrait t change) where
  functions _ := rfl
  classes _ := rfl
  objects _ := rfl
  traits s := map_getElem?_modify keeps h.traits _ s.index

theorem sameNames_modifyArray (a : ArrayRef) (change : ArrayRecord → ArrayRecord) :
    h.SameNames (h.modifyArray a change) where
  functions _ := rfl
  classes _ := rfl
  objects _ := rfl
  traits _ := rfl

theorem elements_modifyArray (a : ArrayRef) {change : ArrayRecord → ArrayRecord}
    (keeps : ∀ r, (change r).elements = r.elements) (b : ArrayRef) :
    h.elements b = (h.modifyArray a change).elements b :=
  congrArg (Option.getD · []) (map_getElem?_modify keeps h.arrays a.index b.index)

/-! ## Comparing -/

/-- Two heaps have the same record of a descriptor, or both have none. -/
def SameRecord (g h : Heap) : Descriptor → Prop
  | .function f => g.function? f = h.function? f
  | .cls c => g.class? c = h.class? c
  | .object o => g.object? o = h.object? o
  | .trait t => g.trait? t = h.trait? t
  | .array a => g.array? a = h.array? a

variable {g : Heap}

theorem SameRecord.movedTo_stay {x : Descriptor} (same : g.SameRecord h x) :
    g.MovedTo .stay h x := by
  -- a record with its references where they are is the record
  have unchanged {α : Type} {rename : α → α} (stays : ∀ r, rename r = r) {r s : Option α}
      (same : r = s) : s = r.map rename := by
    rw [funext stays, Option.map_id', same]
  cases x with
  | function f => exact unchanged FunctionRecord.rename_stay same
  | cls c => exact unchanged ClassRecord.rename_stay same
  | object o => exact unchanged ObjectRecord.rename_stay same
  | trait t => exact Eq.symm same
  | array a => exact unchanged ArrayRecord.rename_stay same

/-- **Comparing looks at nothing else** than the records of what the two values refer to. -/
theorem equal?_congr {a b : Value}
    (same : ∀ x, g.Reaches a x ∨ g.Reaches b x → g.SameRecord h x) :
    h.equal? a b = g.equal? a b := by
  have compared := equal?_moved Renaming.stay_injective fun x reached =>
    (same x reached).movedTo_stay
  rwa [Value.rename_stay, Value.rename_stay] at compared

end Heap

/-! ## Both -/

namespace World

/-- **What rendering and comparing look at.**  A value gives the same text and leaves the same records
in every heap that agrees with the world's on the elements of the arrays that the value contains, down
through array elements, and on the names, parameters and class names of the values met there.  So no
rendering is changed by a change to an array that keeps its elements, to an object that keeps its class,
to a class or a trait that keeps its name, or to a function that keeps its name and its parameters.  And
two values are equal or not, or compared without end, in every heap that agrees with the world's on the
records of what either value refers to. -/
theorem footprint (w : World) :
    (∀ (h : Heap) (v : Value), (∀ a, w.heap.Contains v a → w.heap.elements a = h.elements a) →
      (∀ u, w.heap.Meets v u → w.heap.SameLabels h u) → w.RendersIn h v) ∧
    (∀ v,
      (∀ a change, (∀ r, (change r).elements = r.elements) →
        w.RendersIn (w.heap.modifyArray a change) v) ∧
      (∀ o change, (∀ r, (change r).cls = r.cls) →
        w.RendersIn (w.heap.modifyObject o change) v) ∧
      (∀ c change, (∀ r, (change r).name = r.name) →
        w.RendersIn (w.heap.modifyClass c change) v) ∧
      (∀ t change, (∀ r, (change r).name = r.name) →
        w.RendersIn (w.heap.modifyTrait t change) v) ∧
      ∀ f change, (∀ r, (change r).name = r.name ∧ (change r).params = r.params) →
        w.RendersIn (w.heap.modifyFunction f change) v) ∧
    ∀ (h : Heap) (a b : Value),
      (∀ x, w.heap.Reaches a x ∨ w.heap.Reaches b x → w.heap.SameRecord h x) →
      h.equal? a b = w.heap.equal? a b := by
  refine ⟨fun h v => rendersIn_of_agree, fun v => ⟨fun a change keeps => ?_,
    fun o change keeps => ?_, fun c change keeps => ?_, fun t change keeps => ?_,
    fun f change keeps => ?_⟩, fun h a b => Heap.equal?_congr⟩
  · exact rendersIn_of_sameNames (Heap.sameNames_modifyArray a change)
      (Heap.elements_modifyArray a keeps) v
  · exact rendersIn_of_sameNames (Heap.sameNames_modifyObject o keeps) (fun _ => rfl) v
  · exact rendersIn_of_sameNames (Heap.sameNames_modifyClass c keeps) (fun _ => rfl) v
  · exact rendersIn_of_sameNames (Heap.sameNames_modifyTrait t keeps) (fun _ => rfl) v
  · exact rendersIn_of_sameNames (Heap.sameNames_modifyFunction f keeps) (fun _ => rfl) v

/-- An array that has itself, an object and a function, next to another array. -/
def gallery : World :=
  { fresh .empty none .listening with
    heap := { Heap.empty with
      functions := [⟨"f", ["a"], none, .none, false⟩]
      classes := [⟨"C", .empty, .empty, .empty, .empty, none, []⟩]
      objects := [⟨⟨0⟩, .empty⟩]
      arrays := [⟨3, [.array ⟨0⟩, .object ⟨0⟩, .function ⟨0⟩]⟩, ⟨0, []⟩] } }

/-- The descriptors of `gallery` with other bodies, closures, methods, superclasses, fields and
capacities, and the other array with other elements. -/
def rearranged : Heap :=
  { Heap.empty with
    functions := [⟨"f", ["a"], some "body", .value (.array ⟨1⟩), true⟩]
    classes := [⟨"C", .ofList [("f", ⟨0⟩)], .empty, .empty, .empty, some ⟨0⟩, ["T"]⟩]
    objects := [⟨⟨0⟩, .ofList [("me", .object ⟨0⟩)]⟩]
    arrays := [⟨-3, [.array ⟨0⟩, .object ⟨0⟩, .function ⟨0⟩]⟩, ⟨0, [.nil]⟩] }

/-- The array of `gallery` contains no other one. -/
theorem contains_gallery {a : ArrayRef} (contained : gallery.heap.Contains (.array ⟨0⟩) a) :
    a = ⟨0⟩ := by
  obtain ⟨root, same, walk⟩ := contained
  cases same
  induction walk with
  | refl => rfl
  | tail _ step ih =>
    subst ih
    simpa [Heap.Encloses, Heap.elements, Heap.array?, gallery] using step

/-- The array of `gallery` is written in the same way after everything that is not shown has been
changed. -/
theorem gallery_rearranged :
    ((gallery.withHeap rearranged).render (.array ⟨0⟩)).1 = "[[...], C instance, <fn f(a)>]" := by
  have rendered := gallery.footprint.1 rearranged (.array ⟨0⟩) (fun a contained => ?_)
    fun u met => ?_
  · have before : (gallery.render (.array ⟨0⟩)).1 = "[[...], C instance, <fn f(a)>]" := by
      decide +kernel
    exact (congrArg Prod.fst rendered).trans before
  · rw [contains_gallery contained]
    rfl
  · rcases met with rfl | ⟨a, contained, element⟩
    · trivial
    · rw [contains_gallery contained] at element
      have shown : u ∈ [Value.array ⟨0⟩, .object ⟨0⟩, .function ⟨0⟩] := element
      simp only [List.mem_cons, List.not_mem_nil, or_false] at shown
      rcases shown with rfl | rfl | rfl
      · trivial
      · rfl
      · rfl

end World
end LoxValues
