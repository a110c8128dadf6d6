import LoxValues.Proofs.MovedRendering
import Mathlib.Data.Finset.Lattice.Fold
import Mathlib.Logic.Function.Basic

/-!
# Places cannot be observed

A descriptor is known by its place, which says in which order descriptors were made.  No operation
lets anyone find out about places: when the descriptors of a world come to other places, no two of
them to the same, values give the same texts and records, are equal or the same as before, and
classes have the methods that they had (`World.places_unobservable`).

Any descriptors of a heap can come to any places.  Where this leaves gaps, they are filled with records
that nobody refers to, and what was not in the heap goes to places behind these
(`Heap.exists_moved`).
-/

set_option autoImplicit false
namespace LoxValues

/-! ## Lists at other places -/

/-- The members of a list can be had at any places of another one, if these are all different. -/
theorem exists_placed {α : Type} (filler : α) {place : Nat → Nat}
    (injective : Function.Injective place) (xs : List α) :
    ∃ ys : List α, ∀ i < xs.length, ys[place i]? = xs[i]? := by
  induction xs using List.reverseRecOn with
  | nil => exact ⟨[], nofun⟩
  | append_singleton xs x ih =>
    obtain ⟨ys, placed⟩ := ih
    -- the list is made long enough before the new member is put in
    refine ⟨(ys ++ List.replicate (place xs.length + 1) filler).set (place xs.length) x,
      fun i hi => ?_⟩
    rw [List.length_append, List.length_singleton] at hi
    rcases Nat.lt_succ_iff_lt_or_eq.mp hi with before | rfl
    · have here : place i < ys.length := by
        have there := placed i before
        rw [List.getElem?_eq_getElem before] at there
        exact (List.getElem?_eq_some_iff.mp there).1
      rw [List.getElem?_set_ne (fun same => by have := injective same; omega),
        List.getElem?_append_left here, placed i before, List.getElem?_append_left before]
    · rw [List.getElem?_set_self (by rw [List.length_append, List.length_replicate]; omega),
        List.getElem?_concat_length]

/-- A map sends the members of lists of one length to the places that another map sends them to, and
everything else to places that are not needed then: beyond the end of some list that has the members at
their places. -/
structure Replaces (other place : Nat → Nat) (n : Nat) : Prop where
  /-- No two things come to the same place. -/
  injective : Function.Injective other
  /-- The members come to the same places. -/
  agrees : ∀ i < n, other i = place i
  /-- There are lists that have the members at these places. -/
  placed : ∀ {α : Type} (xs : List α), xs.length = n → ∃ ys : List α, ∀ i, ys[other i]? = xs[i]?

theorem exists_replaces {place : Nat → Nat} (injective : Function.Injective place) (n : Nat) :
    ∃ other, Replaces other place n := by
  obtain ⟨m, below⟩ : ∃ m, ∀ i < n, place i < m :=
    ⟨(Finset.range n).sup place + 1,
      fun i hi => Nat.lt_succ_of_le (Finset.le_sup (f := place) (Finset.mem_range.mpr hi))⟩
  -- from the length on, the map goes to places beyond all those that are needed
  refine ⟨fun i => if i < n then place i else m + i, fun i j same => ?_, fun i hi => if_pos hi,
    fun {α} xs length => ?_⟩
  · split at same <;> split at same
    · exact injective same
    · next hi _ =>
      have := below i hi
      omega
    · next _ hj =>
      have := below j hj
      omega
    · omega
  · cases xs with
    | nil => exact ⟨[], fun i => rfl⟩
    | cons x xs =>
      obtain ⟨ys, placed⟩ := exists_placed x injective (x :: xs)
      refine ⟨ys.take m, fun i => ?_⟩
      rcases Nat.lt_or_ge i n with hi | hi
      · rw [if_pos hi, List.getElem?_take_of_lt (below i hi), placed i (length ▸ hi)]
      · have beyond : (ys.take m).length ≤ m + i :=
          (List.length_take_le m ys).trans (Nat.le_add_right m i)
        rw [if_neg (Nat.not_lt_of_le hi), List.getElem?_eq_none beyond,
          List.getElem?_eq_none (length.trans_le hi)]

/-! ## Heaps at other places -/

namespace Heap

/-- The heap has the record of a descriptor. -/
def Has (h : Heap) : Descriptor → Prop
  | .function f => f.index < h.functions.length
  | .cls c => c.index < h.classes.length
  | .object o => o.index < h.objects.length
  | .trait t => t.index < h.traits.length
  | .array a => a.index < h.arrays.length

/-- **The descriptors of a heap can come to any places**, as long as no two of them come to the same. -/
theorem exists_moved (h : Heap) {φ : Renaming} (injective : φ.Injective) :
    ∃ (ψ : Renaming) (k : Heap), ψ.Injective ∧ (∀ x, h.Has x → x.rename ψ = x.rename φ) ∧
      ∀ x, h.MovedTo ψ k x := by
  have function_inj : Function.Injective fun i => (φ.function ⟨i⟩).index := fun i j same =>
    FunctionRef.mk.inj (injective.function (congrArg FunctionRef.mk same))
  have cls_inj : Function.Injective fun i => (φ.cls ⟨i⟩).index := fun i j same =>
    ClassRef.mk.inj (injective.cls (congrArg ClassRef.mk same))
  have object_inj : Function.Injective fun i => (φ.object ⟨i⟩).index := fun i j same =>
    ObjectRef.mk.inj (injective.object (congrArg ObjectRef.mk same))
  have trait_inj : Function.Injective fun i => (φ.trait ⟨i⟩).index := fun i j same =>
    TraitRef.mk.inj (injective.trait (congrArg TraitRef.mk same))
  have array_inj : Function.Injective fun i => (φ.array ⟨i⟩).index := fun i j same =>
    ArrayRef.mk.inj (injective.array (congrArg ArrayRef.mk same))
  obtain ⟨function, functions⟩ := exists_replaces function_inj h.functions.length
  obtain ⟨cls, classes⟩ := exists_replaces cls_inj h.classes.length
  obtain ⟨object, objects⟩ := exists_replaces object_inj h.objects.length
  obtain ⟨trait, traits⟩ := exists_replaces trait_inj h.traits.length
  obtain ⟨array, arrays⟩ := exists_replaces array_inj h.arrays.length
  let ψ : Renaming := ⟨fun f => ⟨function f.index⟩, fun c => ⟨cls c.index⟩,
    fun o => ⟨object o.index⟩, fun t => ⟨trait t.index⟩, fun a => ⟨array a.index⟩⟩
  obtain ⟨fs, movedFunctions⟩ := functions.placed
    (h.functions.map (FunctionRecord.rename ψ)) (List.length_map _)
  obtain ⟨cs, movedClasses⟩ := classes.placed
    (h.classes.map (ClassRecord.rename ψ)) (List.length_map _)
  obtain ⟨os, movedObjects⟩ := objects.placed
    (h.objects.map (ObjectRecord.rename ψ)) (List.length_map _)
  obtain ⟨ts, movedTraits⟩ := traits.placed h.traits rfl
  obtain ⟨as, movedArrays⟩ := arrays.placed
    (h.arrays.map (ArrayRecord.rename ψ)) (List.length_map _)
  refine ⟨ψ, ⟨fs, cs, os, ts, as⟩, ⟨?_, ?_, ?_, ?_, ?_⟩, fun x has => ?_, fun x => ?_⟩
  · exact fun f g same => congrArg FunctionRef.mk (functions.injective (FunctionRef.mk.inj same))
  · exact fun c d same => congrArg ClassRef.mk (classes.injective (ClassRef.mk.inj same))
  · exact fun o p same => congrArg ObjectRef.mk (objects.injective (ObjectRef.mk.inj same))
  · exact fun s t same => congrArg TraitRef.mk (traits.injective (TraitRef.mk.inj same))
  · exact fun a b same => congrArg ArrayRef.mk (arrays.injective (ArrayRef.mk.inj same))
  · cases x with
    | function f => exact congrArg (fun i => Descriptor.function ⟨i⟩) (functions.agrees f.index has)
    | cls c => exact congrArg (fun i => Descriptor.cls ⟨i⟩) (classes.agrees c.index has)
    | object o => exact congrArg (fun i => Descriptor.object ⟨i⟩) (objects.agrees o.index has)
    | trait t => exact congrArg (fun i => Descriptor.trait ⟨i⟩) (traits.agrees t.index has)
    | array a => exact congrArg (fun i => Descriptor.array ⟨i⟩) (arrays.agrees a.index has)
  · cases x with
    | function f => exact (movedFunctions f.index).trans List.getElem?_map
    | cls c => exact (movedClasses c.index).trans List.getElem?_map
    | object o => exact (movedObjects o.index).trans List.getElem?_map
    | trait t => exact movedTraits t.index
    | array a => exact (movedArrays a.index).trans List.getElem?_map

end Heap

/-! ## What places decide about -/

namespace World

/-- **Places cannot be observed.**  The descriptors of a world may be renamed by any injective renaming:
there is a heap in which all that the world's heap has is at its new place.  In every such heap, with
the arrays that are being rendered moved as well, a moved value gives the same text and leaves the same
records, moved values and moved descriptors are equal if they were equal before the move, comparisons
that end still end and others still do not, moved values are the same if they were the same, and what a
moved class has under a name is what the class had, moved. -/
theorem places_unobservable (w : World) {φ : Renaming} (injective : φ.Injective) :
    (∃ (ψ : Renaming) (h : Heap), ψ.Injective ∧ (∀ x, w.heap.Has x → x.rename ψ = x.rename φ) ∧
      ∀ x, w.heap.MovedTo ψ h x) ∧
    ∀ h, (∀ x, w.heap.MovedTo φ h x) →
      (∀ v, (w.moved φ h).render (v.rename φ) = ((w.render v).1, (w.render v).2.moved φ h)) ∧
      (∀ a b, h.equal? (a.rename φ) (b.rename φ) = w.heap.equal? a b) ∧
      (∀ x y, h.equalDescriptors? (x.rename φ) (y.rename φ) = w.heap.equalDescriptors? x y) ∧
      (∀ a b : Value, (a.rename φ).isSame (b.rename φ) = a.isSame b) ∧
      ∀ c name, h.findMethod (φ.cls c) name = (w.heap.findMethod c name).rename φ := by
  refine ⟨w.heap.exists_moved injective, fun h moved => ⟨fun v => ?_, fun a b => ?_, fun x y => ?_,
    Value.isSame_rename injective, fun c => ?_⟩⟩
  · exact render_moved injective.array (fun a _ => Heap.elements_moved (moved (.array a)))
      fun u _ => Heap.text_moved moved u
  · exact Heap.equal?_moved injective fun x _ => moved x
  · exact Heap.equalDescriptors?_moved injective (fun z _ => moved z) fun z _ => moved z
  · exact Heap.findMethod_moved fun z _ => moved z

/-- An array that has itself and another one, which has a class, whose superclass has a method. -/
def parade : World :=
  { fresh .empty none .listening with
    heap := { Heap.empty with
      functions := [⟨"f", [], none, .none, false⟩]
      classes := [⟨"A", .ofList [("f", ⟨0⟩)], .empty, .empty, .empty, none, []⟩,
        ⟨"B", .empty, .empty, .empty, .empty, some ⟨0⟩, []⟩]
      arrays := [⟨2, [.array ⟨1⟩, .array ⟨0⟩]⟩, ⟨1, [.cls ⟨1⟩]⟩] }
    cache := some .default }

/-- The first two places of something are exchanged. -/
def exchange : Nat → Nat
  | 0 => 1
  | 1 => 0
  | i + 2 => i + 2

theorem exchange_exchange (i : Nat) : exchange (exchange i) = i := by
  rcases i with _ | _ | i <;> rfl

/-- The first two classes are exchanged, and so are the first two arrays. -/
def aboutTurn : Renaming :=
  { Renaming.stay with
    cls := fun c => ⟨exchange c.index⟩
    array := fun a => ⟨exchange a.index⟩ }

theorem aboutTurn_injective : aboutTurn.Injective :=
  { Renaming.stay_injective with
    cls := Function.LeftInverse.injective (g := aboutTurn.cls) fun c =>
      congrArg ClassRef.mk (exchange_exchange c.index)
    array := Function.LeftInverse.injective (g := aboutTurn.array) fun a =>
      congrArg ArrayRef.mk (exchange_exchange a.index) }

/-- The heap of `parade` after `aboutTurn`. -/
def paradeBack : Heap :=
  { Heap.empty with
    functions := [⟨"f", [], none, .none, false⟩]
    classes := [⟨"B", .empty, .empty, .empty, .empty, some ⟨1⟩, []⟩,
      ⟨"A", .ofList [("f", ⟨0⟩)], .empty, .empty, .empty, none, []⟩]
    arrays := [⟨1, [.cls ⟨0⟩]⟩, ⟨2, [.array ⟨0⟩, .array ⟨1⟩]⟩] }

theorem parade_movedTo (x : Descriptor) : parade.heap.MovedTo aboutTurn paradeBack x := by
  rcases x with ⟨⟨_ | i⟩⟩ | ⟨⟨_ | _ | i⟩⟩ | o | t | ⟨⟨_ | _ | i⟩⟩ <;> rfl

/-- After the move the array is written as before, and its class inherits the same method. -/
theorem parade_moved :
    ((parade.moved aboutTurn paradeBack).render (.array ⟨1⟩)).1 = "[[B], [...]]" ∧
    paradeBack.findMethod ⟨0⟩ "f" = .found ⟨0⟩ := by
  obtain ⟨rendered, -, -, -, found⟩ :=
    (parade.places_unobservable aboutTurn_injective).2 paradeBack parade_movedTo
  have before : (parade.render (.array ⟨0⟩)).1 = "[[B], [...]]" := by decide +kernel
  have method : parade.heap.findMethod ⟨1⟩ "f" = .found ⟨0⟩ := by decide
  exact ⟨(congrArg Prod.fst (rendered (.array ⟨0⟩))).trans before,
    (found ⟨1⟩ "f").trans (congrArg (Lookup.rename aboutTurn) method)⟩

end World
end LoxValues
