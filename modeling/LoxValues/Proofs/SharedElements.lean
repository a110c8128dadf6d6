import LoxValues.Proofs.Footprint

/-!
# Shared elements

An array with `n` elements has `2 * n` indices, two for each element: its place, and its place less `n`.
Whoever holds the array reads and writes the same elements, so a write through one index is seen through
both, and by every holder; and it is seen nowhere else.

## What is here

* `place?_eq_some_iff` — the two indices of a place.  So the indices are those from `-n` up to, but not
  including, `n` (`exists_place?_iff`), and two of them have one place just if they are equal or differ by
  `n` (`place?_eq_iff_of_place`).
* `Heap.setElement` — the heap after a write that succeeds, and what each of the readers makes of it.
* `Heap.Overwritten` — what a write has done.
* `World.elements_exact` — **reading and writing are exact**, and what fails changes nothing.
-/

set_option autoImplicit false
namespace LoxValues

/-! ## Indices and places -/

section Places

variable {n p : Nat} {i j : Int}

theorem place?_eq_some_iff : place? n i = some p ↔ p < n ∧ (i = p ∨ i + n = p) := by
  simp only [place?]
  split_ifs <;> simp <;> omega

theorem exists_place?_iff : (∃ p, place? n i = some p) ↔ -n ≤ i ∧ i < n := by
  simp only [place?_eq_some_iff]
  constructor
  · rintro ⟨p, inside, here⟩
    omega
  · rintro ⟨low, high⟩
    rcases Int.lt_or_le i 0 with negative | positive
    · exact ⟨(i + n).toNat, by omega, by omega⟩
    · exact ⟨i.toNat, by omega, by omega⟩

theorem place?_eq_none (outside : ¬ (-n ≤ i ∧ i < n)) : place? n i = none := by
  rw [← exists_place?_iff, ← Option.isSome_iff_exists] at outside
  simpa using outside

/-- **Two indices have one place** if they are equal, or differ by the number of elements. -/
theorem place?_eq_iff_of_place (place : place? n i = some p) :
    place? n j = some p ↔ (-n ≤ j ∧ j < n) ∧ (j = i ∨ (j - i).natAbs = n) := by
  rw [place?_eq_some_iff] at place ⊢
  omega

end Places

/-! ## Writing to a place -/

namespace Heap

variable {h : Heap} {a b : ArrayRef} {i j : Int} {p : Nat} {v : Value}

/-- The heap with the element at a place of an array overwritten. -/
def setElement (h : Heap) (a : ArrayRef) (p : Nat) (v : Value) : Heap :=
  h.modifyArray a fun r => { r with elements := r.elements.set p v }

theorem writeElement_of_place (place : place? (h.elements a).length i = some p) (v : Value) :
    h.writeElement a i v = .ok (h.setElement a p v) := by
  rw [writeElement, place]
  rfl

theorem writeElement_of_none (outside : place? (h.elements a).length i = none) (v : Value) :
    h.writeElement a i v = .error (indexFault .assignmentOutOfRange i) := by
  rw [writeElement, outside]

theorem readElement_of_place {u : Value} (place : place? (h.elements a).length i = some p)
    (here : (h.elements a)[p]? = some u) : h.readElement a i = .ok u := by
  rw [readElement, place, Option.bind_some, here]

theorem readElement_of_none (outside : place? (h.elements a).length i = none) :
    h.readElement a i = .error (indexFault .indexOutOfRange i) := by
  rw [readElement, outside]
  rfl

theorem elements_setElement_self (h : Heap) (a : ArrayRef) (p : Nat) (v : Value) :
    (h.setElement a p v).elements a = (h.elements a).set p v := by
  rw [elements, setElement, array?_modifyArray, if_pos rfl, elements]
  cases h.array? a <;> rfl

/-- A write changes neither the number of elements nor the capacity. -/
theorem length_setElement (h : Heap) (a : ArrayRef) (p : Nat) (v : Value) :
    ((h.setElement a p v).elements a).length = (h.elements a).length := by
  rw [elements_setElement_self, List.length_set]

theorem capacity_setElement (h : Heap) (a : ArrayRef) (p : Nat) (v : Value) :
    ((h.setElement a p v).array? a).map ArrayRecord.capacity =
      (h.array? a).map ArrayRecord.capacity := by
  rw [setElement, array?_modifyArray, if_pos rfl, Option.map_map]
  rfl

/-- **All else stays**: every other descriptor has the record that it had. -/
theorem sameRecord_setElement {x : Descriptor} (other : x ≠ .array a) (p : Nat) (v : Value) :
    h.SameRecord (h.setElement a p v) x := by
  cases x with
  | array b =>
    have ne : b ≠ a := fun same => other (congrArg Descriptor.array same)
    exact ((array?_modifyArray h a _ b).trans (if_neg ne)).symm
  | _ => rfl

/-- What is read after a write: the new element through the indices of its place, and through all others
what was read before. -/
theorem readElement_setElement (h : Heap) (a : ArrayRef) (p : Nat) (v : Value) (j : Int) :
    (h.setElement a p v).readElement a j =
      if place? (h.elements a).length j = some p then .ok v else h.readElement a j := by
  cases place : place? (h.elements a).length j with
  | none =>
    rw [readElement_of_none place, readElement_of_none (by rwa [length_setElement])]
    rfl
  | some q =>
    have inside := (place?_eq_some_iff.mp place).1
    have place' : place? ((h.setElement a p v).elements a).length j = some q := by
      rwa [length_setElement]
    split_ifs with same
    · cases same
      refine readElement_of_place place' ?_
      rw [elements_setElement_self, List.getElem?_set_self inside]
    · have ne : p ≠ q := fun eq => same (congrArg some eq.symm)
      rw [readElement_of_place place (List.getElem?_eq_getElem inside)]
      refine readElement_of_place place' ?_
      rw [elements_setElement_self, List.getElem?_set_ne ne, List.getElem?_eq_getElem inside]

/-- What writing to an index of an array has done. -/
structure Overwritten (h : Heap) (a : ArrayRef) (i : Int) (v : Value) (after : Heap) : Prop where
  /-- Whoever holds the array finds the new element under the index and under the other index of the
  same place, and under every other index what was there before, if anything. -/
  elements : ∀ b, (Value.array b).isSame (.array a) = .ok true → ∀ j,
    let n := (h.elements a).length
    after.readElement b j =
      if (-n ≤ j ∧ j < n) ∧ (j = i ∨ (j - i).natAbs = n) then .ok v else h.readElement b j
  /-- The number of elements stays. -/
  length : (after.elements a).length = (h.elements a).length
  /-- The capacity stays. -/
  capacity : (after.array? a).map ArrayRecord.capacity = (h.array? a).map ArrayRecord.capacity
  /-- Every other descriptor stays. -/
  others : ∀ x, x ≠ .array a → h.SameRecord after x

theorem overwritten_setElement (place : place? (h.elements a).length i = some p) (v : Value) :
    h.Overwritten a i v (h.setElement a p v) where
  elements b same j := by
    obtain rfl : b = a := by simpa [Value.isSame, Value.identical] using same
    simp only [readElement_setElement, place?_eq_iff_of_place place]
  length := h.length_setElement a p v
  capacity := h.capacity_setElement a p v
  others _ other := sameRecord_setElement other p v

end Heap

/-! ## Steps -/

/-- **Shared elements are exact.**  Let an array have `n` elements.  An index from `-n` up to, but not
including, `n` can be read, without a change, and gives the element at that place, counted from the end
if it is negative; and it can be written, which changes nothing in the world but the heap, and there only
what `Heap.Overwritten` says.  Under every other index both reading and writing fail because of the index,
and the world stays as it was. -/
theorem World.elements_exact (w : World) (a : ArrayRef) (i : Int) (v : Value) :
    let n := (w.heap.elements a).length
    (-n ≤ i ∧ i < n →
      (∃ (p : Nat) (old : Value), (i = p ∨ i + n = p) ∧ (w.heap.elements a)[p]? = some old ∧
        w.step (.readElement a i) = (.ok (.value old), w)) ∧
      ∃ after, w.step (.writeElement a i v) = (.ok .nothing, w.withHeap after) ∧
        w.heap.Overwritten a i v after) ∧
    (¬ (-n ≤ i ∧ i < n) →
      w.step (.readElement a i) = (.error (indexFault .indexOutOfRange i), w) ∧
      w.step (.writeElement a i v) = (.error (indexFault .assignmentOutOfRange i), w)) := by
  refine ⟨fun inside => ?_, fun outside => ?_⟩
  · obtain ⟨p, place⟩ := exists_place?_iff.mpr inside
    obtain ⟨here, index⟩ := place?_eq_some_iff.mp place
    have old := List.getElem?_eq_getElem here
    refine ⟨⟨p, _, index, old, ?_⟩, _, ?_, Heap.overwritten_setElement place v⟩
    · rw [step, Heap.readElement_of_place place old]
      rfl
    · rw [step, Heap.writeElement_of_place place]
  · have none := place?_eq_none outside
    constructor
    · rw [step, Heap.readElement_of_none none]
      rfl
    · rw [step, Heap.writeElement_of_none none]

/-- The first of three elements is written from the end, and read from the front. -/
example :
    let h := { Heap.empty with arrays := [⟨3, [.nil, .bool true, .nil]⟩] }
    (h.writeElement ⟨0⟩ (-3) (.int 7)).bind (fun after => after.readElement ⟨0⟩ 0) = .ok (.int 7) :=
  rfl

end LoxValues
