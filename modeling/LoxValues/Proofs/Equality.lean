import LoxValues.Proofs.Nesting
import LoxValues.World.Step

/-!
# Equality of values

The results about `Heap.equal?`.  A comparison of two values that comes to an end under any bound
gives the answer of `Heap.equal?`, and the answer is whether the two are bisimilar
(`Heap.equal?_iff_bisimilar`).  In a heap whose reference cycles all pass through arrays or objects
it does come to an end, whatever is in progress, and leaves everything as it was
(`Heap.CyclesGuarded.equal_ends`).
-/

set_option autoImplicit false
namespace LoxValues.Heap

variable {h : Heap}

/-- Two values are bisimilar: of the same variant, with equal payloads or bisimilar descriptors.
Floats in one box have equal payloads, whatever is in it. -/
def BisimilarValues (h : Heap) (a b : Value) : Prop := a.Related h.Bisimilar b

/-- **Structural equality decides bisimilarity.**  However the heap is shared and cyclic, a
comparison that comes to an end, under whatever bound, has the answer of `Heap.equal?`, and that
answer is whether the values are bisimilar. -/
theorem equal?_iff_bisimilar {a b : Value} {bound : Nat} {answer : Bool} {after : Pending}
    (ended : compareAll (h.compare bound) (a.goals b) [] = some (answer, after)) :
    h.equal? a b = some answer ∧ (answer = true ↔ h.BisimilarValues a b) := by
  constructor
  · rw [equal?, decide?, compareAll_depthBound ended, Option.map_some]
  · rw [BisimilarValues, ← Value.forall_goals_iff]
    simpa only [supported_nil_iff] using compareAll_answer (compare_restores bound) compare_answer ended

/-- Arrays that contain one another in a ring of two, and one that contains itself. -/
def rings : Heap :=
  { empty with arrays := [⟨1, [.array ⟨1⟩]⟩, ⟨1, [.array ⟨0⟩]⟩, ⟨1, [.array ⟨2⟩]⟩] }

/-- A ring of two arrays unfolds to the same as a ring of one. -/
theorem rings_equal : rings.equal? (.array ⟨0⟩) (.array ⟨2⟩) = some true ∧
    rings.BisimilarValues (.array ⟨0⟩) (.array ⟨2⟩) := by
  have ended : compareAll (rings.compare 4) (Value.goals (.array ⟨0⟩) (.array ⟨2⟩)) [] =
      some (true, []) := by decide
  have result := equal?_iff_bisimilar ended
  exact ⟨result.1, result.2.mp rfl⟩

/-- Two objects of one class that share a float, which is not-a-number. -/
def sharers : Heap :=
  { empty with
    classes := [⟨"C", .empty, .empty, .empty, .empty, none, []⟩]
    objects := [⟨⟨0⟩, .ofList [("n", .float .nan 0)]⟩, ⟨⟨0⟩, .ofList [("n", .float .nan 0)]⟩] }

/-- **Sharing a box is enough**: the objects are equal.  No relation relates them, though, that has objects
related only if they are the same or have related values in their fields, and floats only if these are
equal as numbers. -/
theorem sharers_equal :
    sharers.equal? (.object ⟨0⟩) (.object ⟨1⟩) = some true ∧
    ∀ (R : ObjectRef → ObjectRef → Prop) (S : Value → Value → Prop),
      (∀ o p, R o p → o = p ∨ ∀ name v, sharers.field? o name = some v →
        ∃ u, sharers.field? p name = some u ∧ S v u) →
      (∀ x y i j, S (.float x i) (.float y j) → x.numEq y = true) → ¬ R ⟨0⟩ ⟨1⟩ := by
  refine ⟨by decide, fun R S objects floats related => ?_⟩
  rcases objects _ _ related with same | fields
  · cases same
  · obtain ⟨u, field, alike⟩ := fields "n" (.float .nan 0) (by decide)
    obtain rfl : u = .float .nan 0 := Option.some.inj (field.symm.trans (by decide))
    exact absurd (floats _ _ _ _ alike) (by decide)

/-- **Comparisons end and clean up.**  Where every cycle of references passes through an array or an
object, the comparison of any two values ends within `Heap.depthBound`, whatever pairs are in
progress, and leaves exactly these in progress; asked as a step, it changes nothing in the world. -/
theorem CyclesGuarded.equal_ends {w : World} (guarded : w.heap.CyclesGuarded) (a b : Value)
    (pending : Pending) :
    ∃ answer,
      (∀ bound, w.heap.depthBound ≤ bound →
        compareAll (w.heap.compare bound) (a.goals b) pending = some (answer, pending)) ∧
      (∀ bound r, compareAll (w.heap.compare bound) (a.goals b) pending = some r →
        r = (answer, pending)) ∧
      (pending = [] → w.step (.equal a b) = (.ok (.flag answer), w)) := by
  obtain ⟨answer, ended⟩ := guarded.exists_compareAll (Nat.le_refl _) (a.goals b) pending
  refine ⟨answer, fun bound le => compareAll_mono (compare_mono le) ended, fun bound r other => ?_, ?_⟩
  · exact Option.some.inj ((compareAll_depthBound other).symm.trans ended)
  · rintro rfl
    rw [World.step, equal?, decide?, ended]
    rfl

/-- A class whose method closes over an object of the class, and two objects that have themselves in
a field. -/
def tangle : Heap :=
  { empty with
    functions := [⟨"f", [], none, .value (.object ⟨0⟩), false⟩]
    classes := [⟨"C", .ofList [("f", ⟨0⟩)], .empty, .empty, .empty, none, []⟩]
    objects := [⟨⟨0⟩, .ofList [("me", .object ⟨0⟩)]⟩, ⟨⟨0⟩, .ofList [("me", .object ⟨1⟩)]⟩] }

theorem tangle_cyclesGuarded : tangle.CyclesGuarded := by
  refine .of_rank (fun | .function _ => 1 | .cls _ => 2 | _ => 0) ?_
  rintro (⟨⟨_ | i⟩⟩ | ⟨⟨_ | i⟩⟩ | o | t | a) y unguarded refers
  · have only : y ∈ [Descriptor.object ⟨0⟩] := refers
    rw [List.mem_singleton.mp only]
    decide
  · cases refers
  · have only : y ∈ [Descriptor.function ⟨0⟩] := refers
    rw [List.mem_singleton.mp only]
    decide
  · cases refers
  · cases unguarded
  · cases refers
  · cases unguarded

/-- The two objects of `tangle` are compared to an end in the middle of comparing them the other way
round, and that comparison is still what is in progress then. -/
theorem tangle_equal_ends : ∃ answer,
    compareAll (tangle.compare tangle.depthBound) (Value.goals (.object ⟨0⟩) (.object ⟨1⟩))
      [.objects ⟨1⟩ ⟨0⟩] = some (answer, [.objects ⟨1⟩ ⟨0⟩]) := by
  obtain ⟨answer, ended, -⟩ :=
    CyclesGuarded.equal_ends (w := { World.fresh .empty none .silent with heap := tangle })
      tangle_cyclesGuarded (.object ⟨0⟩) (.object ⟨1⟩) [.objects ⟨1⟩ ⟨0⟩]
  exact ⟨answer, ended _ (Nat.le_refl _)⟩

end LoxValues.Heap
