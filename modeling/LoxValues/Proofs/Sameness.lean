import LoxValues.Proofs.Equivalence
import LoxValues.Proofs.Run

/-!
# Sameness

Two values are the same if they have one variant and either one payload or the very same descriptors.
This is relatedness once more, with descriptors related only to themselves
(`Value.identical_iff_related`), so it is symmetric and transitive as every relatedness by such a
relation is.  It refines equality: each pair of descriptors in such a comparison is a pair of one and
the same, which holds without a look at what is inside, and so whatever cycles and whatever
not-a-numbers there are.  Where one side has no descriptors, the two come to the same
(`Heap.equal?_eq_identical`).

Nothing of it is in the heap, so no change to a descriptor makes two values the same or takes them
apart, while such changes may make them equal and unequal.

## What is here

* `Value.isForeign` — the one variant that is none of the language's values.
* `Heap.equal?_of_identical` — the same values are equal.
* `World.same_refines_equal` — **identity refines equality**, in all that a run may come to.
-/

set_option autoImplicit false
namespace LoxValues

/-! ## Identical values -/

namespace Value

variable {a b c : Value}

/-- Is it a number of the host program, and none of the language's values? -/
def isForeign : Value → Bool
  | .foreign _ => true
  | _ => false

/-- **Identical values are related by equality of descriptors**, and no others are. -/
theorem identical_iff_related : a.identical b = true ↔ a.Related Eq b := by
  constructor
  · fun_cases Value.identical a b with
    | case1 x i y j => exact fun same => related_float_iff.mpr (identical_float_iff.mp same)
    | case2 a b others =>
      intro same
      obtain rfl : a = b := by simpa using same
      exact related_self (fun _ => rfl) a
  · intro related
    cases related with
    | float h => exact identical_float_iff.mpr (.inr h)
    | box x i => exact identical_float_iff.mpr (.inl ⟨rfl, rfl⟩)
    | function h | cls h | object h | trait h | array h => cases h; exact beq_self_eq_true _
    | method hf ho => cases hf; cases ho; exact beq_self_eq_true _
    | _ => exact beq_self_eq_true _

theorem identical_comm (a b : Value) : a.identical b = b.identical a := by
  have back {a b : Value} (same : a.identical b = true) : b.identical a = true :=
    identical_iff_related.mpr ((identical_iff_related.mp same).symm.mono fun _ _ => Eq.symm)
  exact Bool.eq_iff_iff.mpr ⟨back, back⟩

theorem identical_trans (first : a.identical b = true) (second : b.identical c = true) :
    a.identical c = true := by
  rw [identical_iff_related] at first second ⊢
  exact (first.trans second).mono fun _ _ ⟨_, hxy, hyz⟩ => hxy.trans hyz

/-- Values with descriptors have nothing else. -/
theorem identical_iff_eq (composite : a.references ≠ []) : a.identical b = true ↔ a = b := by
  rw [identical_iff_related]
  constructor
  · intro related
    cases related with
    | function h | cls h | object h | trait h | array h => cases h; rfl
    | method hf ho => cases hf; cases ho; rfl
    | _ => exact absurd rfl composite
  · rintro rfl
    exact related_self (fun _ => rfl) a

theorem isSame_eq (own : a.isForeign = false) (b : Value) : a.isSame b = .ok (a.identical b) := by
  cases a with
  | foreign n => cases own
  | _ => rfl

theorem identical_of_isSame (same : a.isSame b = .ok true) : a.identical b = true := by
  cases a with
  | foreign n => cases same
  | _ => exact Except.ok.inj same

end Value

/-! ## The same values are equal -/

namespace Heap

variable {h : Heap} {a b : Value}

/-- A pair of one and the same descriptor holds at once, whatever is in progress. -/
theorem compare_of_holds_eq {goal : Goal} (holds : goal.Holds Eq) (bound : Nat) (pending : Pending) :
    h.compare (bound + 1) goal pending = some (true, pending) := by
  rcases goal.check_or_pair with ⟨fact, rfl⟩ | pair
  · rw [compare_check, Goal.holds_check.mp holds]
  · obtain ⟨x, y, rfl⟩ := Goal.exists_eq_ofPair pair
    have same : x = y := (Goal.holds_ofPair pair).mp holds
    exact compare_of_settled pair (.inl (Goal.isReflexive_ofPair_iff.mpr same)) bound

theorem compareAll_of_holds_eq {goals : List Goal} (hold : ∀ goal ∈ goals, goal.Holds Eq) (bound : Nat)
    (pending : Pending) :
    compareAll (h.compare (bound + 1)) goals pending = some (true, pending) := by
  induction goals with
  | nil => rfl
  | cons goal goals ih =>
    obtain ⟨first, rest⟩ := List.forall_mem_cons.mp hold
    rw [compareAll, compare_of_holds_eq first]
    exact ih rest

/-- **The same values are equal**, however their descriptors are wired. -/
theorem equal?_of_identical (same : a.identical b = true) : h.equal? a b = some true := by
  have hold := Value.forall_goals_iff.mpr (Value.identical_iff_related.mp same)
  rw [equal?, decide?, depthBound, compareAll_of_holds_eq hold]
  rfl

end Heap

/-! ## Sameness in a run -/

namespace World

theorem step_same {a : Value} (own : a.isForeign = false) (b : Value) (w : World) :
    w.step (.same a b) = (.ok (.flag (a.identical b)), w) := by
  rw [step, Value.isSame_eq own]
  rfl

theorem step_equal {w : World} {a b : Value} {answer : Bool} (ended : w.heap.equal? a b = some answer) :
    w.step (.equal a b) = (.ok (.flag answer), w) := by
  rw [step, ended]
  rfl

/-- **Identity refines equality.**  Any two values of the language are the same or not, either way round
and after any steps, whatever these do to the descriptors.  If they are the same, then they are equal, at
any of these times; so are arrays and objects that contain themselves or not-a-number.  What is the same
as the second is the same as the first.  If one of them has no descriptors, then they are equal just if
they are the same.  If they have descriptors, then they are the same just if they have the same
variant and the very same descriptors. -/
theorem same_refines_equal (w : World) {a b : Value} (ownA : a.isForeign = false)
    (ownB : b.isForeign = false) :
    ∃ same : Bool,
      (∀ steps, (w.run steps).step (.same a b) = (.ok (.flag same), w.run steps) ∧
        (w.run steps).step (.same b a) = (.ok (.flag same), w.run steps)) ∧
      (same = true → ∀ steps,
        (w.run steps).step (.equal a b) = (.ok (.flag true), w.run steps)) ∧
      (same = true → ∀ c, b.isSame c = .ok true → a.isSame c = .ok true) ∧
      (a.references = [] ∨ b.references = [] → ∀ steps,
        (w.run steps).step (.equal a b) = (.ok (.flag same), w.run steps)) ∧
      (a.references ≠ [] → (same = true ↔ a = b)) := by
  refine ⟨a.identical b, fun steps => ⟨step_same ownA b _, ?_⟩, fun same steps => ?_,
    fun same c next => ?_, fun scalar steps => ?_, Value.identical_iff_eq⟩
  · rw [step_same ownB, Value.identical_comm b a]
  · exact step_equal (Heap.equal?_of_identical same)
  · rw [Value.isSame_eq ownA, Value.identical_trans same (Value.identical_of_isSame next)]
  · exact step_equal (Heap.equal?_eq_identical scalar)

/-- Two arrays that contain themselves, each with a not-a-number of its own. -/
def knots : World :=
  { fresh .empty none .silent with
    heap := { Heap.empty with
      arrays := [⟨2, [.float .nan 0, .array ⟨0⟩]⟩, ⟨2, [.float .nan 1, .array ⟨1⟩]⟩] } }

/-- Each of them is equal to itself, and not to the other.  When the not-a-numbers have gone, the two are
equal, and still not the same. -/
theorem knots_same :
    let steps := [Step.writeElement ⟨0⟩ 0 .nil, .writeElement ⟨1⟩ 0 .nil]
    (knots.step (.equal (.array ⟨0⟩) (.array ⟨0⟩))).1 = .ok (.flag true) ∧
    (knots.step (.equal (.array ⟨0⟩) (.array ⟨1⟩))).1 = .ok (.flag false) ∧
    ((knots.run steps).step (.equal (.array ⟨0⟩) (.array ⟨1⟩))).1 = .ok (.flag true) ∧
    ((knots.run steps).step (.same (.array ⟨0⟩) (.array ⟨1⟩))).1 = .ok (.flag false) := by
  intro steps
  obtain ⟨one, -, equal, -, -, itself⟩ :=
    knots.same_refines_equal (a := .array ⟨0⟩) (b := .array ⟨0⟩) rfl rfl
  obtain ⟨two, asked, -, -, -, other⟩ :=
    knots.same_refines_equal (a := .array ⟨0⟩) (b := .array ⟨1⟩) rfl rfl
  have composite : (Value.array ⟨0⟩).references ≠ [] := List.cons_ne_nil _ _
  have apart : two = false :=
    Bool.eq_false_iff.mpr fun same => absurd ((other composite).mp same) (by decide)
  refine ⟨congrArg Prod.fst (equal ((itself composite).mpr rfl) []), by decide +kernel,
    by decide +kernel, ?_⟩
  rw [(asked steps).1, apart]

end World
end LoxValues
