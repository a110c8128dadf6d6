import LoxValues.Proofs.Unfolding
import Mathlib.Data.Fintype.Card
import Mathlib.Data.Fintype.EquivFin
import Mathlib.Logic.Relation

/-!
# Rendering without cycles

Where no array comes back to itself through array elements, nobody has to remember which arrays are
being rendered: how many there are is enough.

## What is here

* `Heap.Contains` — the arrays that a value consists of, down through array elements, and
  `Heap.AcyclicFrom` — none of these contains itself.
* `Heap.layered` — the pieces of a value by a renderer that only counts.
* `Heap.AcyclicFrom.unfolding_eq` — from an acyclic value the two renderers write the same.
* `Heap.AcyclicFrom.acc` — from an acyclic value every descent through array elements ends, and only
  from such values (`Heap.acyclicFrom_of_acc`).
-/

set_option autoImplicit false
namespace LoxValues.Heap

open Relation (ReflTransGen TransGen)

variable {h : Heap}

/-! ## Arrays in arrays -/

/-- An array has another one among its elements. -/
def Encloses (h : Heap) (a b : ArrayRef) : Prop := .array b ∈ h.elements a

/-- A value is an array from which another leads through array elements, or that array itself. -/
def Contains (h : Heap) (v : Value) (c : ArrayRef) : Prop :=
  ∃ a, v = .array a ∧ ReflTransGen h.Encloses a c

/-- No array reaches itself through array elements from a value. -/
def AcyclicFrom (h : Heap) (v : Value) : Prop := ∀ c, h.Contains v c → ¬ TransGen h.Encloses c c

theorem contains_self (a : ArrayRef) : h.Contains (.array a) a := ⟨a, rfl, .refl⟩

theorem Contains.of_element {a c : ArrayRef} {v : Value} (mem : v ∈ h.elements a)
    (contained : h.Contains v c) : h.Contains (.array a) c := by
  obtain ⟨b, rfl, walk⟩ := contained
  exact ⟨a, rfl, .head mem walk⟩

theorem AcyclicFrom.of_element {a : ArrayRef} {v : Value} (acyclic : h.AcyclicFrom (.array a))
    (mem : v ∈ h.elements a) : h.AcyclicFrom v :=
  fun c contained => acyclic c (contained.of_element mem)

/-- No element of an array that does not come back to itself contains it. -/
theorem AcyclicFrom.not_contains {a : ArrayRef} {v : Value} (acyclic : h.AcyclicFrom (.array a))
    (mem : v ∈ h.elements a) : ¬ h.Contains v a := by
  rintro ⟨b, rfl, walk⟩
  exact acyclic a (contains_self a) (.head' mem walk)

/-- Where a rank falls from every array to the arrays among its elements, none reaches itself. -/
theorem acyclicFrom_of_rank (rank : ArrayRef → Nat)
    (falls : ∀ a b, h.Encloses a b → rank b < rank a) (v : Value) : h.AcyclicFrom v := by
  have descends : ∀ a b, TransGen h.Encloses a b → rank b < rank a := by
    intro a b walk
    induction walk with
    | single step => exact falls _ _ step
    | tail _ step ih => exact (falls _ _ step).trans ih
  exact fun c _ cycle => Nat.lt_irrefl _ (descends c c cycle)

/-! ## A renderer that only counts -/

/-- The pieces of a value with `depth` arrays around it, where there may be `levels` more. -/
def layered (h : Heap) : (levels depth : Nat) → Value → List Piece
  | 0, depth, .array _ => [.ellipsis .truncation depth]
  | levels + 1, depth, .array a =>
    Piece.bracket ((h.elements a).map fun v => h.layered levels (depth + 1) v)
  | _, _, v => [.plain (h.text v)]

theorem layered_of_ne_array {levels depth : Nat} {v : Value} (other : ∀ a, v ≠ .array a) :
    h.layered levels depth v = [.plain (h.text v)] := by
  rw [layered]
  · exact fun a _ => other a
  · exact fun _ a _ => other a

/-- **Without cycles the path does not matter.**  From an acyclic value, along a path of arrays that
the value does not contain, the unfolding only depends on how long the path is. -/
theorem AcyclicFrom.unfolding_eq {bound : Nat} {path : List ArrayRef} {v : Value}
    (acyclic : h.AcyclicFrom v) (apart : ∀ c ∈ path, ¬ h.Contains v c) :
    h.unfolding bound path v = h.layered (bound - path.length) path.length v := by
  induction path, v using Heap.unfolding.induct bound with
  | case1 path a onPath => exact absurd (contains_self a) (apart a onPath)
  | case2 path a offPath full =>
    rw [unfolding, if_neg offPath, if_pos full, Nat.sub_eq_zero_of_le full, layered]
  | case3 path a offPath room ih =>
    obtain ⟨levels, left⟩ : ∃ levels, bound - path.length = levels + 1 :=
      Nat.exists_eq_add_one.mpr (by omega)
    rw [unfolding, if_neg offPath, if_neg room, left, layered]
    refine congrArg Piece.bracket (List.map_congr_left fun v mem => ?_)
    have apart' : ∀ c ∈ path ++ [a], ¬ h.Contains v c := by
      intro c hc contained
      rcases List.mem_append.mp hc with before | here
      · exact apart c before (contained.of_element mem)
      · obtain rfl := List.mem_singleton.mp here
        exact acyclic.not_contains mem contained
    have inner := ih v (acyclic.of_element mem) apart'
    rw [List.length_append, List.length_singleton] at inner
    rw [inner, show bound - (path.length + 1) = levels by omega]
  | case4 path v other => rw [unfolding_of_ne_array other, layered_of_ne_array other]

/-! ## Descents end -/

theorem lt_length_of_encloses {a b : ArrayRef} (step : h.Encloses a b) :
    a.index < h.arrays.length := by
  by_contra beyond
  have missing : h.elements a = [] := by
    rw [elements, array?, List.getElem?_eq_none (Nat.le_of_not_lt beyond)]
    rfl
  rw [Encloses, missing] at step
  cases step

/-- The arrays that a value contains and whose records are there. -/
abbrev Inner (h : Heap) (v : Value) : Type :=
  {a : ArrayRef // a.index < h.arrays.length ∧ h.Contains v a}

theorem finite_inner (v : Value) : Finite (h.Inner v) := by
  refine Finite.of_injective (fun a => (⟨a.1.index, a.2.1⟩ : Fin h.arrays.length)) ?_
  rintro ⟨⟨i⟩, _⟩ ⟨⟨j⟩, _⟩ same
  simpa using same

theorem AcyclicFrom.wellFounded {v : Value} (acyclic : h.AcyclicFrom v) :
    WellFounded fun x y : h.Inner v => TransGen h.Encloses y.1 x.1 := by
  have := h.finite_inner v
  have : IsTrans (h.Inner v) fun x y => TransGen h.Encloses y.1 x.1 :=
    ⟨fun _ _ _ first second => second.trans first⟩
  have : Std.Irrefl fun x y : h.Inner v => TransGen h.Encloses y.1 x.1 :=
    ⟨fun x => acyclic x.1 x.2.2⟩
  exact Finite.wellFounded_of_trans_of_irrefl _

/-- **From an acyclic value every descent through array elements ends.** -/
theorem AcyclicFrom.acc {v : Value} (acyclic : h.AcyclicFrom v) {a : ArrayRef}
    (contained : h.Contains v a) : Acc (flip h.Encloses) a := by
  -- a descent ends at once where there is no record
  have absent (b : ArrayRef) (missing : ¬ b.index < h.arrays.length) : Acc (flip h.Encloses) b :=
    .intro b fun c step => absurd (lt_length_of_encloses step) missing
  have present (x : h.Inner v) : Acc (flip h.Encloses) x.1 := by
    induction x using acyclic.wellFounded.induction with
    | _ x ih =>
      refine .intro _ fun b step => ?_
      by_cases there : b.index < h.arrays.length
      · obtain ⟨root, rfl, walk⟩ := x.2.2
        exact ih ⟨b, there, root, rfl, walk.tail step⟩ (.single step)
      · exact absent b there
  by_cases there : a.index < h.arrays.length
  · exact present ⟨a, there, contained⟩
  · exact absent a there

theorem not_transGen_of_acc {a : ArrayRef} (ends : Acc (flip h.Encloses) a) :
    ¬ TransGen h.Encloses a a := by
  induction ends with
  | intro a _ ih =>
    intro cycle
    obtain ⟨b, step, back⟩ := TransGen.head'_iff.mp cycle
    -- the cycle can as well be entered at the next array
    exact ih b step (.tail' back step)

/-- A value from which every descent through array elements ends is acyclic. -/
theorem acyclicFrom_of_acc {v : Value} (ends : ∀ a, v = .array a → Acc (flip h.Encloses) a) :
    h.AcyclicFrom v := by
  rintro c ⟨a, rfl, walk⟩
  refine not_transGen_of_acc ?_
  have start := ends a rfl
  induction walk with
  | refl => exact start
  | tail _ step ih => exact ih.inv step

end LoxValues.Heap
