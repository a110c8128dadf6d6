import LoxValues.Proofs.Equivalence
import LoxValues.Proofs.Layers
import LoxValues.Proofs.Rounding
import LoxValues.World.Conversion

/-!
# Equal values behave alike

What can be told apart about two equal values.  Nothing, as far as the operators and conversions go:
they look at numbers and texts, which equal values share, except that the two zeros are equal and
stay two floats.  Only not-a-number, which is equal to itself because it shares its box, loses this as
soon as it leaves the box: as a number it differs from itself, and negated twice it is in two boxes.

Rendering looks further down.  Equal arrays may be wired in different ways — one holding an array
twice where the other holds two copies — and yet come out as the same text, at whatever bound on
depth, with two exceptions.  An array that contains itself is cut off where it comes back to itself,
which depends on the wiring; and the two zeros do not look the same.

## What is here

* `AlikeOutcomes` — two calls with related results, or with failures of the same sort.
* `Heap.Shows` — the values that are shown in the text of another.
* `Heap.AcyclicFrom.of_bisimilar` — what is bisimilar to an acyclic value is acyclic.
* `Heap.layered_eq_of_bisimilar` — bisimilar values are written alike, if no zero is shown.
* `World.alike_of_equal` — all of it for values that compare as equal.
-/

set_option autoImplicit false
namespace LoxValues

/-! ## Numbers -/

section Numbers

variable {f : Format} {x y : Binary f}

theorem Binary.isZero_eq_of_numEq (h : x.numEq y = true) : x.isZero = y.isZero := by
  rcases numEq_iff.mp h with ⟨-, rfl⟩ | ⟨hx, hy⟩
  · rfl
  · rw [hx, hy]

theorem Binary.isZero_negate (x : Binary f) : x.negate.isZero = x.isZero := by
  cases x <;> rfl

theorem Binary.negate_ne_nan (ne : x ≠ .nan) : x.negate ≠ .nan := by
  cases x with
  | nan => exact absurd rfl ne
  | infinite negative => exact nofun
  | finite negative rank => exact nofun

theorem Binary.numEq_negate (h : x.numEq y = true) : x.negate.numEq y.negate = true := by
  rw [numEq_iff] at h ⊢
  rcases h with ⟨ne, rfl⟩ | ⟨hx, hy⟩
  · exact .inl ⟨negate_ne_nan ne, rfl⟩
  · exact .inr ⟨by rw [isZero_negate, hx], by rw [isZero_negate, hy]⟩

/-- Rounding never comes to not-a-number. -/
theorem Binary.ofRank_ne_nan (negative : Bool) (rank : Nat) : (ofRank negative rank : Binary f) ≠ .nan := by
  rw [ofRank]
  split <;> exact nofun

theorem Binary.convert_ne_nan {g : Format} (ne : x ≠ .nan) : x.convert g ≠ .nan := by
  cases x with
  | nan => exact absurd rfl ne
  | infinite negative => exact nofun
  | finite negative rank => exact ofRank_ne_nan negative _

theorem Double.truncate_of_isZero {x : Double} (zero : x.isZero = true) : x.truncate = 0 := by
  cases x with
  | nan => rfl
  | infinite negative => cases zero
  | finite negative rank =>
    have least : rank.val = 0 := by simpa [Binary.isZero] using zero
    rw [truncate, least, Format.units_zero, Nat.cast_zero, Int.zero_ediv]
    cases negative <;> rfl

theorem Double.truncate_eq_of_numEq {x y : Double} (h : x.numEq y = true) :
    x.truncate = y.truncate := by
  rcases Binary.numEq_iff.mp h with ⟨-, rfl⟩ | ⟨hx, hy⟩
  · rfl
  · rw [truncate_of_isZero hx, truncate_of_isZero hy]

end Numbers

/-! ## Operators and conversions -/

namespace Value.Related

variable {R : DescriptorRelation} {a b : Value}

theorem isTruthy_eq (related : a.Related R b) : a.isTruthy = b.isTruthy := by
  cases related with
  | float h => rw [isTruthy, isTruthy, Binary.isZero_eq_of_numEq h]
  | _ => rfl

theorem isNumber_eq (related : a.Related R b) : a.isNumber = b.isNumber := by
  cases related <;> rfl

theorem isClass_eq (related : a.Related R b) : a.isClass = b.isClass := by
  cases related <;> rfl

theorem isTrait_eq (related : a.Related R b) : a.isTrait = b.isTrait := by
  cases related <;> rfl

theorem toInteger?_eq (related : a.Related R b) : a.toInteger? = b.toInteger? := by
  cases related with
  | float h => rw [toInteger?, toInteger?, Double.truncate_eq_of_numEq h]
  | _ => rfl

theorem toText?_eq (related : a.Related R b) : a.toText? = b.toText? := by
  cases related <;> rfl

/-- Only the very same not-a-number is related to not-a-number. -/
theorem eq_of_isNan (related : a.Related R b) (nan : a.isNan = true) : b = a := by
  cases related with
  | float h =>
    rw [isNan_float_iff.mp nan] at h
    cases h
  | box x i => rfl
  | _ => cases nan

theorem toFloat?_numEq (related : a.Related R b) (number : a.isNan = false) :
    Option.Rel (fun x y : Double => x.numEq y = true) a.toFloat? b.toFloat? := by
  cases related with
  | float h => exact .some h
  | box x i =>
    refine .some (Binary.numEq_self_iff.mpr fun nan => ?_)
    rw [isNan_float_iff.mpr nan] at number
    cases number
  | int n =>
    refine .some (Binary.numEq_self_iff.mpr (Binary.convert_ne_nan (Binary.convert_ne_nan ?_)))
    exact Binary.ofRank_ne_nan _ _
  | _ => exact .none

end Value.Related

/-- Two calls with related results, or both failing for a value of the wrong sort. -/
inductive AlikeOutcomes {α : Type} (R : α → α → Prop) : Except Fault α → Except Fault α → Prop
  | ok {x y : α} (h : R x y) : AlikeOutcomes R (.ok x) (.ok y)
  | mismatch (expected : Expectation) (v w : Option Value) :
      AlikeOutcomes R (.error (.mismatch ⟨expected, v⟩)) (.error (.mismatch ⟨expected, w⟩))

theorem World.expect_alike {α : Type} {R : α → α → Prop} {expected : Expectation} {a b : Value}
    {r s : Option α} (related : Option.Rel R r s) (w : World) :
    AlikeOutcomes R (w.expect expected a r).1 (w.expect expected b s).1 := by
  cases related with
  | some h => exact .ok h
  | none => exact .mismatch expected _ _

theorem optionRel_of_eq {α : Type} {r s : Option α} (same : r = s) : Option.Rel Eq r s := by
  subst same
  cases r with
  | none => exact .none
  | some x => exact .some rfl

namespace Heap

variable {h : Heap}

/-! ## Comparing numbers -/

/-- Numbers compare as equal if they are identical. -/
theorem equal?_of_isNumber {a : Value} (number : a.isNumber = true) (b : Value) :
    h.equal? a b = some (a.identical b) := by
  refine equal?_eq_identical (.inl ?_)
  cases a with
  | int n => rfl
  | float x box => rfl
  | _ => cases number

/-- Floats with equal numbers are equal, whatever boxes they are in. -/
theorem equal?_of_numEq {x y : Double} (eq : x.numEq y = true) (i j : Nat) :
    h.equal? (.float x i) (.float y j) = some true := by
  rw [equal?_of_isNumber rfl, Value.identical_float_iff.mpr (.inr eq)]

/-- Two not-a-numbers are equal only in one box. -/
theorem equal?_nan (i j : Nat) : h.equal? (.float .nan i) (.float .nan j) = some (decide (i = j)) := by
  have same : (Value.float .nan i).identical (.float .nan j) = decide (i = j) := by
    rw [Bool.eq_iff_iff, Value.identical_float_iff, decide_eq_true_iff]
    simp [Binary.numEq, Binary.isZero]
  rw [equal?_of_isNumber rfl, same]

theorem equal?_negated? {a b : Value} (related : h.BisimilarValues a b) (number : a.isNan = false)
    (i j : Nat) :
    Option.Rel (fun x y => h.equal? x y = some true) (a.negated? i) (b.negated? j) := by
  cases related with
  | float eq => exact .some (equal?_of_numEq (Binary.numEq_negate eq) i j)
  | box x k =>
    refine .some (equal?_of_numEq (Binary.numEq_negate (Binary.numEq_self_iff.mpr fun nan => ?_)) i j)
    rw [Value.isNan_float_iff.mpr nan] at number
    cases number
  | int n =>
    refine .some ?_
    rw [equal?_of_isNumber rfl]
    simp [Value.identical]
  | _ => exact .none

/-! ## Texts -/

/-- Whatever is read alike from matching records is read alike from two records that match. -/
theorem RecordsMatch.map_eq {α β : Type} {P : α → α → Prop} {r s : Option α} {read : α → β}
    (m : RecordsMatch P r s) (alike : ∀ {x y}, P x y → read x = read y) : r.map read = s.map read := by
  obtain ⟨x, hx, y, hy, h⟩ := m
  rw [Option.mem_def.mp hx, Option.mem_def.mp hy, Option.map_some, Option.map_some, alike h]

/-- Bisimilar functions have the same name and parameters. -/
theorem nameAndParams_of_bisimilar {f g : FunctionRef}
    (related : h.Bisimilar (.function f) (.function g)) :
    (h.function? f).map (fun r => (r.name, r.params)) =
      (h.function? g).map fun r => (r.name, r.params) := by
  rcases bisimilar_isBisimulation _ _ related with same | records
  · cases same
    rfl
  · exact RecordsMatch.map_eq records fun m => by rw [m.name, m.params]

theorem className_of_bisimilar {c d : ClassRef} (related : h.Bisimilar (.cls c) (.cls d)) :
    h.className c = h.className d := by
  rcases bisimilar_isBisimulation _ _ related with same | records
  · cases same
    rfl
  · exact congrArg (Option.getD · "") (RecordsMatch.map_eq records ClassRecord.Matches.name)

theorem classNameOf_of_bisimilar {o p : ObjectRef}
    (related : h.Bisimilar (.object o) (.object p)) : h.classNameOf o = h.classNameOf p := by
  rcases bisimilar_isBisimulation _ _ related with same | records
  · cases same
    rfl
  · exact congrArg (Option.getD · "")
      (RecordsMatch.map_eq records fun m => className_of_bisimilar m.cls)

theorem traitName_of_bisimilar {s t : TraitRef} (related : h.Bisimilar (.trait s) (.trait t)) :
    (h.trait? s).map (·.name) = (h.trait? t).map (·.name) := by
  rcases bisimilar_isBisimulation _ _ related with same | records
  · cases same
    rfl
  · exact RecordsMatch.map_eq records (congrArg _)

/-- Bisimilar values have the same text of their own, if they are not the two zeros. -/
theorem text_of_bisimilar {a b : Value} (related : h.BisimilarValues a b)
    (nonzero : ∀ x box, a = .float x box → x.isZero = false) : h.text a = h.text b := by
  cases related with
  | float eq =>
    rcases Binary.numEq_iff.mp eq with ⟨-, rfl⟩ | ⟨zero, -⟩
    · rfl
    · rw [nonzero _ _ rfl] at zero
      cases zero
  | function hf => rw [text, text, FunctionRecord.map_text (nameAndParams_of_bisimilar hf)]
  | method hf ho =>
    rw [text, text, FunctionRecord.map_name (nameAndParams_of_bisimilar hf),
      classNameOf_of_bisimilar ho]
  | cls hc => exact className_of_bisimilar hc
  | object ho => rw [text, text, classNameOf_of_bisimilar ho]
  | trait ht => rw [text, text, traitName_of_bisimilar ht]
  | _ => rfl

/-! ## Arrays -/

theorem exists_mem_of_forall₂ {α β : Type} {P : α → β → Prop} {xs : List α} {ys : List β}
    (all : List.Forall₂ P xs ys) {y : β} (mem : y ∈ ys) : ∃ x ∈ xs, P x y := by
  induction all with
  | nil => cases mem
  | cons head _ ih =>
    rcases List.mem_cons.mp mem with rfl | later
    · exact ⟨_, List.mem_cons_self, head⟩
    · obtain ⟨x, hx, related⟩ := ih later
      exact ⟨x, List.mem_cons_of_mem _ hx, related⟩

/-- Bisimilar arrays are the same, or have bisimilar elements. -/
theorem elements_of_bisimilar {a b : ArrayRef} (related : h.Bisimilar (.array a) (.array b)) :
    a = b ∨ List.Forall₂ h.BisimilarValues (h.elements a) (h.elements b) := by
  rcases bisimilar_isBisimulation _ _ related with same | ⟨r, hr, s, hs, m⟩
  · cases same
    exact .inl rfl
  · rw [elements, elements, Option.mem_def.mp hr, Option.mem_def.mp hs]
    exact .inr m.elements

/-- An array among the elements of one of two bisimilar arrays has its like in the other. -/
theorem Encloses.of_bisimilar {a b d : ArrayRef} (related : h.Bisimilar (.array a) (.array b))
    (step : h.Encloses b d) : ∃ c, h.Encloses a c ∧ h.Bisimilar (.array c) (.array d) := by
  rcases elements_of_bisimilar related with rfl | all
  · exact ⟨d, step, bisimilar_refl _⟩
  · obtain ⟨v, mem, alike⟩ := exists_mem_of_forall₂ all step
    cases alike with
    | array alike => exact ⟨_, mem, alike⟩

theorem acc_of_bisimilar {a b : ArrayRef} (ends : Acc (flip h.Encloses) a)
    (related : h.Bisimilar (.array a) (.array b)) : Acc (flip h.Encloses) b := by
  induction ends generalizing b with
  | intro a _ ih =>
    refine .intro b fun d step => ?_
    obtain ⟨c, step', alike⟩ := Encloses.of_bisimilar related step
    exact ih c step' alike

/-- **What is bisimilar to an acyclic value is acyclic**: a cycle would unroll to a descent without end
on the other side. -/
theorem AcyclicFrom.of_bisimilar {a b : Value} (acyclic : h.AcyclicFrom a)
    (related : h.BisimilarValues a b) : h.AcyclicFrom b := by
  refine acyclicFrom_of_acc ?_
  rintro c rfl
  cases related with
  | array alike => exact acc_of_bisimilar (acyclic.acc (contains_self _)) alike

/-! ## What is shown -/

/-- A value is shown in the text of another, in which arrays are shown down to so many levels. -/
inductive Shows (h : Heap) : (levels : Nat) → Value → Value → Prop
  /-- Every value shows itself. -/
  | self {levels : Nat} {v : Value} : Shows h levels v v
  /-- An array shows what its elements show. -/
  | element {levels : Nat} {a : ArrayRef} {v u : Value} (mem : v ∈ h.elements a)
      (shown : Shows h levels v u) : Shows h (levels + 1) (.array a) u

/-- What a value and all elements of arrays have in common, all that it shows has. -/
theorem Shows.of_forall {P : Value → Prop} {levels : Nat} {v u : Value}
    (shown : h.Shows levels v u) (here : P v) (elements : ∀ a, ∀ v ∈ h.elements a, P v) : P u := by
  induction shown with
  | self => exact here
  | element mem _ ih => exact ih (elements _ _ mem)

/-- Bisimilar values are both arrays or neither. -/
theorem BisimilarValues.arrays_or_others {a b : Value} (related : h.BisimilarValues a b) :
    (∃ c d, a = .array c ∧ b = .array d ∧ h.Bisimilar (.array c) (.array d)) ∨
      ((∀ c, a ≠ .array c) ∧ ∀ d, b ≠ .array d) := by
  cases related with
  | array alike => exact .inl ⟨_, _, rfl, rfl, alike⟩
  | _ => exact .inr ⟨nofun, nofun⟩

theorem layered_eq_of_ne_array {levels depth : Nat} {a b : Value} (related : h.BisimilarValues a b)
    (otherA : ∀ c, a ≠ .array c) (otherB : ∀ d, b ≠ .array d)
    (nonzero : ∀ x box, a = .float x box → x.isZero = false) :
    h.layered levels depth a = h.layered levels depth b := by
  rw [layered_of_ne_array otherA, layered_of_ne_array otherB, text_of_bisimilar related nonzero]

/-- **Bisimilar values are written alike** by a renderer that only counts, if no zero is shown. -/
theorem layered_eq_of_bisimilar {levels depth : Nat} {a b : Value}
    (related : h.BisimilarValues a b)
    (nonzero : ∀ x box, h.Shows levels a (.float x box) → x.isZero = false) :
    h.layered levels depth a = h.layered levels depth b := by
  induction levels generalizing depth a b with
  | zero =>
    rcases related.arrays_or_others with ⟨c, d, rfl, rfl, -⟩ | ⟨otherA, otherB⟩
    · rw [layered, layered]
    · exact layered_eq_of_ne_array related otherA otherB fun x box same => nonzero x box (same ▸ .self)
  | succ levels ih =>
    rcases related.arrays_or_others with ⟨c, d, rfl, rfl, alike⟩ | ⟨otherA, otherB⟩
    · rcases elements_of_bisimilar alike with rfl | all
      · rfl
      · obtain ⟨length, each⟩ := List.forall₂_iff_zip.mp all
        rw [layered, layered]
        refine congrArg Piece.bracket ?_
        rw [← List.forall₂_eq_eq_eq, List.forall₂_map_left_iff, List.forall₂_map_right_iff,
          List.forall₂_iff_zip]
        refine ⟨length, fun {v u} mem => ih (each mem) fun x box shown => ?_⟩
        exact nonzero x box (.element (List.of_mem_zip mem).1 shown)
    · exact layered_eq_of_ne_array related otherA otherB fun x box same => nonzero x box (same ▸ .self)

end Heap

/-! ## Equal values -/

namespace World

/-- What rendering reads before it looks into an array does not depend on which array it is. -/
theorem prepared_eq_of_bisimilar {w : World} (idle : w.rendering = []) {a b : Value}
    (related : w.heap.BisimilarValues a b) : w.prepared a = w.prepared b := by
  rcases related.arrays_or_others with ⟨c, d, rfl, rfl, -⟩ | ⟨otherA, otherB⟩
  · simp [prepared, idle]
  · rw [prepared_of_ne_array otherA, prepared_of_ne_array otherB]

/-- **Equal values behave alike.**  Two values that compare as equal are both truthy or neither, and
both numbers, classes or traits or neither.  As an integer and as a text they are the same, or else
both fail, for want of the same sort of value.  As a float and negated they are equal, or both fail,
unless they are not-a-number: then they are one value, both are not-a-number as a float, and their
negatives are not-a-number in the boxes that these were made in, and equal only if the boxes are the
same.  If moreover, when nothing is being rendered, no array reaches itself from the first, and no zero
is shown in its text, then both are rendered as the same text, with the same records. -/
theorem alike_of_equal {w : World} {a b : Value} (equal : w.heap.equal? a b = some true) :
    a.isTruthy = b.isTruthy ∧ a.isNumber = b.isNumber ∧ a.isClass = b.isClass ∧
    a.isTrait = b.isTrait ∧
    AlikeOutcomes Eq (w.toInteger a).1 (w.toInteger b).1 ∧
    AlikeOutcomes Eq (w.toText a).1 (w.toText b).1 ∧
    (a.isNan = false →
      AlikeOutcomes (fun x y => x.numEq y = true) (w.toFloat a).1 (w.toFloat b).1 ∧
      ∀ i j, AlikeOutcomes (fun x y => w.heap.equal? x y = some true) (w.negate a i).1
        (w.negate b j).1) ∧
    (a.isNan = true → b = a ∧ (w.toFloat a).1 = .ok .nan ∧ ∀ i j,
      (w.negate a i).1 = .ok (.float .nan i) ∧
      w.heap.equal? (.float .nan i) (.float .nan j) = some (decide (i = j))) ∧
    (w.rendering = [] → w.heap.AcyclicFrom a →
      (∀ x box, w.heap.Shows w.depthLimit a (.float x box) → x.isZero = false) →
      w.render a = w.render b) := by
  have related := Heap.bisimilarValues_of_equal? equal
  refine ⟨related.isTruthy_eq, related.isNumber_eq, related.isClass_eq, related.isTrait_eq,
    expect_alike (optionRel_of_eq related.toInteger?_eq) w,
    expect_alike (optionRel_of_eq related.toText?_eq) w,
    fun number => ⟨expect_alike (related.toFloat?_numEq number) w,
      fun i j => expect_alike (Heap.equal?_negated? related number i j) w⟩,
    fun nan => ?_, fun idle acyclic nonzero => ?_⟩
  · obtain ⟨box, rfl⟩ := Value.exists_of_isNan nan
    exact ⟨related.eq_of_isNan nan, rfl, fun i j => ⟨rfl, Heap.equal?_nan i j⟩⟩
  · have acyclic' := acyclic.of_bisimilar related
    have same : w.heap.unfolding w.depthLimit [] a = w.heap.unfolding w.depthLimit [] b := by
      rw [acyclic.unfolding_eq (List.forall_mem_nil _), acyclic'.unfolding_eq (List.forall_mem_nil _)]
      exact Heap.layered_eq_of_bisimilar related nonzero
    rw [render_eq, render_eq, idle, same, prepared_eq_of_bisimilar idle related]

/-- A world with an array of not-a-number, and two arrays that have it among their elements: one has
another array twice beside it, and one has that array and a copy. -/
def wiredApart : World :=
  { fresh .empty none .listening with
    heap := { Heap.empty with
      arrays := [⟨1, [.float .nan 0]⟩, ⟨1, [.int 1]⟩, ⟨1, [.int 1]⟩,
        ⟨3, [.array ⟨0⟩, .array ⟨1⟩, .array ⟨1⟩]⟩, ⟨3, [.array ⟨0⟩, .array ⟨1⟩, .array ⟨2⟩]⟩] } }

theorem acyclicFrom_wiredApart (v : Value) : wiredApart.heap.AcyclicFrom v := by
  refine Heap.acyclicFrom_of_rank ArrayRef.index ?_ v
  rintro ⟨_ | _ | _ | _ | _ | i⟩ b step
  all_goals
    simp [Heap.Encloses, Heap.elements, Heap.array?, wiredApart, fresh] at step
  · rcases step with rfl | rfl <;> decide
  · rcases step with rfl | rfl | rfl <;> decide

theorem nonzero_wiredApart (a : ArrayRef) (v : Value) (mem : v ∈ wiredApart.heap.elements a)
    (x : Double) (box : Nat) (float : v = .float x box) : x.isZero = false := by
  subst float
  obtain ⟨_ | _ | _ | _ | _ | i⟩ := a
  all_goals
    simp [Heap.elements, Heap.array?, wiredApart, fresh] at mem
  rw [mem.1]
  rfl

/-- The two arrays are equal, and rendered alike. -/
theorem alike_wiredApart : wiredApart.heap.equal? (.array ⟨3⟩) (.array ⟨4⟩) = some true ∧
    wiredApart.render (.array ⟨3⟩) = wiredApart.render (.array ⟨4⟩) ∧
    (wiredApart.render (.array ⟨4⟩)).1 = "[[NaN], [1], [1]]" := by
  have equal : wiredApart.heap.equal? (.array ⟨3⟩) (.array ⟨4⟩) = some true := by decide
  obtain ⟨-, -, -, -, -, -, -, -, rendered⟩ := alike_of_equal equal
  refine ⟨equal, rendered rfl (acyclicFrom_wiredApart _) fun x box shown => ?_, by decide +kernel⟩
  exact shown.of_forall (P := fun v => ∀ x box, v = .float x box → x.isZero = false) nofun
    nonzero_wiredApart x box rfl

/-- **Not-a-number behaves apart from itself.**  It is equal to itself, but not as a number, and its
negatives are not equal when each is made in a box of its own. -/
theorem nan_negated_apart :
    wiredApart.heap.equal? (.float .nan 0) (.float .nan 0) = some true ∧
    (wiredApart.toFloat (.float .nan 0)).1 = .ok .nan ∧ (Binary.nan : Double).numEq .nan = false ∧
    (wiredApart.negate (.float .nan 0) 1).1 = .ok (.float .nan 1) ∧
    (wiredApart.negate (.float .nan 0) 2).1 = .ok (.float .nan 2) ∧
    wiredApart.heap.equal? (.float .nan 1) (.float .nan 2) = some false :=
  ⟨by decide, rfl, rfl, rfl, rfl, by decide⟩

end World
end LoxValues
