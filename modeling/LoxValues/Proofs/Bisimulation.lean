import LoxValues.Heap.Equality
import Mathlib.Data.List.Forall2
import Mathlib.Data.List.Perm.Basic
import Mathlib.Data.List.Perm.Subperm

/-!
# Bisimilar descriptors

What structural equality is meant to decide, said without any walk over the heap.  A relation
between descriptors is a *bisimulation* if every two descriptors it relates are either the same one
or *match*: they are of the same kind, agree in names, numbers and texts, and their parts are
related again.  Two descriptors are *bisimilar* if some bisimulation relates them.

## What is here

* `Value.Related R` — two values of the same variant with equal payloads, or with descriptors
  related by `R`.  Of floats it is enough to share a box, be there a number in it or not.
* `Heap.Matches R` — two descriptors whose records agree up to `R`.
* `Heap.Bisimilar` — the union of all bisimulations, which is a bisimulation itself
  (`Heap.bisimilar_isBisimulation`) and contains every other (`Heap.IsBisimulation.le_bisimilar`).
* `Goal.Holds R` — what a goal of the comparison says when descriptors are compared by `R`.  The
  parts of a pair hold exactly if the pair matches (`Heap.forall_parts_iff`), which is all that the
  two sides have to do with each other.
-/

set_option autoImplicit false
namespace LoxValues

/-- A relation between descriptors. -/
abbrev DescriptorRelation := Descriptor → Descriptor → Prop

/-! ## Related records -/

/-- Two values of the same variant, with payloads that are equal — floats as numbers, or because they
have one payload in one box — or with related descriptors. -/
inductive Value.Related (R : DescriptorRelation) : Value → Value → Prop
  | nil : Related R .nil .nil
  | uninitialized : Related R .uninitialized .uninitialized
  | bool (b : Bool) : Related R (.bool b) (.bool b)
  | int (n : Int) : Related R (.int n) (.int n)
  | float {x y : Double} {i j : Nat} (h : x.numEq y = true) : Related R (.float x i) (.float y j)
  | box (x : Double) (i : Nat) : Related R (.float x i) (.float x i)
  | string (s : String) : Related R (.string s) (.string s)
  | function {f g : FunctionRef} (h : R (.function f) (.function g)) :
      Related R (.function f) (.function g)
  | method {f g : FunctionRef} {o p : ObjectRef} (hf : R (.function f) (.function g))
      (ho : R (.object o) (.object p)) : Related R (.method f o) (.method g p)
  | cls {c d : ClassRef} (h : R (.cls c) (.cls d)) : Related R (.cls c) (.cls d)
  | object {o p : ObjectRef} (h : R (.object o) (.object p)) : Related R (.object o) (.object p)
  | trait {s t : TraitRef} (h : R (.trait s) (.trait t)) : Related R (.trait s) (.trait t)
  | array {a b : ArrayRef} (h : R (.array a) (.array b)) : Related R (.array a) (.array b)
  | module (name : String) : Related R (.module name) (.module name)
  | foreign (n : Int) : Related R (.foreign n) (.foreign n)

/-- Two closures that are equal or hold related values. -/
inductive Closure.Related (R : DescriptorRelation) : Closure → Closure → Prop
  | none : Related R .none .none
  | mark (s : String) : Related R (.mark s) (.mark s)
  | value {v w : Value} (h : v.Related R w) : Related R (.value v) (.value w)

/-- Two tables with the same names and related entries under each name. -/
def Table.Related {α : Type} (R : α → α → Prop) (s t : Table α) : Prop :=
  ∀ name, Option.Rel R (s.get? name) (t.get? name)

/-- Two functions that agree up to what they close over, which is related. -/
structure FunctionRecord.Matches (R : DescriptorRelation) (r s : FunctionRecord) : Prop where
  name : r.name = s.name
  params : r.params = s.params
  body : r.body = s.body
  closure : r.closure.Related R s.closure
  initializer : r.initializer = s.initializer

/-- Two method tables with the same names and related functions under each name. -/
def methodsRelated (R : DescriptorRelation) (s t : Table FunctionRef) : Prop :=
  s.Related (fun f g => R (.function f) (.function g)) t

/-- Two classes that agree up to their methods and superclasses, which are related. -/
structure ClassRecord.Matches (R : DescriptorRelation) (r s : ClassRecord) : Prop where
  name : r.name = s.name
  methods : methodsRelated R r.methods s.methods
  statics : methodsRelated R r.statics s.statics
  getters : methodsRelated R r.getters s.getters
  setters : methodsRelated R r.setters s.setters
  superclass : Option.Rel (fun c d => R (.cls c) (.cls d)) r.superclass s.superclass
  traits : r.traits = s.traits

/-- Two objects with related classes and, under the same names, related fields. -/
structure ObjectRecord.Matches (R : DescriptorRelation) (r s : ObjectRecord) : Prop where
  cls : R (.cls r.cls) (.cls s.cls)
  fields : r.fields.Related (Value.Related R) s.fields

/-- Two arrays of the same capacity and length with related elements. -/
structure ArrayRecord.Matches (R : DescriptorRelation) (r s : ArrayRecord) : Prop where
  capacity : r.capacity = s.capacity
  elements : List.Forall₂ (Value.Related R) r.elements s.elements

namespace Heap

/-- Two records that are both there and match. -/
def RecordsMatch {α : Type} (P : α → α → Prop) (r s : Option α) : Prop :=
  ∃ x ∈ r, ∃ y ∈ s, P x y

/-- Two descriptors of the same kind whose records match. -/
def Matches (h : Heap) (R : DescriptorRelation) : Descriptor → Descriptor → Prop
  | .function f, .function g => RecordsMatch (FunctionRecord.Matches R) (h.function? f) (h.function? g)
  | .cls c, .cls d => RecordsMatch (ClassRecord.Matches R) (h.class? c) (h.class? d)
  | .object o, .object p => RecordsMatch (ObjectRecord.Matches R) (h.object? o) (h.object? p)
  | .trait s, .trait t => RecordsMatch Eq (h.trait? s) (h.trait? t)
  | .array a, .array b => RecordsMatch (ArrayRecord.Matches R) (h.array? a) (h.array? b)
  | _, _ => False

/-- Whatever two descriptors the relation relates, they are the same or match. -/
def IsBisimulation (h : Heap) (R : DescriptorRelation) : Prop :=
  ∀ x y, R x y → x = y ∨ h.Matches R x y

/-- Two descriptors that some bisimulation relates. -/
def Bisimilar (h : Heap) (x y : Descriptor) : Prop := ∃ R, h.IsBisimulation R ∧ R x y

end Heap

/-! ## Tables as maps -/

namespace Table

variable {α : Type}

/-- A table all of whose names another table of the same size has has all names of the other. -/
theorem names_subset_of_size {s t : Table α} (size : s.size = t.size)
    (h : names s.entries ⊆ names t.entries) : names t.entries ⊆ names s.entries := by
  have perm := (List.subperm_of_subset s.distinct h).perm_of_length_le (by
    simpa [names, Table.size] using Nat.le_of_eq size.symm)
  exact perm.symm.subset

theorem size_eq_of_related {R : α → α → Prop} {s t : Table α} (h : s.Related R t) :
    s.size = t.size := by
  have subset : ∀ n, n ∈ names s.entries ↔ n ∈ names t.entries := by
    intro n
    rw [mem_names_iff, mem_names_iff]
    have same := h n
    revert same
    cases s.get? n <;> cases t.get? n <;> rintro ⟨⟩ <;> simp
  have perm := (List.perm_ext_iff_of_nodup s.distinct t.distinct).mpr subset
  simpa [names, Table.size] using perm.length_eq

end Table

/-! ## What the goals of a comparison say -/

/-- What a goal says when descriptors are compared by a relation. -/
def Goal.Holds (R : DescriptorRelation) : Goal → Prop
  | .check holds => holds = true
  | .functions f g => R (.function f) (.function g)
  | .classes c d => R (.cls c) (.cls d)
  | .objects o p => R (.object o) (.object p)
  | .traits s t => R (.trait s) (.trait t)
  | .arrays a b => R (.array a) (.array b)

section Goals

variable {R : DescriptorRelation}

@[simp] theorem Goal.holds_check {b : Bool} : (check b).Holds R ↔ b = true := Iff.rfl

@[simp] theorem Goal.holds_functions {f g : FunctionRef} :
    (functions f g).Holds R ↔ R (.function f) (.function g) := Iff.rfl

@[simp] theorem Goal.holds_classes {c d : ClassRef} :
    (classes c d).Holds R ↔ R (.cls c) (.cls d) := Iff.rfl

@[simp] theorem Goal.holds_objects {o p : ObjectRef} :
    (objects o p).Holds R ↔ R (.object o) (.object p) := Iff.rfl

@[simp] theorem Goal.holds_traits {s t : TraitRef} :
    (traits s t).Holds R ↔ R (.trait s) (.trait t) := Iff.rfl

@[simp] theorem Goal.holds_arrays {a b : ArrayRef} :
    (arrays a b).Holds R ↔ R (.array a) (.array b) := Iff.rfl

theorem Goal.Holds.mono {S : DescriptorRelation} (le : ∀ x y, R x y → S x y) {g : Goal}
    (holds : g.Holds R) : g.Holds S := by
  cases g with
  | check b => exact holds
  | functions f g => exact le _ _ holds
  | classes c d => exact le _ _ holds
  | objects o p => exact le _ _ holds
  | traits s t => exact le _ _ holds
  | arrays a b => exact le _ _ holds

/-! ### Values, closures and tables -/

theorem Value.related_of_goals {v w : Value} (h : ∀ g ∈ v.goals w, g.Holds R) : v.Related R w := by
  revert h
  fun_cases Value.goals v w with
  | case1 f g => intro h; exact .function (by simpa using h)
  | case2 f o g p => intro h; exact .method (by simp_all) (by simp_all)
  | case3 c d => intro h; exact .cls (by simpa using h)
  | case4 o p => intro h; exact .object (by simpa using h)
  | case5 s t => intro h; exact .trait (by simpa using h)
  | case6 a b => intro h; exact .array (by simpa using h)
  | case7 v w hf hm hc ho ht ha =>
    intro h
    have identical : v.identical w = true := by simpa using h
    revert identical
    fun_cases Value.identical v w with
    | case1 x i y j =>
      intro same
      rcases Value.identical_float_iff.mp same with ⟨rfl, rfl⟩ | same
      · exact .box x i
      · exact .float same
    | case2 v w hn =>
      intro same
      obtain rfl : v = w := by simpa using same
      cases v with
      | nil => exact .nil
      | uninitialized => exact .uninitialized
      | bool b => exact .bool b
      | int n => exact .int n
      | string s => exact .string s
      | module name => exact .module name
      | foreign n => exact .foreign n
      | float x i => exact (hn x i x i rfl rfl).elim
      | function f => exact (hf f f rfl rfl).elim
      | method f o => exact (hm f o f o rfl rfl).elim
      | cls c => exact (hc c c rfl rfl).elim
      | object o => exact (ho o o rfl rfl).elim
      | trait t => exact (ht t t rfl rfl).elim
      | array a => exact (ha a a rfl rfl).elim

/-- What has to hold for two values to be equal says that they are related. -/
theorem Value.forall_goals_iff {v w : Value} : (∀ g ∈ v.goals w, g.Holds R) ↔ v.Related R w := by
  refine ⟨Value.related_of_goals, fun h => ?_⟩
  cases h <;> simp [Value.goals, Value.identical, *]

theorem Closure.forall_goals_iff {c d : Closure} :
    (∀ g ∈ c.goals d, g.Holds R) ↔ c.Related R d := by
  constructor
  · intro h
    cases c with
    | none => cases d <;> first | exact .none | simp [Closure.goals] at h
    | mark s =>
      cases d with
      | mark t =>
        obtain rfl : s = t := by simpa [Closure.goals] using h
        exact .mark s
      | none | value => simp [Closure.goals] at h
    | value v =>
      cases d with
      | value w => exact .value (Value.forall_goals_iff.mp h)
      | none | mark => simp [Closure.goals] at h
  · intro h
    cases h with
    | none => simp [Closure.goals]
    | mark s => simp [Closure.goals]
    | value h => exact Value.forall_goals_iff.mpr h

theorem forall_elementGoals_iff {vs ws : List Value} :
    (∀ g ∈ elementGoals vs ws, g.Holds R) ↔ List.Forall₂ (Value.Related R) vs ws := by
  rw [elementGoals, List.forall_mem_cons, List.forall₂_iff_zip]
  refine and_congr (by simp) ?_
  simp only [List.mem_flatMap, forall_exists_index, and_imp, Prod.forall]
  exact ⟨fun h v w hm => Value.forall_goals_iff.mp fun g hg => h g v w hm hg,
    fun h g v w hm hg => Value.forall_goals_iff.mpr (h hm) g hg⟩

theorem Table.forall_goals_iff {α : Type} {entryGoals : α → α → List Goal} {P : α → α → Prop}
    (entry : ∀ x y, (∀ g ∈ entryGoals x y, g.Holds R) ↔ P x y) {s t : Table α} :
    (∀ g ∈ s.goals entryGoals t, g.Holds R) ↔ s.Related P t := by
  rw [Table.goals, List.forall_mem_cons]
  simp only [List.mem_flatMap, forall_exists_index, and_imp, Prod.forall, Table.mem_entries_iff,
    Goal.holds_check, beq_iff_eq]
  constructor
  · rintro ⟨size, h⟩
    have found : ∀ n x, s.get? n = some x → ∃ y, t.get? n = some y ∧ P x y := by
      intro n x hx
      cases hy : t.get? n with
      | none => simpa [hy] using h (.check false) n x hx
      | some y => exact ⟨y, rfl, (entry x y).mp fun g hg => h g n x hx (by simpa [hy] using hg)⟩
    have subset : names t.entries ⊆ names s.entries := by
      refine Table.names_subset_of_size size fun n hn => ?_
      obtain ⟨x, hx⟩ := Table.mem_names_iff.mp hn
      obtain ⟨y, hy, -⟩ := found n x hx
      exact Table.mem_names_iff.mpr ⟨y, hy⟩
    intro n
    cases hx : s.get? n with
    | some x =>
      obtain ⟨y, hy, related⟩ := found n x hx
      rw [hy]
      exact .some related
    | none =>
      cases hy : t.get? n with
      | none => exact .none
      | some y =>
        obtain ⟨x, hx'⟩ := Table.mem_names_iff.mp (subset (Table.mem_names_iff.mpr ⟨y, hy⟩))
        rw [hx] at hx'
        cases hx'
  · intro related
    refine ⟨Table.size_eq_of_related related, fun g n x hx hg => ?_⟩
    have both := related n
    rw [hx] at both
    cases hy : t.get? n with
    | none =>
      rw [hy] at both
      cases both
    | some y =>
      rw [hy] at hg both
      cases both with
      | some h => exact (entry x y).mpr h g hg

theorem forall_methodGoals_iff {s t : Table FunctionRef} :
    (∀ g ∈ methodGoals s t, g.Holds R) ↔ methodsRelated R s t :=
  Table.forall_goals_iff fun f g => by simp

theorem forall_superclassGoals_iff {c d : Option ClassRef} :
    (∀ g ∈ superclassGoals c d, g.Holds R) ↔ Option.Rel (fun c d => R (.cls c) (.cls d)) c d := by
  constructor
  · intro h
    cases c with
    | none => cases d <;> first | exact .none | simp [superclassGoals] at h
    | some c =>
      cases d with
      | none => simp [superclassGoals] at h
      | some d => exact .some (by simpa [superclassGoals] using h)
  · rintro (h | _) <;> simp [superclassGoals, *]

/-! ### Records -/

theorem FunctionRecord.forall_goals_iff {r s : FunctionRecord} :
    (∀ g ∈ r.goals s, g.Holds R) ↔ r.Matches R s := by
  simp only [FunctionRecord.goals, List.forall_mem_append, Closure.forall_goals_iff]
  constructor
  · rintro ⟨⟨h, closure⟩, initializer⟩
    simp only [List.forall_mem_cons, Goal.holds_check, beq_iff_eq] at h initializer
    exact ⟨h.1, h.2.1, h.2.2.1, closure, initializer.1⟩
  · rintro ⟨name, params, body, closure, initializer⟩
    simp [*]

theorem ClassRecord.forall_goals_iff {r s : ClassRecord} :
    (∀ g ∈ r.goals s, g.Holds R) ↔ r.Matches R s := by
  simp only [ClassRecord.goals, List.cons_append, List.forall_mem_cons, List.forall_mem_append,
    forall_methodGoals_iff, forall_superclassGoals_iff, Goal.holds_check, beq_iff_eq]
  constructor
  · rintro ⟨name, ⟨⟨⟨⟨⟨methods, statics⟩, getters⟩, setters⟩, superclass⟩, traits, -⟩⟩
    exact ⟨name, methods, statics, getters, setters, superclass, traits⟩
  · rintro ⟨name, methods, statics, getters, setters, superclass, traits⟩
    exact ⟨name, ⟨⟨⟨⟨⟨methods, statics⟩, getters⟩, setters⟩, superclass⟩, traits, by simp⟩⟩

theorem ObjectRecord.forall_goals_iff {r s : ObjectRecord} :
    (∀ g ∈ r.goals s, g.Holds R) ↔ r.Matches R s := by
  rw [ObjectRecord.goals, List.forall_mem_cons, Table.forall_goals_iff fun _ _ => Value.forall_goals_iff]
  exact ⟨fun h => ⟨h.1, h.2⟩, fun h => ⟨h.cls, h.fields⟩⟩

theorem ArrayRecord.forall_goals_iff {r s : ArrayRecord} :
    (∀ g ∈ r.goals s, g.Holds R) ↔ r.Matches R s := by
  rw [ArrayRecord.goals, List.forall_mem_cons, forall_elementGoals_iff]
  exact ⟨fun h => ⟨by simpa using h.1, h.2⟩, fun h => ⟨by simpa using h.capacity, h.elements⟩⟩

theorem Heap.forall_partsOf_iff {α : Type} {recordGoals : α → α → List Goal} {P : α → α → Prop}
    (record : ∀ {x y}, (∀ g ∈ recordGoals x y, g.Holds R) ↔ P x y) {r s : Option α} :
    (∀ g ∈ partsOf recordGoals r s, g.Holds R) ↔ RecordsMatch P r s := by
  cases r with
  | none => simp [partsOf, RecordsMatch]
  | some x => cases s <;> simp [partsOf, RecordsMatch, record]

end Goals

/-! ## Pairs of descriptors and goals -/

/-- The goal that asks whether two descriptors are equal. -/
def Goal.ofPair : Descriptor → Descriptor → Goal
  | .function f, .function g => .functions f g
  | .cls c, .cls d => .classes c d
  | .object o, .object p => .objects o p
  | .trait s, .trait t => .traits s t
  | .array a, .array b => .arrays a b
  | _, _ => .check false

namespace Heap

variable {h : Heap} {R : DescriptorRelation}

/-- **The parts of a pair hold exactly if the pair matches.** -/
theorem forall_parts_iff {x y : Descriptor} :
    (∀ g ∈ h.parts (.ofPair x y), g.Holds R) ↔ h.Matches R x y := by
  cases x <;> cases y
  all_goals simp only [Goal.ofPair, parts, Matches]
  case function.function => exact forall_partsOf_iff FunctionRecord.forall_goals_iff
  case cls.cls => exact forall_partsOf_iff ClassRecord.forall_goals_iff
  case object.object => exact forall_partsOf_iff ObjectRecord.forall_goals_iff
  case trait.trait => exact forall_partsOf_iff (by simp)
  case array.array => exact forall_partsOf_iff ArrayRecord.forall_goals_iff
  all_goals simp

theorem Matches.mono {S : DescriptorRelation} (le : ∀ x y, R x y → S x y) {x y : Descriptor}
    (m : h.Matches R x y) : h.Matches S x y :=
  forall_parts_iff.mp fun g hg => (forall_parts_iff.mpr m g hg).mono le

/-! ## The largest bisimulation -/

/-- Every bisimulation is contained in bisimilarity. -/
theorem IsBisimulation.le_bisimilar (bisimulation : h.IsBisimulation R) {x y : Descriptor}
    (related : R x y) : h.Bisimilar x y :=
  ⟨R, bisimulation, related⟩

/-- **Bisimilarity is a bisimulation**, and so the largest one. -/
theorem bisimilar_isBisimulation : h.IsBisimulation h.Bisimilar := by
  rintro x y ⟨R, bisimulation, related⟩
  rcases bisimulation x y related with same | m
  · exact .inl same
  · exact .inr (m.mono fun _ _ => bisimulation.le_bisimilar)

theorem bisimilar_refl (x : Descriptor) : h.Bisimilar x x :=
  ⟨Eq, fun _ _ same => .inl same, rfl⟩

end Heap
end LoxValues
