import LoxValues.Proofs.Copying
import LoxValues.Proofs.Nesting
import LoxValues.Proofs.SuperclassWalk

/-!
# Descriptors at other places

A heap may be had again with its descriptors at other places: where one heap has the record of a
descriptor, the other has that record at the descriptor's new place, with new places for old ones
inside (`Heap.MovedTo`).  If no two descriptors come to the same place, nobody can tell the two heaps
apart by comparing values or by looking up methods.

The comparison is followed goal by goal, with the pairs in progress moved as well.  It only comes by
descriptors that the two values refer to, so only these have to be moved.

## What is here

* `Renaming.Injective` — no two descriptors come to the same place.
* `FunctionRecord.rename` and the like — records with new places for old ones; unlike in
  `Heap.CopiedTo`, the entries of tables keep their order, in which they are compared.
* `Heap.parts_rename` — the parts of a moved pair are the pair's parts, moved.
* `Heap.equal?_moved` — comparing moved values gives the same answer, or none in both heaps.
* `Heap.findMethod_moved` — what a moved class has under a name is moved as well.
* `Value.isSame_rename` — moved values are the same if the values are.
-/

set_option autoImplicit false
namespace LoxValues

open Heap (Pending)
open Relation (ReflTransGen)

/-! ## Renamings -/

namespace Renaming

/-- No two descriptors come to the same place. -/
structure Injective (φ : Renaming) : Prop where
  /-- No two functions do. -/
  function : Function.Injective φ.function
  /-- No two classes do. -/
  cls : Function.Injective φ.cls
  /-- No two objects do. -/
  object : Function.Injective φ.object
  /-- No two traits do. -/
  trait : Function.Injective φ.trait
  /-- No two arrays do. -/
  array : Function.Injective φ.array

/-- All descriptors stay where they are. -/
def stay : Renaming := ⟨id, id, id, id, id⟩

theorem stay_injective : stay.Injective :=
  ⟨Function.injective_id, Function.injective_id, Function.injective_id, Function.injective_id,
    Function.injective_id⟩

variable {φ : Renaming}

theorem Injective.value (injective : φ.Injective) : Function.Injective (Value.rename φ) := by
  intro v w same
  cases v <;> cases w
  all_goals
    simp_all only [Value.rename, reduceCtorEq, Value.function.injEq, Value.method.injEq,
      Value.cls.injEq, Value.object.injEq, Value.trait.injEq, Value.array.injEq,
      injective.function.eq_iff, injective.cls.eq_iff, injective.object.eq_iff,
      injective.trait.eq_iff, injective.array.eq_iff]

end Renaming

/-! ## Moved records -/

/-- A table with something else in the place of each thing. -/
def Table.map {α : Type} (f : α → α) (t : Table α) : Table α where
  entries := t.entries.map fun e => (e.1, f e.2)
  distinct := by
    rw [names, List.map_map]
    exact t.distinct

theorem Table.entries_map {α : Type} (f : α → α) (t : Table α) :
    (t.map f).entries = t.entries.map fun e => (e.1, f e.2) := rfl

theorem Table.size_map {α : Type} (f : α → α) (t : Table α) : (t.map f).size = t.size := by
  rw [size, entries_map, List.length_map, size]

theorem Table.get?_map {α : Type} (f : α → α) (t : Table α) (name : String) :
    (t.map f).get? name = (t.get? name).map f :=
  find?_map f name t.entries

/-- The record of a function with its references at their new places. -/
def FunctionRecord.rename (φ : Renaming) (r : FunctionRecord) : FunctionRecord :=
  { r with closure := r.closure.rename φ }

/-- The record of a class with its references at their new places. -/
def ClassRecord.rename (φ : Renaming) (r : ClassRecord) : ClassRecord :=
  { r with
    methods := r.methods.map φ.function
    statics := r.statics.map φ.function
    getters := r.getters.map φ.function
    setters := r.setters.map φ.function
    superclass := r.superclass.map φ.cls }

/-- The record of an object with its references at their new places. -/
def ObjectRecord.rename (φ : Renaming) (r : ObjectRecord) : ObjectRecord :=
  ⟨φ.cls r.cls, r.fields.map (Value.rename φ)⟩

/-- The record of an array with its references at their new places. -/
def ArrayRecord.rename (φ : Renaming) (r : ArrayRecord) : ArrayRecord :=
  { r with elements := r.elements.map (Value.rename φ) }

/-- At the new place of a descriptor the second heap has the record that the first has at the old one,
with new places for old ones; or neither has any. -/
def Heap.MovedTo (g : Heap) (φ : Renaming) (h : Heap) : Descriptor → Prop
  | .function f => h.function? (φ.function f) = (g.function? f).map (FunctionRecord.rename φ)
  | .cls c => h.class? (φ.cls c) = (g.class? c).map (ClassRecord.rename φ)
  | .object o => h.object? (φ.object o) = (g.object? o).map (ObjectRecord.rename φ)
  | .trait t => h.trait? (φ.trait t) = g.trait? t
  | .array a => h.array? (φ.array a) = (g.array? a).map (ArrayRecord.rename φ)

/-! ## Moved goals -/

/-- A goal with its descriptors at their new places. -/
def Goal.rename (φ : Renaming) : Goal → Goal
  | .check holds => .check holds
  | .functions f g => .functions (φ.function f) (φ.function g)
  | .classes c d => .classes (φ.cls c) (φ.cls d)
  | .objects o p => .objects (φ.object o) (φ.object p)
  | .traits s t => .traits (φ.trait s) (φ.trait t)
  | .arrays a b => .arrays (φ.array a) (φ.array b)

section Goals

variable {φ : Renaming}

@[simp] theorem Goal.rename_check (holds : Bool) : (check holds).rename φ = .check holds := rfl

theorem Value.goals_rename (v w : Value) :
    (v.rename φ).goals (w.rename φ) = (v.goals w).map (Goal.rename φ) := by
  cases v <;> cases w <;> rfl

theorem Closure.goals_rename (c d : Closure) :
    (c.rename φ).goals (d.rename φ) = (c.goals d).map (Goal.rename φ) := by
  cases c with
  | none => cases d <;> rfl
  | mark s => cases d <;> rfl
  | value v =>
    cases d with
    | none => rfl
    | mark s => rfl
    | value w => exact v.goals_rename w

theorem elementGoals_rename (vs ws : List Value) :
    elementGoals (vs.map (Value.rename φ)) (ws.map (Value.rename φ)) =
      (elementGoals vs ws).map (Goal.rename φ) := by
  rw [elementGoals, elementGoals, List.map_cons, List.length_map, List.length_map, List.zip_map,
    List.flatMap_map, List.map_flatMap]
  exact congrArg _ (congrArg (List.flatMap · _) (funext fun e => e.1.goals_rename e.2))

theorem Table.goals_map {α : Type} {entryGoals : α → α → List Goal} {f : α → α}
    (entry : ∀ x y, entryGoals (f x) (f y) = (entryGoals x y).map (Goal.rename φ)) (s t : Table α) :
    (s.map f).goals entryGoals (t.map f) = (s.goals entryGoals t).map (Goal.rename φ) := by
  have sizes : ((s.map f).size == (t.map f).size) = (s.size == t.size) := by
    rw [size_map, size_map]
  rw [goals, goals, List.map_cons, sizes, entries_map, List.flatMap_map, List.map_flatMap]
  refine congrArg _ (congrArg (List.flatMap · _) (funext fun e => ?_))
  dsimp only
  rw [get?_map]
  cases t.get? e.1 with
  | none => rfl
  | some y => exact entry e.2 y

theorem methodGoals_map (s t : Table FunctionRef) :
    methodGoals (s.map φ.function) (t.map φ.function) = (methodGoals s t).map (Goal.rename φ) :=
  Table.goals_map (fun _ _ => rfl) s t

theorem superclassGoals_map (c d : Option ClassRef) :
    superclassGoals (c.map φ.cls) (d.map φ.cls) = (superclassGoals c d).map (Goal.rename φ) := by
  cases c <;> cases d <;> rfl

theorem FunctionRecord.goals_rename (r s : FunctionRecord) :
    (r.rename φ).goals (s.rename φ) = (r.goals s).map (Goal.rename φ) := by
  simp [goals, rename, Closure.goals_rename]

theorem ClassRecord.goals_rename (r s : ClassRecord) :
    (r.rename φ).goals (s.rename φ) = (r.goals s).map (Goal.rename φ) := by
  simp [goals, rename, methodGoals_map, superclassGoals_map]

theorem ObjectRecord.goals_rename (r s : ObjectRecord) :
    (r.rename φ).goals (s.rename φ) = (r.goals s).map (Goal.rename φ) := by
  rw [goals, goals, rename, rename, Table.goals_map Value.goals_rename]
  rfl

theorem ArrayRecord.goals_rename (r s : ArrayRecord) :
    (r.rename φ).goals (s.rename φ) = (r.goals s).map (Goal.rename φ) := by
  simp [goals, rename, elementGoals_rename]

theorem Heap.partsOf_map {α : Type} {recordGoals : α → α → List Goal} {f : α → α}
    (record : ∀ x y, recordGoals (f x) (f y) = (recordGoals x y).map (Goal.rename φ))
    (r s : Option α) :
    partsOf recordGoals (r.map f) (s.map f) = (partsOf recordGoals r s).map (Goal.rename φ) := by
  cases r with
  | none => rfl
  | some x =>
    cases s with
    | none => rfl
    | some y => exact record x y

/-- **The parts of a moved pair are the pair's parts, moved.** -/
theorem Heap.parts_rename {g h : Heap} {goal : Goal} (left : ∀ x ∈ goal.left?, g.MovedTo φ h x)
    (right : ∀ y ∈ goal.right?, g.MovedTo φ h y) :
    h.parts (goal.rename φ) = (g.parts goal).map (Goal.rename φ) := by
  cases goal with
  | check holds => rfl
  | functions f f' =>
    have hf : h.function? _ = _ := left _ rfl
    have hf' : h.function? _ = _ := right _ rfl
    rw [Goal.rename, parts, hf, hf', partsOf_map FunctionRecord.goals_rename, parts]
  | classes c d =>
    have hc : h.class? _ = _ := left _ rfl
    have hd : h.class? _ = _ := right _ rfl
    rw [Goal.rename, parts, hc, hd, partsOf_map ClassRecord.goals_rename, parts]
  | objects o p =>
    have ho : h.object? _ = _ := left _ rfl
    have hp : h.object? _ = _ := right _ rfl
    rw [Goal.rename, parts, ho, hp, partsOf_map ObjectRecord.goals_rename, parts]
  | traits s t =>
    have hs : h.trait? _ = _ := left _ rfl
    have ht : h.trait? _ = _ := right _ rfl
    rw [Goal.rename, parts, hs, ht, parts]
    cases g.trait? s <;> cases g.trait? t <;> rfl
  | arrays a b =>
    have ha : h.array? _ = _ := left _ rfl
    have hb : h.array? _ = _ := right _ rfl
    rw [Goal.rename, parts, ha, hb, partsOf_map ArrayRecord.goals_rename, parts]

end Goals

/-! ## Moved comparisons -/

namespace Goal

variable {φ : Renaming}

theorem rename_injective (injective : φ.Injective) : Function.Injective (rename φ) := by
  intro goal other same
  cases goal <;> cases other
  all_goals
    simp_all only [rename, reduceCtorEq, check.injEq, functions.injEq, classes.injEq, objects.injEq,
      traits.injEq, arrays.injEq, injective.function.eq_iff, injective.cls.eq_iff,
      injective.object.eq_iff, injective.trait.eq_iff, injective.array.eq_iff]

theorem isReflexive_rename (injective : φ.Injective) (goal : Goal) :
    (goal.rename φ).isReflexive = goal.isReflexive := by
  cases goal <;>
    simp only [rename, isReflexive, beq_eq_decide, injective.function.eq_iff, injective.cls.eq_iff,
      injective.object.eq_iff, injective.trait.eq_iff, injective.array.eq_iff]

theorem isGuarded_rename (goal : Goal) : (goal.rename φ).isGuarded = goal.isGuarded := by
  cases goal <;> rfl

theorem IsPair.rename {goal : Goal} (pair : goal.IsPair) : (goal.rename φ).IsPair := by
  cases goal <;> exact pair

theorem settled_rename_iff (injective : φ.Injective) {goal : Goal} {pending : Pending} :
    (goal.rename φ).Settled (pending.map (Goal.rename φ)) ↔ goal.Settled pending := by
  rw [Settled, Settled, isReflexive_rename injective, isGuarded_rename,
    List.mem_map_of_injective (rename_injective injective)]

theorem enter_rename (goal : Goal) (pending : Pending) :
    (goal.rename φ).enter (pending.map (Goal.rename φ)) =
      (goal.enter pending).map (Goal.rename φ) := by
  rw [enter, enter, isGuarded_rename, apply_ite (List.map (Goal.rename φ)), List.map_cons]

theorem leave_rename (injective : φ.Injective) (goal : Goal) (pending : Pending) :
    (goal.rename φ).leave (pending.map (Goal.rename φ)) =
      (goal.leave pending).map (Goal.rename φ) := by
  rw [leave, leave, isGuarded_rename, apply_ite (List.map (Goal.rename φ)),
    List.map_erase (rename_injective injective)]

end Goal

namespace Heap

/-- All that a descriptor refers to, however indirectly, has moved, and so has the descriptor. -/
def AllMovedTo (g : Heap) (φ : Renaming) (h : Heap) (x : Descriptor) : Prop :=
  ∀ y, ReflTransGen g.Refers x y → g.MovedTo φ h y

/-- The goal is about descriptors only from which on everything has moved. -/
def GoalMovedTo (g : Heap) (φ : Renaming) (h : Heap) (goal : Goal) : Prop :=
  (∀ x ∈ goal.left?, g.AllMovedTo φ h x) ∧ ∀ y ∈ goal.right?, g.AllMovedTo φ h y

/-- An answer and the pairs in progress, with the descriptors of these at their new places. -/
def renameResult (φ : Renaming) (r : Bool × Pending) : Bool × Pending :=
  (r.1, r.2.map (Goal.rename φ))

variable {g h : Heap} {φ : Renaming}

theorem AllMovedTo.of_refers {x y : Descriptor} (moved : g.AllMovedTo φ h x) (refers : g.Refers x y) :
    g.AllMovedTo φ h y :=
  fun z walk => moved z (.head refers walk)

theorem GoalMovedTo.parts_rename {goal : Goal} (moved : g.GoalMovedTo φ h goal) :
    h.parts (goal.rename φ) = (g.parts goal).map (Goal.rename φ) :=
  Heap.parts_rename (fun x left => moved.1 x left x .refl) fun y right => moved.2 y right y .refl

theorem GoalMovedTo.of_part {goal part : Goal} (moved : g.GoalMovedTo φ h goal) (pair : goal.IsPair)
    (mem : part ∈ g.parts goal) : g.GoalMovedTo φ h part := by
  obtain ⟨x, left⟩ := exists_left_of_isPair pair
  obtain ⟨y, right⟩ := exists_right_of_left left
  obtain ⟨lefts, rights⟩ := between_parts left right part mem
  exact ⟨fun z hz => (moved.1 x left).of_refers (lefts z hz),
    fun z hz => (moved.2 y right).of_refers (rights z hz)⟩

/-- Moved goals one after the other answer what the goals answer, if each of them does. -/
theorem compareAll_rename {compare moved : Goal → Pending → Option (Bool × Pending)}
    {goals : List Goal}
    (each : ∀ goal ∈ goals, ∀ pending, moved (goal.rename φ) (pending.map (Goal.rename φ)) =
      (compare goal pending).map (renameResult φ)) (pending : Pending) :
    compareAll moved (goals.map (Goal.rename φ)) (pending.map (Goal.rename φ)) =
      (compareAll compare goals pending).map (renameResult φ) := by
  induction goals generalizing pending with
  | nil => rfl
  | cons goal goals ih =>
    obtain ⟨first, others⟩ := List.forall_mem_cons.mp each
    rw [List.map_cons, compareAll, compareAll, first]
    cases compare goal pending with
    | none => rfl
    | some r =>
      obtain ⟨answer, after⟩ := r
      cases answer with
      | false => rfl
      | true => exact ih others after

/-- **A moved goal is compared as the goal is**, with the pairs in progress moved as well. -/
theorem compare_rename (injective : φ.Injective) (bound : Nat) {goal : Goal}
    (moved : g.GoalMovedTo φ h goal) (pending : Pending) :
    h.compare bound (goal.rename φ) (pending.map (Goal.rename φ)) =
      (g.compare bound goal pending).map (renameResult φ) := by
  induction bound generalizing goal pending with
  | zero =>
    rcases goal.check_or_pair with ⟨holds, rfl⟩ | pair
    · rw [Goal.rename_check, compare_check, compare_check]
      rfl
    · rw [compare_zero pair, compare_zero pair.rename]
      rfl
  | succ bound ih =>
    rcases goal.check_or_pair with ⟨holds, rfl⟩ | pair
    · rw [Goal.rename_check, compare_check, compare_check]
      rfl
    · by_cases settled : goal.Settled pending
      · rw [compare_of_settled pair settled,
          compare_of_settled pair.rename ((Goal.settled_rename_iff injective).mpr settled)]
        rfl
      · have unsettled := mt (Goal.settled_rename_iff injective).mp settled
        have parts := compareAll_rename (fun part mem => ih (moved.of_part pair mem))
          (goal.enter pending)
        rw [compare_of_unsettled pair settled, compare_of_unsettled pair.rename unsettled,
          moved.parts_rename, Goal.enter_rename, parts, Option.map_map, Option.map_map]
        refine congrArg (Option.map · _) (funext fun r => ?_)
        exact congrArg (Prod.mk r.1) (Goal.leave_rename injective goal r.2)

/-- Moved goals are decided as the goals are, however large the two heaps are. -/
theorem decide?_moved (injective : φ.Injective) {goals : List Goal}
    (moved : ∀ goal ∈ goals, g.GoalMovedTo φ h goal) :
    h.decide? (goals.map (Goal.rename φ)) = g.decide? goals := by
  rw [decide?, decide?,
    ← compareAll_of_depthBound_le (Nat.le_max_left h.depthBound g.depthBound),
    ← compareAll_of_depthBound_le (Nat.le_max_right h.depthBound g.depthBound)]
  have all := compareAll_rename (fun goal mem => compare_rename injective
    (max h.depthBound g.depthBound) (moved goal mem)) []
  rw [List.map_nil] at all
  rw [all, Option.map_map]
  rfl

/-- **Moved values are equal if the values are**, and their comparison ends if that of the values
does. -/
theorem equal?_moved (injective : φ.Injective) {a b : Value}
    (moved : ∀ x, g.Reaches a x ∨ g.Reaches b x → g.MovedTo φ h x) :
    h.equal? (a.rename φ) (b.rename φ) = g.equal? a b := by
  rw [equal?, equal?, Value.goals_rename]
  refine decide?_moved injective fun goal mem => ?_
  obtain ⟨lefts, rights⟩ := a.between_goals b goal mem
  exact ⟨fun x left y walk => moved y (.inl ⟨x, lefts x left, walk⟩),
    fun x right y walk => moved y (.inr ⟨x, rights x right, walk⟩)⟩

theorem equalDescriptors?_eq (x y : Descriptor) :
    h.equalDescriptors? x y = h.decide? [.ofPair x y] := by
  cases x <;> cases y <;> simp [equalDescriptors?, Goal.ofPair, decide?, compareAll, compare_check]

/-- **Moved descriptors are equal if the descriptors are**, and their comparison ends if that of the
descriptors does. -/
theorem equalDescriptors?_moved (injective : φ.Injective) {x y : Descriptor}
    (left : g.AllMovedTo φ h x) (right : g.AllMovedTo φ h y) :
    h.equalDescriptors? (x.rename φ) (y.rename φ) = g.equalDescriptors? x y := by
  have pair : [Goal.ofPair (x.rename φ) (y.rename φ)] = [Goal.ofPair x y].map (Goal.rename φ) := by
    cases x <;> cases y <;> rfl
  rw [equalDescriptors?_eq, equalDescriptors?_eq, pair]
  refine decide?_moved injective fun goal mem => ?_
  obtain rfl := List.mem_singleton.mp mem
  cases x <;> cases y <;> simp_all [GoalMovedTo, Goal.ofPair, Goal.left?, Goal.right?]

end Heap

/-! ## Moved lookups -/

/-- What a lookup finds, at its new place. -/
def Lookup.rename (φ : Renaming) : Lookup → Lookup
  | .found f => .found (φ.function f)
  | .absent => .absent
  | .endless => .endless

namespace Heap

variable {g h : Heap} {φ : Renaming}

/-- The superclass of a class is one of its references. -/
theorem refers_superclass {c d : ClassRef} {r : ClassRecord} (found : g.class? c = some r)
    (superclass : r.superclass = some d) : g.Refers (.cls c) (.cls d) := by
  rw [Refers, references, found]
  simp [ClassRecord.references, superclass]

theorem walk_moved {c : ClassRef} (moved : g.AllMovedTo φ h (.cls c)) (name : String) (n : Nat) :
    h.walk name n (φ.cls c) = (g.walk name n c).rename φ := by
  induction n generalizing c with
  | zero => rfl
  | succ n ih =>
    have here : h.class? (φ.cls c) = (g.class? c).map (ClassRecord.rename φ) := moved (.cls c) .refl
    rw [walk, walk, here]
    cases found : g.class? c with
    | none => rfl
    | some r =>
      simp only [Option.map_some, ClassRecord.rename, Table.get?_map]
      cases r.methods.get? name with
      | some f => rfl
      | none =>
        cases superclass : r.superclass with
        | none => rfl
        | some d => exact ih (moved.of_refers (refers_superclass found superclass))

/-- **What a moved class has under a name is moved as well**, and where there is no end of looking for
it, there is none after the move. -/
theorem findMethod_moved {c : ClassRef} (moved : g.AllMovedTo φ h (.cls c)) (name : String) :
    h.findMethod (φ.cls c) name = (g.findMethod c name).rename φ := by
  rw [← walk_eq_findMethod (Nat.lt_succ_of_le (Nat.le_max_left h.classes.length g.classes.length)),
    ← walk_eq_findMethod (Nat.lt_succ_of_le (Nat.le_max_right h.classes.length g.classes.length))]
  exact walk_moved moved name _

end Heap

/-! ## Moved values on their own -/

namespace Value

variable {φ : Renaming}

theorem identical_rename (injective : φ.Injective) (v w : Value) :
    (v.rename φ).identical (w.rename φ) = v.identical w := by
  have same : (v.rename φ == w.rename φ) = (v == w) := by
    rw [beq_eq_decide, beq_eq_decide]
    exact decide_eq_decide.mpr injective.value.eq_iff
  cases v <;> first | exact same | (cases w <;> first | exact same | rfl)

/-- **Moved values are the same if the values are.** -/
theorem isSame_rename (injective : φ.Injective) (v w : Value) :
    (v.rename φ).isSame (w.rename φ) = v.isSame w := by
  have same := identical_rename injective v w
  cases v <;> first | rfl | exact congrArg Except.ok same

end Value
end LoxValues
