import LoxValues.Proofs.Bisimulation
import Mathlib.Data.List.Chain
import Mathlib.Logic.Relation

/-!
# References between descriptors

Which descriptors a descriptor refers to, and what the comparison of two descriptors has to do with
it: on either side, the parts of a pair are references of that side (`Heap.between_parts`).

`Heap.CyclesGuarded` says that every cycle of references passes through an array or an object, the
two kinds of descriptors that are remembered while they are compared.  A heap with this property has
no cycle of functions, classes and traits alone (`Heap.CyclesGuarded.not_transGen`).
-/

set_option autoImplicit false
namespace LoxValues

/-! ## References -/

/-- The descriptors that a value consists of. -/
def Value.references : Value → List Descriptor
  | .function f => [.function f]
  | .method f o => [.function f, .object o]
  | .cls c => [.cls c]
  | .object o => [.object o]
  | .trait t => [.trait t]
  | .array a => [.array a]
  | _ => []

/-- The descriptors that a closure refers to. -/
def Closure.references : Closure → List Descriptor
  | .value v => v.references
  | _ => []

/-- The descriptors that a method table refers to. -/
def methodReferences (t : Table FunctionRef) : List Descriptor :=
  t.entries.map fun e => .function e.2

/-- The descriptors that a class refers to. -/
def ClassRecord.references (r : ClassRecord) : List Descriptor :=
  methodReferences r.methods ++ methodReferences r.statics ++ methodReferences r.getters ++
    methodReferences r.setters ++ (r.superclass.map Descriptor.cls).toList

/-- The descriptors that an object refers to. -/
def ObjectRecord.references (r : ObjectRecord) : List Descriptor :=
  .cls r.cls :: r.fields.entries.flatMap fun e => e.2.references

/-- The descriptors that an array refers to. -/
def ArrayRecord.references (r : ArrayRecord) : List Descriptor :=
  r.elements.flatMap Value.references

namespace Heap

/-- The descriptors that a descriptor refers to. -/
def references (h : Heap) : Descriptor → List Descriptor
  | .function f => ((h.function? f).map (·.closure.references)).getD []
  | .cls c => ((h.class? c).map ClassRecord.references).getD []
  | .object o => ((h.object? o).map ObjectRecord.references).getD []
  | .trait _ => []
  | .array a => ((h.array? a).map ArrayRecord.references).getD []

/-- One descriptor refers to another. -/
def Refers (h : Heap) (x y : Descriptor) : Prop := y ∈ h.references x

end Heap

/-- Is the descriptor remembered while it is compared? -/
def Descriptor.isGuarded : Descriptor → Bool
  | .object _ | .array _ => true
  | _ => false

namespace Heap

/-- Every cycle of references passes through an array or an object. -/
def CyclesGuarded (h : Heap) : Prop :=
  ∀ (x : Descriptor) (path : List Descriptor), List.IsChain h.Refers (x :: path ++ [x]) →
    ∃ y ∈ x :: path, y.isGuarded = true

/-- A reference from a function, class or trait. -/
def RefersUnguarded (h : Heap) (x y : Descriptor) : Prop := x.isGuarded = false ∧ h.Refers x y

variable {h : Heap}

theorem exists_path_of_transGen {x y : Descriptor} (walk : Relation.TransGen h.RefersUnguarded x y) :
    ∃ path, List.IsChain h.Refers (x :: path ++ [y]) ∧ ∀ z ∈ x :: path, z.isGuarded = false := by
  induction walk using Relation.TransGen.head_induction_on with
  | single step => exact ⟨[], by simpa using step.2, by simpa using step.1⟩
  | @head x z step _ ih =>
    obtain ⟨path, chain, unguarded⟩ := ih
    exact ⟨z :: path, List.isChain_cons_cons.mpr ⟨step.2, chain⟩,
      List.forall_mem_cons.mpr ⟨step.1, unguarded⟩⟩

/-- No cycle leads through functions, classes and traits alone. -/
theorem CyclesGuarded.not_transGen (guarded : h.CyclesGuarded) (x : Descriptor) :
    ¬ Relation.TransGen h.RefersUnguarded x x := by
  intro cycle
  obtain ⟨path, chain, unguarded⟩ := exists_path_of_transGen cycle
  obtain ⟨y, hy, yes⟩ := guarded x path chain
  rw [unguarded y hy] at yes
  cases yes

/-- Where a rank falls along every reference from a function, class or trait, every cycle of
references passes through an array or an object. -/
theorem CyclesGuarded.of_rank (rank : Descriptor → Nat)
    (falls : ∀ x y, x.isGuarded = false → h.Refers x y → rank y < rank x) : h.CyclesGuarded := by
  have descends : ∀ (path : List Descriptor) (x y : Descriptor),
      List.IsChain h.Refers (x :: path ++ [y]) → (∀ z ∈ x :: path, z.isGuarded = false) →
      rank y < rank x := by
    intro path
    induction path with
    | nil =>
      intro x y chain unguarded
      exact falls x y (unguarded x List.mem_cons_self) (by simpa using chain)
    | cons z path ih =>
      intro x y chain unguarded
      obtain ⟨step, rest⟩ := List.isChain_cons_cons.mp chain
      obtain ⟨hx, others⟩ := List.forall_mem_cons.mp unguarded
      exact (ih z y rest others).trans (falls x z hx step)
  intro x path chain
  by_contra none
  refine absurd (descends path x x chain fun z hz => ?_) (Nat.lt_irrefl _)
  by_contra guarded
  exact none ⟨z, hz, by simpa using guarded⟩

/-- In a heap of arrays alone, every cycle of references passes through an array. -/
theorem cyclesGuarded_of_arrays (arrays : List ArrayRecord) :
    CyclesGuarded { empty with arrays := arrays } := by
  refine .of_rank (fun _ => 0) ?_
  rintro (f | c | o | t | a) y unguarded refers
  · cases refers
  · cases refers
  · cases unguarded
  · cases refers
  · cases unguarded

end Heap

/-! ## References and parts -/

/-- The descriptor on the left of a pair. -/
def Goal.left? : Goal → Option Descriptor
  | .check _ => none
  | .functions f _ => some (.function f)
  | .classes c _ => some (.cls c)
  | .objects o _ => some (.object o)
  | .traits t _ => some (.trait t)
  | .arrays a _ => some (.array a)

/-- The descriptor on the right of a pair. -/
def Goal.right? : Goal → Option Descriptor
  | .check _ => none
  | .functions _ g => some (.function g)
  | .classes _ d => some (.cls d)
  | .objects _ p => some (.object p)
  | .traits _ t => some (.trait t)
  | .arrays _ b => some (.array b)

theorem Goal.isGuarded_of_left? {goal : Goal} {x : Descriptor} (left : goal.left? = some x) :
    x.isGuarded = goal.isGuarded := by
  cases goal <;> cases left <;> rfl

/-- The goals are about some given descriptors only, on either side. -/
def Between (lefts rights : List Descriptor) (goals : List Goal) : Prop :=
  ∀ goal ∈ goals, (∀ x ∈ goal.left?, x ∈ lefts) ∧ ∀ y ∈ goal.right?, y ∈ rights

section Between

variable {lefts rights moreLefts moreRights : List Descriptor} {goals others : List Goal}

theorem Between.mono (between : Between lefts rights goals) (left : lefts ⊆ moreLefts)
    (right : rights ⊆ moreRights) : Between moreLefts moreRights goals :=
  fun goal hg => ⟨fun x hx => left ((between goal hg).1 x hx),
    fun y hy => right ((between goal hg).2 y hy)⟩

@[simp] theorem between_nil : Between lefts rights [] := by
  simp [Between]

@[simp] theorem between_cons {goal : Goal} :
    Between lefts rights (goal :: goals) ↔
      ((∀ x ∈ goal.left?, x ∈ lefts) ∧ ∀ y ∈ goal.right?, y ∈ rights) ∧
        Between lefts rights goals :=
  List.forall_mem_cons

@[simp] theorem between_append :
    Between lefts rights (goals ++ others) ↔
      Between lefts rights goals ∧ Between lefts rights others :=
  List.forall_mem_append

@[simp] theorem between_check {holds : Bool} : Between lefts rights [.check holds] := by
  simp [Goal.left?, Goal.right?]

/-- Goals that come entry by entry, each about the references of its two entries. -/
theorem between_flatMap_of_mem {α β : Type} {refs : α → List Descriptor} {f : β → List Goal}
    {xs ys : List α} {entries : List β}
    (each : ∀ e ∈ entries, Between (xs.flatMap refs) (ys.flatMap refs) (f e)) :
    Between (xs.flatMap refs) (ys.flatMap refs) (entries.flatMap f) := by
  intro goal hg
  obtain ⟨e, he, hge⟩ := List.mem_flatMap.mp hg
  exact each e he goal hge

/-- What two members of lists are compared for is about references of the lists. -/
theorem Between.of_mem {α : Type} {r : α → List Descriptor} {x y : α} {xs ys : List α}
    (between : Between (r x) (r y) goals) (hx : x ∈ xs) (hy : y ∈ ys) :
    Between (xs.flatMap r) (ys.flatMap r) goals :=
  between.mono (fun _ hz => List.mem_flatMap.mpr ⟨x, hx, hz⟩)
    fun _ hz => List.mem_flatMap.mpr ⟨y, hy, hz⟩

end Between

/-- What has to hold for two values to be equal is about the descriptors of the two. -/
theorem Value.between_goals (v w : Value) : Between v.references w.references (v.goals w) := by
  fun_cases Value.goals v w <;> simp [Goal.left?, Goal.right?, Value.references]

theorem Closure.between_goals (c d : Closure) :
    Between c.references d.references (c.goals d) := by
  fun_cases Closure.goals c d with
  | case1 v w => exact v.between_goals w
  | case2 c d => exact between_check

theorem between_elementGoals (vs ws : List Value) :
    Between (vs.flatMap Value.references) (ws.flatMap Value.references) (elementGoals vs ws) := by
  rw [elementGoals, between_cons]
  refine ⟨by simp [Goal.left?, Goal.right?], between_flatMap_of_mem ?_⟩
  rintro ⟨v, w⟩ mem
  exact (v.between_goals w).of_mem (List.of_mem_zip mem).1 (List.of_mem_zip mem).2

theorem Table.between_goals {α : Type} {entryGoals : α → α → List Goal}
    {r : α → List Descriptor} (entry : ∀ x y, Between (r x) (r y) (entryGoals x y)) (s t : Table α) :
    Between (s.entries.flatMap fun e => r e.2) (t.entries.flatMap fun e => r e.2)
      (s.goals entryGoals t) := by
  rw [Table.goals, between_cons]
  refine ⟨by simp [Goal.left?, Goal.right?], between_flatMap_of_mem ?_⟩
  rintro ⟨name, x⟩ mem
  dsimp only
  split
  · next y found =>
    exact Between.of_mem (r := fun e => r e.2) (entry x y) mem (mem_entries_iff.mpr found)
  · exact between_check

theorem between_methodGoals (s t : Table FunctionRef) :
    Between (methodReferences s) (methodReferences t) (methodGoals s t) := by
  rw [methodReferences, methodReferences, List.map_eq_flatMap, List.map_eq_flatMap]
  exact Table.between_goals (r := fun f => [.function f])
    (fun f g => by simp [Goal.left?, Goal.right?]) s t

theorem between_superclassGoals (c d : Option ClassRef) :
    Between (c.map Descriptor.cls).toList (d.map Descriptor.cls).toList (superclassGoals c d) := by
  fun_cases superclassGoals c d <;> simp [Goal.left?, Goal.right?]

theorem FunctionRecord.between_goals (r s : FunctionRecord) :
    Between r.closure.references s.closure.references (r.goals s) := by
  simp [FunctionRecord.goals, Goal.left?, Goal.right?, r.closure.between_goals]

theorem ClassRecord.between_goals (r s : ClassRecord) :
    Between r.references s.references (r.goals s) := by
  have methods := between_methodGoals r.methods s.methods
  have statics := between_methodGoals r.statics s.statics
  have getters := between_methodGoals r.getters s.getters
  have setters := between_methodGoals r.setters s.setters
  have superclass := between_superclassGoals r.superclass s.superclass
  simp only [ClassRecord.goals, List.cons_append, between_cons, between_append]
  refine ⟨by simp [Goal.left?, Goal.right?], ⟨⟨⟨⟨⟨methods.mono ?_ ?_, statics.mono ?_ ?_⟩,
    getters.mono ?_ ?_⟩, setters.mono ?_ ?_⟩, superclass.mono ?_ ?_⟩,
    by simp [Goal.left?, Goal.right?]⟩⟩
  all_goals
    intro x hx
    simp [ClassRecord.references, hx]

theorem ObjectRecord.between_goals (r s : ObjectRecord) :
    Between r.references s.references (r.goals s) := by
  rw [ObjectRecord.goals, between_cons]
  refine ⟨by simp [Goal.left?, Goal.right?, ObjectRecord.references], ?_⟩
  exact (Table.between_goals Value.between_goals r.fields s.fields).mono
    (List.subset_cons_self _ _) (List.subset_cons_self _ _)

theorem ArrayRecord.between_goals (r s : ArrayRecord) :
    Between r.references s.references (r.goals s) := by
  simp [ArrayRecord.goals, ArrayRecord.references, Goal.left?, Goal.right?, between_elementGoals]

namespace Heap

variable {h : Heap}

theorem between_partsOf {α : Type} {recordGoals : α → α → List Goal}
    {refs : α → List Descriptor} (record : ∀ x y, Between (refs x) (refs y) (recordGoals x y))
    (r s : Option α) :
    Between ((r.map refs).getD []) ((s.map refs).getD []) (partsOf recordGoals r s) := by
  fun_cases partsOf recordGoals r s with
  | case1 x y => exact record x y
  | case2 => exact between_check

/-- **On either side, the parts of a pair are references of the pair.** -/
theorem between_parts {x y : Descriptor} {goal : Goal} (left : goal.left? = some x)
    (right : goal.right? = some y) : Between (h.references x) (h.references y) (h.parts goal) := by
  cases goal with
  | check => cases left
  | functions f g => cases left; cases right; exact between_partsOf FunctionRecord.between_goals _ _
  | classes c d => cases left; cases right; exact between_partsOf ClassRecord.between_goals _ _
  | objects o p => cases left; cases right; exact between_partsOf ObjectRecord.between_goals _ _
  | traits s t =>
    rw [parts]
    fun_cases partsOf _ (h.trait? s) (h.trait? t) <;> exact between_check
  | arrays a b => cases left; cases right; exact between_partsOf ArrayRecord.between_goals _ _

theorem exists_right_of_left {goal : Goal} {x : Descriptor} (left : goal.left? = some x) :
    ∃ y, goal.right? = some y := by
  cases goal <;> cases left <;> exact ⟨_, rfl⟩

/-- In particular, on the left. -/
theorem refers_of_part {goal part : Goal} (mem : part ∈ h.parts goal) {x y : Descriptor}
    (left : goal.left? = some x) (partLeft : part.left? = some y) : h.Refers x y := by
  obtain ⟨z, right⟩ := exists_right_of_left left
  exact (between_parts left right part mem).1 y partLeft

end Heap
end LoxValues
