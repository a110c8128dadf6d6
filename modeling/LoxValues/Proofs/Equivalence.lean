import LoxValues.Proofs.Equality

/-!
# Equality as a relation

Symmetry and transitivity cannot be read off the comparison: it remembers *ordered* pairs, it walks
the first descriptor's tables in their own order, and the comparisons of `a` with `b` and of `b`
with `c` may go round their cycles in different turns.  They are facts about bisimilarity.  The
converse of a bisimulation is a bisimulation (`Heap.Bisimilar.symm`), and so is what two of them
relate in two steps (`Heap.Bisimilar.trans`): records that match `R` one way match its converse the
other way, and records that match `R` and then `S` match their composition.

Reflexivity holds for descriptors whatever is inside, and for values because a float shares its box
with itself, so that even not-a-number is equal to itself (`Heap.BisimilarValues.refl`).  What is lost
is lost by making a float anew: the same not-a-number in another box is another value
(`Heap.bisimilarValues_inBox_iff`).
-/

set_option autoImplicit false
namespace LoxValues

open Relation (Comp)

/-! ## Values -/

/-- Is it not-a-number? -/
def Value.isNan : Value → Bool
  | .float .nan _ => true
  | _ => false

theorem Value.isNan_float_iff {x : Double} {box : Nat} : (float x box).isNan = true ↔ x = .nan := by
  cases x with
  | nan => exact iff_of_true rfl rfl
  | infinite negative => exact iff_of_false nofun nofun
  | finite negative r => exact iff_of_false nofun nofun

theorem Value.exists_of_isNan {a : Value} (nan : a.isNan = true) : ∃ box, a = .float .nan box := by
  cases a with
  | float x box => exact ⟨box, by rw [isNan_float_iff.mp nan]⟩
  | _ => cases nan

/-- A value with its number, if it is a float, in a box that is given. -/
def Value.inBox (box : Nat) : Value → Value
  | .float x _ => .float x box
  | v => v

/-- Floats are related if they have one number in one box, or equal numbers. -/
theorem Value.related_float_iff {R : DescriptorRelation} {x y : Double} {i j : Nat} :
    (float x i).Related R (float y j) ↔ (x = y ∧ i = j) ∨ x.numEq y = true := by
  constructor
  · intro related
    cases related with
    | float h => exact .inr h
    | box x i => exact .inl ⟨rfl, rfl⟩
  · rintro (⟨rfl, rfl⟩ | h)
    · exact .box x i
    · exact .float h

/-- A number is related to the same in another box, unless it is not-a-number. -/
theorem Value.related_float_inBox_iff {R : DescriptorRelation} {x : Double} {i box : Nat} :
    (float x i).Related R (float x box) ↔
      ((float x i).isNan = true → float x box = float x i) := by
  have same : float x box = float x i ↔ i = box := by simp [eq_comm]
  rw [same, related_float_iff, Binary.numEq_self_iff, isNan_float_iff, and_iff_right rfl, or_comm,
    imp_iff_not_or]

/-- Where descriptors are related to themselves, so are values. -/
theorem Value.related_self {R : DescriptorRelation} (refl : ∀ x, R x x) (a : Value) : a.Related R a := by
  cases a with
  | nil => exact .nil
  | uninitialized => exact .uninitialized
  | bool b => exact .bool b
  | int n => exact .int n
  | float x i => exact .box x i
  | string s => exact .string s
  | function f => exact .function (refl _)
  | method f o => exact .method (refl _) (refl _)
  | cls c => exact .cls (refl _)
  | object o => exact .object (refl _)
  | trait t => exact .trait (refl _)
  | array a => exact .array (refl _)
  | module name => exact .module name
  | foreign n => exact .foreign n

/-- Without descriptors on one side there is only one thing to check. -/
theorem Value.goals_of_scalar {a b : Value} (scalar : a.references = [] ∨ b.references = []) :
    a.goals b = [.check (a.identical b)] := by
  fun_cases Value.goals a b with
  | case7 => rfl
  | _ => simp [Value.references] at scalar

/-! ## Converse relations -/

section Symm

variable {R : DescriptorRelation}

theorem Value.Related.symm {v w : Value} (related : v.Related R w) : w.Related (flip R) v := by
  cases related with
  | nil => exact .nil
  | uninitialized => exact .uninitialized
  | bool b => exact .bool b
  | int n => exact .int n
  | float h => exact .float (Binary.numEq_symm h)
  | box x i => exact .box x i
  | string s => exact .string s
  | function h => exact .function h
  | method hf ho => exact .method hf ho
  | cls h => exact .cls h
  | object h => exact .object h
  | trait h => exact .trait h
  | array h => exact .array h
  | module name => exact .module name
  | foreign n => exact .foreign n

theorem Value.Related.mono {S : DescriptorRelation} (le : ∀ x y, R x y → S x y) {v w : Value}
    (related : v.Related R w) : v.Related S w :=
  Value.forall_goals_iff.mp fun g hg => (Value.forall_goals_iff.mpr related g hg).mono le

theorem Closure.Related.symm {c d : Closure} (related : c.Related R d) : d.Related (flip R) c := by
  cases related with
  | none => exact .none
  | mark s => exact .mark s
  | value h => exact .value h.symm

theorem optionRel_symm {α β : Type} {P : α → β → Prop} {Q : β → α → Prop}
    (entry : ∀ {x y}, P x y → Q y x) {r : Option α} {s : Option β} (related : Option.Rel P r s) :
    Option.Rel Q s r := by
  cases related with
  | none => exact .none
  | some h => exact .some (entry h)

theorem Table.Related.symm {α : Type} {P Q : α → α → Prop} (entry : ∀ {x y}, P x y → Q y x)
    {s t : Table α} (related : s.Related P t) : t.Related Q s :=
  fun name => optionRel_symm entry (related name)

theorem FunctionRecord.Matches.symm {r s : FunctionRecord} (m : r.Matches R s) :
    s.Matches (flip R) r where
  name := m.name.symm
  params := m.params.symm
  body := m.body.symm
  closure := m.closure.symm
  initializer := m.initializer.symm

theorem ClassRecord.Matches.symm {r s : ClassRecord} (m : r.Matches R s) :
    s.Matches (flip R) r where
  name := m.name.symm
  methods := Table.Related.symm id m.methods
  statics := Table.Related.symm id m.statics
  getters := Table.Related.symm id m.getters
  setters := Table.Related.symm id m.setters
  superclass := optionRel_symm id m.superclass
  traits := m.traits.symm

theorem ObjectRecord.Matches.symm {r s : ObjectRecord} (m : r.Matches R s) :
    s.Matches (flip R) r where
  cls := m.cls
  fields := m.fields.symm Value.Related.symm

theorem ArrayRecord.Matches.symm {r s : ArrayRecord} (m : r.Matches R s) :
    s.Matches (flip R) r where
  capacity := m.capacity.symm
  elements := .flip (m.elements.imp fun _ _ => Value.Related.symm)

theorem Heap.RecordsMatch.symm {α : Type} {P Q : α → α → Prop} (record : ∀ {x y}, P x y → Q y x)
    {r s : Option α} (m : RecordsMatch P r s) : RecordsMatch Q s r := by
  obtain ⟨x, hx, y, hy, h⟩ := m
  exact ⟨y, hy, x, hx, record h⟩

/-- **What matches one way matches the other way.** -/
theorem Heap.Matches.symm {h : Heap} {x y : Descriptor} (m : h.Matches R x y) :
    h.Matches (flip R) y x := by
  cases x <;> cases y
  case function.function => exact RecordsMatch.symm FunctionRecord.Matches.symm m
  case cls.cls => exact RecordsMatch.symm ClassRecord.Matches.symm m
  case object.object => exact RecordsMatch.symm ObjectRecord.Matches.symm m
  case trait.trait => exact RecordsMatch.symm Eq.symm m
  case array.array => exact RecordsMatch.symm ArrayRecord.Matches.symm m
  all_goals exact False.elim m

end Symm

/-! ## Composed relations -/

section Trans

variable {R S : DescriptorRelation}

theorem Value.Related.trans {u v w : Value} (first : u.Related R v) (second : v.Related S w) :
    u.Related (Comp R S) w := by
  cases first with
  | nil => cases second with | nil => exact .nil
  | uninitialized => cases second with | uninitialized => exact .uninitialized
  | bool b => cases second with | bool => exact .bool b
  | int n => cases second with | int => exact .int n
  | float h =>
    cases second with
    | float k => exact .float (Binary.numEq_trans h k)
    | box => exact .float h
  | box x i =>
    cases second with
    | float k => exact .float k
    | box => exact .box x i
  | string s => cases second with | string => exact .string s
  | function h => cases second with | function k => exact .function ⟨_, h, k⟩
  | method hf ho =>
    cases second with | method kf ko => exact .method ⟨_, hf, kf⟩ ⟨_, ho, ko⟩
  | cls h => cases second with | cls k => exact .cls ⟨_, h, k⟩
  | object h => cases second with | object k => exact .object ⟨_, h, k⟩
  | trait h => cases second with | trait k => exact .trait ⟨_, h, k⟩
  | array h => cases second with | array k => exact .array ⟨_, h, k⟩
  | module name => cases second with | module => exact .module name
  | foreign n => cases second with | foreign => exact .foreign n

theorem Closure.Related.trans {c d e : Closure} (first : c.Related R d) (second : d.Related S e) :
    c.Related (Comp R S) e := by
  cases first with
  | none => cases second with | none => exact .none
  | mark s => cases second with | mark => exact .mark s
  | value h => cases second with | value k => exact .value (h.trans k)

theorem optionRel_trans {α : Type} {P Q T : α → α → Prop} {r s t : Option α}
    (first : Option.Rel P r s) (second : Option.Rel Q s t)
    (entry : ∀ {x y z}, P x y → Q y z → T x z) : Option.Rel T r t := by
  cases first with
  | none => cases second with | none => exact .none
  | some h => cases second with | some k => exact .some (entry h k)

theorem Table.Related.trans {α : Type} {P Q T : α → α → Prop} {s t u : Table α}
    (first : s.Related P t) (second : t.Related Q u) (entry : ∀ {x y z}, P x y → Q y z → T x z) :
    s.Related T u :=
  fun name => optionRel_trans (first name) (second name) entry

theorem methodsRelated.trans {s t u : Table FunctionRef} (first : methodsRelated R s t)
    (second : methodsRelated S t u) : methodsRelated (Comp R S) s u :=
  Table.Related.trans first second fun h k => ⟨_, h, k⟩

theorem relatedElements_trans {us vs ws : List Value} (first : List.Forall₂ (Value.Related R) us vs)
    (second : List.Forall₂ (Value.Related S) vs ws) :
    List.Forall₂ (Value.Related (Comp R S)) us ws := by
  induction first generalizing ws with
  | nil => cases second with | nil => exact .nil
  | cons head _ ih => cases second with | cons head' tail' => exact .cons (head.trans head') (ih tail')

theorem FunctionRecord.Matches.trans {r s t : FunctionRecord} (first : r.Matches R s)
    (second : s.Matches S t) : r.Matches (Comp R S) t where
  name := first.name.trans second.name
  params := first.params.trans second.params
  body := first.body.trans second.body
  closure := first.closure.trans second.closure
  initializer := first.initializer.trans second.initializer

theorem ClassRecord.Matches.trans {r s t : ClassRecord} (first : r.Matches R s)
    (second : s.Matches S t) : r.Matches (Comp R S) t where
  name := first.name.trans second.name
  methods := first.methods.trans second.methods
  statics := first.statics.trans second.statics
  getters := first.getters.trans second.getters
  setters := first.setters.trans second.setters
  superclass := optionRel_trans first.superclass second.superclass fun h k => ⟨_, h, k⟩
  traits := first.traits.trans second.traits

theorem ObjectRecord.Matches.trans {r s t : ObjectRecord} (first : r.Matches R s)
    (second : s.Matches S t) : r.Matches (Comp R S) t where
  cls := ⟨_, first.cls, second.cls⟩
  fields := first.fields.trans second.fields Value.Related.trans

theorem ArrayRecord.Matches.trans {r s t : ArrayRecord} (first : r.Matches R s)
    (second : s.Matches S t) : r.Matches (Comp R S) t where
  capacity := first.capacity.trans second.capacity
  elements := relatedElements_trans first.elements second.elements

theorem Heap.RecordsMatch.trans {α : Type} {P Q T : α → α → Prop} {r s t : Option α}
    (first : RecordsMatch P r s) (second : RecordsMatch Q s t)
    (record : ∀ {x y z}, P x y → Q y z → T x z) : RecordsMatch T r t := by
  obtain ⟨x, hx, y, hy, h⟩ := first
  obtain ⟨y', hy', z, hz, k⟩ := second
  -- both name the record in the middle
  obtain rfl : y = y' := Option.mem_unique hy hy'
  exact ⟨x, hx, z, hz, record h k⟩

/-- **What matches in two steps matches the composition.** -/
theorem Heap.Matches.trans {h : Heap} {x y z : Descriptor} (first : h.Matches R x y)
    (second : h.Matches S y z) : h.Matches (Comp R S) x z := by
  cases x <;> cases y <;> try exact False.elim first
  all_goals cases z <;> try exact False.elim second
  case function.function.function => exact RecordsMatch.trans first second FunctionRecord.Matches.trans
  case cls.cls.cls => exact RecordsMatch.trans first second ClassRecord.Matches.trans
  case object.object.object => exact RecordsMatch.trans first second ObjectRecord.Matches.trans
  case trait.trait.trait => exact RecordsMatch.trans first second Eq.trans
  case array.array.array => exact RecordsMatch.trans first second ArrayRecord.Matches.trans

end Trans

/-! ## Bisimilarity -/

namespace Heap

variable {h : Heap}

theorem IsBisimulation.flip {R : DescriptorRelation} (bisimulation : h.IsBisimulation R) :
    h.IsBisimulation (flip R) := by
  intro x y related
  rcases bisimulation y x related with same | m
  · exact .inl same.symm
  · exact .inr m.symm

theorem Bisimilar.symm {x y : Descriptor} (related : h.Bisimilar x y) : h.Bisimilar y x := by
  obtain ⟨R, bisimulation, rel⟩ := related
  exact bisimulation.flip.le_bisimilar rel

/-- Two steps of bisimilarity are a bisimulation.  Where one of the steps stays at its descriptor,
the other is a step from it to itself and a step on. -/
theorem isBisimulation_comp : h.IsBisimulation (Comp h.Bisimilar h.Bisimilar) := by
  rintro x z ⟨y, hxy, hyz⟩
  rcases bisimilar_isBisimulation x y hxy with rfl | first
  · rcases bisimilar_isBisimulation x z hyz with same | second
    · exact .inl same
    · exact .inr (second.mono fun u v related => ⟨u, bisimilar_refl u, related⟩)
  · rcases bisimilar_isBisimulation y z hyz with rfl | second
    · exact .inr (first.mono fun u v related => ⟨v, related, bisimilar_refl v⟩)
    · exact .inr (first.trans second)

theorem Bisimilar.trans {x y z : Descriptor} (first : h.Bisimilar x y) (second : h.Bisimilar y z) :
    h.Bisimilar x z :=
  isBisimulation_comp.le_bisimilar ⟨y, first, second⟩

/-! ## Bisimilar values -/

theorem BisimilarValues.symm {a b : Value} (related : h.BisimilarValues a b) :
    h.BisimilarValues b a :=
  (Value.Related.symm related).mono fun _ _ => Bisimilar.symm

theorem BisimilarValues.trans {a b c : Value} (first : h.BisimilarValues a b)
    (second : h.BisimilarValues b c) : h.BisimilarValues a c :=
  (Value.Related.trans first second).mono fun _ _ ⟨_, hxy, hyz⟩ => hxy.trans hyz

theorem BisimilarValues.refl (a : Value) : h.BisimilarValues a a :=
  Value.related_self bisimilar_refl a

/-- **A value is bisimilar to the same made anew** unless it is not-a-number and now in another box. -/
theorem bisimilarValues_inBox_iff {a : Value} {box : Nat} :
    h.BisimilarValues a (a.inBox box) ↔ (a.isNan = true → a.inBox box = a) := by
  cases a with
  | float x i => exact Value.related_float_inBox_iff
  | _ => exact iff_of_true (.refl _) fun _ => rfl

/-! ## The comparison -/

/-- Without descriptors on one side, values are equal just if they are identical. -/
theorem equal?_eq_identical {a b : Value} (scalar : a.references = [] ∨ b.references = []) :
    h.equal? a b = some (a.identical b) := by
  rw [equal?, Value.goals_of_scalar scalar, decide?, compareAll, compare_check]
  cases a.identical b <;> rfl

/-- A comparison of two values that comes to an end answers whether they are bisimilar. -/
theorem bisimilarValues_iff_of_compareAll {a b : Value} {bound : Nat} {answer : Bool} {after : Pending}
    (ended : compareAll (h.compare bound) (a.goals b) [] = some (answer, after)) :
    answer = true ↔ h.BisimilarValues a b := by
  rw [BisimilarValues, ← bisimilarUpTo_nil]
  exact related_iff_of_compareAll ended

/-- Where every cycle of references passes through an array or an object, every two values have an
answer, which is whether they are bisimilar. -/
theorem CyclesGuarded.equal?_eq (guarded : h.CyclesGuarded) (a b : Value) :
    ∃ answer, h.equal? a b = some answer ∧ (answer = true ↔ h.BisimilarValues a b) := by
  obtain ⟨answer, ended⟩ := guarded.exists_compareAll (Nat.le_refl _) (a.goals b) []
  exact ⟨answer, by rw [equal?, decide?, ended, Option.map_some],
    bisimilarValues_iff_of_compareAll ended⟩

/-- Equal values are bisimilar, whatever the cycles are. -/
theorem bisimilarValues_of_equal? {a b : Value} (equal : h.equal? a b = some true) :
    h.BisimilarValues a b := by
  rw [equal?, decide?, Option.map_eq_some_iff] at equal
  obtain ⟨⟨_, after⟩, ended, rfl⟩ := equal
  exact (bisimilarValues_iff_of_compareAll ended).mp rfl

theorem CyclesGuarded.equal?_eq_true_iff (guarded : h.CyclesGuarded) {a b : Value} :
    h.equal? a b = some true ↔ h.BisimilarValues a b := by
  obtain ⟨answer, ended, iff⟩ := guarded.equal?_eq a b
  rw [ended, Option.some_inj, iff]

/-- **Equality is an equivalence.**  Where every cycle of references passes through an array or an
object, comparing two values either way round comes to the same answer, what is equal to equal values
is equal, and every value is equal to itself, not-a-number included.  A value is equal to the same made
anew, too, unless it is not-a-number and now in another box. -/
theorem CyclesGuarded.equal?_equivalence (guarded : h.CyclesGuarded) (a b c : Value) :
    (∃ answer, h.equal? a b = some answer ∧ h.equal? b a = some answer) ∧
    (h.equal? a b = some true → h.equal? b c = some true → h.equal? a c = some true) ∧
    h.equal? a a = some true ∧
    ∀ box, h.equal? a (a.inBox box) = some (decide (a.isNan = true → a.inBox box = a)) := by
  refine ⟨?_, fun first second => ?_, guarded.equal?_eq_true_iff.mpr (.refl a), fun box => ?_⟩
  · obtain ⟨answer, ended, iff⟩ := guarded.equal?_eq a b
    obtain ⟨back, endedBack, iffBack⟩ := guarded.equal?_eq b a
    have same : answer = back := by
      rw [Bool.eq_iff_iff, iff, iffBack]
      exact ⟨BisimilarValues.symm, BisimilarValues.symm⟩
    exact ⟨answer, ended, same ▸ endedBack⟩
  · rw [guarded.equal?_eq_true_iff] at first second ⊢
    exact first.trans second
  · obtain ⟨answer, ended, iff⟩ := guarded.equal?_eq a (a.inBox box)
    have anew : answer = decide (a.isNan = true → a.inBox box = a) := by
      rw [Bool.eq_iff_iff, iff, bisimilarValues_inBox_iff, decide_eq_true_iff]
    rw [ended, anew]

/-- Arrays in rings of two and of three, and one that contains itself, all of which unfold to the
same; and an array that contains itself and not-a-number. -/
def carousel : Heap :=
  { empty with
    arrays := [⟨1, [.array ⟨1⟩]⟩, ⟨1, [.array ⟨0⟩]⟩, ⟨1, [.array ⟨3⟩]⟩, ⟨1, [.array ⟨4⟩]⟩,
      ⟨1, [.array ⟨2⟩]⟩, ⟨1, [.array ⟨5⟩]⟩, ⟨2, [.float .nan 0, .array ⟨6⟩]⟩] }

theorem carousel_cyclesGuarded : carousel.CyclesGuarded := cyclesGuarded_of_arrays _

/-- The ring of two is equal to the ring of three by way of the array that contains itself, and the
array with not-a-number inside is equal to itself. -/
theorem carousel_equal : carousel.equal? (.array ⟨0⟩) (.array ⟨2⟩) = some true ∧
    carousel.equal? (.array ⟨6⟩) (.array ⟨6⟩) = some true := by
  have ring := CyclesGuarded.equal?_equivalence carousel_cyclesGuarded
    (.array ⟨0⟩) (.array ⟨5⟩) (.array ⟨2⟩)
  have holdsNan := CyclesGuarded.equal?_equivalence carousel_cyclesGuarded
    (.array ⟨6⟩) (.array ⟨0⟩) (.array ⟨0⟩)
  exact ⟨ring.2.1 (by decide) (by decide), holdsNan.2.2.1⟩

/-- **Not-a-number is equal to itself**, and not to not-a-number in another box. -/
theorem nan_equal_itself :
    empty.CyclesGuarded ∧ (Value.float .nan 0).isNan = true ∧
    empty.equal? (.float .nan 0) (.float .nan 0) = some true ∧
    empty.equal? (.float .nan 0) (.float .nan 1) = some false :=
  ⟨cyclesGuarded_of_arrays [], rfl, by decide, by decide⟩

end Heap
end LoxValues
