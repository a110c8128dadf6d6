import LoxValues.Proofs.Bisimulation

/-!
# Structural equality decides bisimilarity

The comparison takes a pair that it is in the middle of for equal and forgets a pair it has
finished, so what it answers below a pair depends on the pairs around it.  The answer is
nevertheless a property of the goal and of the pairs in progress alone, whatever the bound:

* `Goal.Settled pending` — a pair that holds without a look at its parts, because it compares a
  descriptor with itself or because it is in progress.
* `Heap.Supported pending` — the largest set of goals each of which is a fact, is settled, or has
  all its parts in the set.  `Heap.supported_iff_forall_parts` is the step that the comparison
  takes: a pair that is not settled is supported exactly if its parts are, *with the pair itself
  added to those in progress*.  From left to right this says that assumptions do no harm, from
  right to left that an answer under an assumption does not outlive it.
* `Heap.compare_answer` — a comparison that comes to an end answers whether its goal is supported.
* `Heap.BisimilarUpTo pending` — what a bisimulation relates that may lean on the pairs in progress.
  A goal is supported exactly if it holds of this relation (`Heap.supported_iff`).
* `Heap.supported_nil_iff` — with nothing in progress, supported means bisimilar.
-/

set_option autoImplicit false
namespace LoxValues

open Heap (Pending)

/-! ## Pairs, settled and open -/

namespace Goal

/-- Is the goal about two descriptors? -/
def IsPair : Goal → Prop
  | .check _ => False
  | _ => True

theorem check_or_pair (goal : Goal) : (∃ holds, goal = .check holds) ∨ goal.IsPair := by
  cases goal with
  | check holds => exact .inl ⟨holds, rfl⟩
  | functions | classes | objects | traits | arrays => exact .inr trivial

/-- A pair that holds without a look at its parts. -/
def Settled (pending : Pending) (goal : Goal) : Prop :=
  goal.isReflexive = true ∨ (goal.isGuarded = true ∧ goal ∈ pending)

/-- The pairs in progress while the parts of a goal are checked. -/
def enter (goal : Goal) (pending : Pending) : Pending :=
  if goal.isGuarded then goal :: pending else pending

/-- The pairs in progress once the parts of a goal have been checked. -/
def leave (goal : Goal) (pending : Pending) : Pending :=
  if goal.isGuarded then pending.erase goal else pending

@[simp] theorem leave_enter (goal : Goal) (pending : Pending) :
    goal.leave (goal.enter pending) = pending := by
  cases guarded : goal.isGuarded <;> simp [leave, enter, guarded]

theorem Settled.mono {pending more : Pending} (le : pending ⊆ more) {goal : Goal}
    (settled : goal.Settled pending) : goal.Settled more :=
  settled.imp_right fun h => ⟨h.1, le h.2⟩

theorem suffix_enter (goal : Goal) (pending : Pending) : pending <:+ goal.enter pending := by
  rw [enter]
  split
  · exact List.suffix_cons goal pending
  · exact List.suffix_refl pending

/-- The only pair that is settled once a goal is in progress and was not before is the goal. -/
theorem Settled.of_enter {pending : Pending} {goal other : Goal}
    (settled : other.Settled (goal.enter pending)) : other = goal ∨ other.Settled pending := by
  rcases settled with reflexive | ⟨guarded, h⟩
  · exact .inr (.inl reflexive)
  · rw [enter] at h
    split at h
    · rcases List.mem_cons.mp h with same | h
      · exact .inl same
      · exact .inr (.inr ⟨guarded, h⟩)
    · exact .inr (.inr ⟨guarded, h⟩)

/-! ### Pairs of descriptors as goals -/

theorem exists_eq_ofPair {goal : Goal} (pair : goal.IsPair) : ∃ x y, goal = .ofPair x y := by
  cases goal with
  | check => exact pair.elim
  | functions f g => exact ⟨.function f, .function g, rfl⟩
  | classes c d => exact ⟨.cls c, .cls d, rfl⟩
  | objects o p => exact ⟨.object o, .object p, rfl⟩
  | traits s t => exact ⟨.trait s, .trait t, rfl⟩
  | arrays a b => exact ⟨.array a, .array b, rfl⟩

theorem holds_ofPair {R : DescriptorRelation} {x y : Descriptor} (pair : (ofPair x y).IsPair) :
    (ofPair x y).Holds R ↔ R x y := by
  cases x <;> cases y <;> first | exact Iff.rfl | exact pair.elim

theorem isReflexive_ofPair_iff {x y : Descriptor} : (ofPair x y).isReflexive = true ↔ x = y := by
  cases x <;> cases y <;> simp [ofPair, isReflexive]

theorem ofPair_ne_fact {x y : Descriptor} : ofPair x y ≠ .check true := by
  cases x <;> cases y <;> simp [ofPair]

end Goal

namespace Heap

variable {h : Heap}

/-! ## Supported goals -/

/-- Why a goal may be in a set of goals: it is a fact, it is settled, or its parts are in the
set. -/
inductive Justified (h : Heap) (pending : Pending) (R : Goal → Prop) : Goal → Prop
  | fact : Justified h pending R (.check true)
  | settled {goal : Goal} (pair : goal.IsPair) (settled : goal.Settled pending) :
      Justified h pending R goal
  | parts {goal : Goal} (pair : goal.IsPair) (parts : ∀ part ∈ h.parts goal, R part) :
      Justified h pending R goal

/-- A goal in some set all of whose goals are justified by the set. -/
def Supported (h : Heap) (pending : Pending) (goal : Goal) : Prop :=
  ∃ R : Goal → Prop, (∀ g, R g → h.Justified pending R g) ∧ R goal

theorem Justified.mono {pending more : Pending} {R S : Goal → Prop} {goal : Goal}
    (le : pending ⊆ more) (sub : ∀ g, R g → S g) (j : h.Justified pending R goal) :
    h.Justified more S goal := by
  cases j with
  | fact => exact .fact
  | settled pair settled => exact .settled pair (settled.mono le)
  | parts pair parts => exact .parts pair fun part hp => sub part (parts part hp)

/-- The supported goals justify one another. -/
theorem Supported.justified {pending : Pending} {goal : Goal} (s : h.Supported pending goal) :
    h.Justified pending (h.Supported pending) goal := by
  obtain ⟨R, closed, mem⟩ := s
  exact (closed goal mem).mono (List.Subset.refl _) fun g hg => ⟨R, closed, hg⟩

theorem Supported.mono {pending more : Pending} {goal : Goal} (le : pending ⊆ more)
    (s : h.Supported pending goal) : h.Supported more goal := by
  obtain ⟨R, closed, mem⟩ := s
  exact ⟨R, fun g hg => (closed g hg).mono le fun _ => id, mem⟩

theorem supported_check_iff {pending : Pending} {holds : Bool} :
    h.Supported pending (.check holds) ↔ holds = true := by
  constructor
  · intro s
    cases s.justified with
    | fact => rfl
    | settled pair => exact pair.elim
    | parts pair => exact pair.elim
  · rintro rfl
    refine ⟨fun g => g = .check true, ?_, rfl⟩
    rintro _ rfl
    exact .fact

theorem supported_of_settled {pending : Pending} {goal : Goal} (pair : goal.IsPair)
    (settled : goal.Settled pending) : h.Supported pending goal := by
  refine ⟨fun g => g = goal, ?_, rfl⟩
  rintro _ rfl
  exact .settled pair settled

/-- **One step of the comparison.**  The set on the right contains the goal's parts under the
assumption of the goal; adding the goal itself to that set makes the assumption good. -/
theorem supported_iff_forall_parts {pending : Pending} {goal : Goal} (pair : goal.IsPair)
    (unsettled : ¬ goal.Settled pending) :
    h.Supported pending goal ↔ ∀ part ∈ h.parts goal, h.Supported (goal.enter pending) part := by
  constructor
  · intro s part hp
    cases s.justified with
    | fact => exact pair.elim
    | settled _ settled => exact absurd settled unsettled
    | parts _ parts => exact (parts part hp).mono (goal.suffix_enter pending).subset
  · intro parts
    refine ⟨fun g => g = goal ∨ h.Supported (goal.enter pending) g, ?_, .inl rfl⟩
    have of_parts : h.Justified pending (fun g => g = goal ∨ h.Supported (goal.enter pending) g) goal :=
      .parts pair fun part hp => .inr (parts part hp)
    rintro g (rfl | s)
    · exact of_parts
    · cases s.justified with
      | fact => exact .fact
      | settled pair settled =>
        rcases settled.of_enter with rfl | settled
        · exact of_parts
        · exact .settled pair settled
      | parts pair parts => exact .parts pair fun part hp => .inr (parts part hp)

/-! ## What a comparison leaves in progress -/

section CompareAll

variable {compare : Goal → Pending → Option (Bool × Pending)}

/-- A comparison that leaves the pairs in progress as it found them. -/
def Restores (compare : Goal → Pending → Option (Bool × Pending)) : Prop :=
  ∀ {goal pending answer after}, compare goal pending = some (answer, after) → after = pending

theorem compareAll_pending (restores : Restores compare) {goals : List Goal} {pending after : Pending}
    {answer : Bool} (ended : compareAll compare goals pending = some (answer, after)) :
    after = pending := by
  induction goals generalizing pending with
  | nil => cases ended; rfl
  | cons goal goals ih =>
    rw [compareAll] at ended
    split at ended
    · cases ended
    · next first => cases ended; exact restores first
    · next first => exact (ih ended).trans (restores first)

/-- Goals one after the other answer whether they all have a property if each of them does. -/
theorem compareAll_answer (restores : Restores compare) {P : Goal → Prop} {pending : Pending}
    (each : ∀ {goal answer after}, compare goal pending = some (answer, after) →
      (answer = true ↔ P goal))
    {goals : List Goal} {after : Pending} {answer : Bool}
    (ended : compareAll compare goals pending = some (answer, after)) :
    answer = true ↔ ∀ goal ∈ goals, P goal := by
  induction goals with
  | nil => cases ended; simp
  | cons goal goals ih =>
    rw [compareAll] at ended
    split at ended
    · cases ended
    · next first =>
      cases ended
      have fails : ¬ P goal := fun holds => by simpa using (each first).mpr holds
      simp [fails]
    · next first =>
      have holds : P goal := (each first).mp rfl
      rw [restores first] at ended
      simp [ih ended, holds]

theorem compareAll_mono {other : Goal → Pending → Option (Bool × Pending)}
    (le : ∀ {goal pending r}, compare goal pending = some r → other goal pending = some r)
    {goals : List Goal} {pending : Pending} {r : Bool × Pending}
    (ended : compareAll compare goals pending = some r) : compareAll other goals pending = some r := by
  induction goals generalizing pending with
  | nil => exact ended
  | cons goal goals ih =>
    rw [compareAll] at ended ⊢
    split at ended
    · cases ended
    · next first => rw [le first]; exact ended
    · next first => rw [le first]; exact ih ended

end CompareAll

theorem compare_check (bound : Nat) (holds : Bool) (pending : Pending) :
    h.compare bound (.check holds) pending = some (holds, pending) := by
  rw [compare]

theorem compare_zero {goal : Goal} (pair : goal.IsPair) (pending : Pending) :
    h.compare 0 goal pending = none := by
  cases goal <;> first | exact pair.elim | rfl

theorem compare_of_settled {goal : Goal} (pair : goal.IsPair) {pending : Pending}
    (settled : goal.Settled pending) (bound : Nat) :
    h.compare (bound + 1) goal pending = some (true, pending) := by
  rcases settled with reflexive | ⟨guarded, mem⟩
  · cases goal <;> first | exact pair.elim | simp [compare, reflexive]
  · cases goal <;> first | exact pair.elim | simp [compare, guarded, mem]

/-- A pair that is not settled is compared by its parts.  Whatever they answer, the pair is taken
off the list again. -/
theorem compare_of_unsettled {goal : Goal} (pair : goal.IsPair) {pending : Pending}
    (unsettled : ¬ goal.Settled pending) (bound : Nat) :
    h.compare (bound + 1) goal pending =
      (compareAll (h.compare bound) (h.parts goal) (goal.enter pending)).map fun r =>
        (r.1, goal.leave r.2) := by
  rw [Goal.Settled, not_or, not_and] at unsettled
  have different : goal.isReflexive = false := by simpa using unsettled.1
  cases guarded : goal.isGuarded with
  | false => cases goal <;> first | exact pair.elim | simp_all [compare, Goal.enter, Goal.leave]
  | true =>
    have new : goal ∉ pending := unsettled.2 guarded
    cases goal <;> first | exact pair.elim | simp_all [compare, Goal.enter, Goal.leave]

/-- **A comparison leaves the pairs in progress as it found them.** -/
theorem compare_restores (bound : Nat) : Restores (h.compare bound) := by
  induction bound with
  | zero =>
    intro goal pending answer after ended
    cases goal <;> simp_all [compare]
  | succ bound ih =>
    intro goal pending answer after ended
    rcases goal.check_or_pair with ⟨holds, rfl⟩ | pair
    · rw [compare_check] at ended
      cases ended; rfl
    · by_cases settled : goal.Settled pending
      · rw [compare_of_settled pair settled] at ended
        cases ended; rfl
      · rw [compare_of_unsettled pair settled, Option.map_eq_some_iff] at ended
        obtain ⟨⟨_, left⟩, parts, same⟩ := ended
        obtain rfl : left = goal.enter pending := compareAll_pending ih parts
        simpa using (congrArg Prod.snd same).symm

/-- A greater bound changes no answer. -/
theorem compare_mono {bound more : Nat} (le : bound ≤ more) {goal : Goal} {pending : Pending}
    {r : Bool × Pending} (ended : h.compare bound goal pending = some r) :
    h.compare more goal pending = some r := by
  induction bound generalizing more goal pending r with
  | zero =>
    rcases goal.check_or_pair with ⟨holds, rfl⟩ | pair
    · simpa only [compare_check] using ended
    · rw [compare_zero pair] at ended
      cases ended
  | succ bound ih =>
    obtain ⟨more, rfl⟩ : ∃ n, more = n + 1 := Nat.exists_eq_add_one.mpr (by omega)
    rcases goal.check_or_pair with ⟨holds, rfl⟩ | pair
    · simpa only [compare_check] using ended
    · by_cases settled : goal.Settled pending
      · rw [compare_of_settled pair settled] at ended ⊢
        exact ended
      · rw [compare_of_unsettled pair settled, Option.map_eq_some_iff] at ended ⊢
        obtain ⟨parts, all, same⟩ := ended
        exact ⟨parts, compareAll_mono (ih (by omega)) all, same⟩

/-! ## What a comparison answers -/

/-- **A comparison that comes to an end answers whether its goal is supported.** -/
theorem compare_answer {bound : Nat} {goal : Goal} {pending after : Pending} {answer : Bool}
    (ended : h.compare bound goal pending = some (answer, after)) :
    answer = true ↔ h.Supported pending goal := by
  induction bound generalizing goal pending after answer with
  | zero =>
    rcases goal.check_or_pair with ⟨holds, rfl⟩ | pair
    · rw [compare_check] at ended
      cases ended
      exact supported_check_iff.symm
    · rw [compare_zero pair] at ended
      cases ended
  | succ bound ih =>
    rcases goal.check_or_pair with ⟨holds, rfl⟩ | pair
    · rw [compare_check] at ended
      cases ended
      exact supported_check_iff.symm
    · by_cases settled : goal.Settled pending
      · rw [compare_of_settled pair settled] at ended
        cases ended
        exact iff_of_true rfl (supported_of_settled pair settled)
      · rw [compare_of_unsettled pair settled, Option.map_eq_some_iff] at ended
        obtain ⟨⟨_, left⟩, parts, same⟩ := ended
        cases same
        rw [supported_iff_forall_parts pair settled]
        exact compareAll_answer (compare_restores bound) ih parts

/-! ## Bisimulations up to what is in progress -/

/-- The comparison of two descriptors, arrays or objects, is in progress, so that they are taken for
equal. -/
def Pending.Assumes (pending : Pending) (x y : Descriptor) : Prop :=
  (Goal.ofPair x y).isGuarded = true ∧ Goal.ofPair x y ∈ pending

/-- A relation, together with what is in progress and with every descriptor and itself. -/
def Pending.upTo (pending : Pending) (R : DescriptorRelation) : DescriptorRelation :=
  fun x y => R x y ∨ pending.Assumes x y ∨ x = y

/-- Whatever two descriptors the relation relates, they are the same one, or they are being compared
already, or they match, and the parts in which they match are related, being compared or the same. -/
def IsBisimulationUpTo (h : Heap) (pending : Pending) (R : DescriptorRelation) : Prop :=
  ∀ x y, R x y → x = y ∨ pending.Assumes x y ∨ h.Matches (pending.upTo R) x y

/-- Two descriptors that some bisimulation up to what is in progress relates. -/
def BisimilarUpTo (h : Heap) (pending : Pending) (x y : Descriptor) : Prop :=
  ∃ R, h.IsBisimulationUpTo pending R ∧ R x y

theorem settled_ofPair_iff {pending : Pending} {x y : Descriptor} :
    (Goal.ofPair x y).Settled pending ↔ x = y ∨ pending.Assumes x y :=
  or_congr Goal.isReflexive_ofPair_iff Iff.rfl

theorem Pending.upTo_mono {pending : Pending} {R S : DescriptorRelation}
    (le : ∀ x y, R x y → S x y) (x y : Descriptor) (related : pending.upTo R x y) :
    pending.upTo S x y :=
  related.imp_left (le x y)

theorem IsBisimulationUpTo.le {pending : Pending} {R : DescriptorRelation}
    (bisimulation : h.IsBisimulationUpTo pending R) (x y : Descriptor) (related : R x y) :
    h.BisimilarUpTo pending x y :=
  ⟨R, bisimulation, related⟩

theorem bisimilarUpTo_isBisimulationUpTo (pending : Pending) :
    h.IsBisimulationUpTo pending (h.BisimilarUpTo pending) := by
  rintro x y ⟨R, bisimulation, related⟩
  refine (bisimulation x y related).imp_right (Or.imp_right fun m => ?_)
  exact m.mono (Pending.upTo_mono bisimulation.le)

/-! ### Supported goals -/

section Closed

variable {pending : Pending} {R : Goal → Prop} (closed : ∀ g, R g → h.Justified pending R g)
include closed

theorem holds_of_closed {goal : Goal} (mem : R goal) : goal.Holds fun x y => R (.ofPair x y) := by
  cases goal with
  | check holds => exact supported_check_iff.mp ⟨R, closed, mem⟩
  | functions | classes | objects | traits | arrays => exact mem

theorem isBisimulationUpTo_of_closed :
    h.IsBisimulationUpTo pending fun x y => R (.ofPair x y) := by
  intro x y mem
  generalize same : Goal.ofPair x y = goal at mem
  cases closed goal mem with
  | fact => exact absurd same Goal.ofPair_ne_fact
  | settled pair settled =>
    subst same
    exact (settled_ofPair_iff.mp settled).imp_right .inl
  | parts pair parts =>
    subst same
    refine .inr (.inr (forall_parts_iff.mp fun part hp => ?_))
    exact (holds_of_closed closed (parts part hp)).mono fun _ _ => .inl

end Closed

/-- **The supported goals are those that hold of bisimilarity up to what is in progress.** -/
theorem supported_iff {pending : Pending} {goal : Goal} :
    h.Supported pending goal ↔ goal.Holds (h.BisimilarUpTo pending) := by
  constructor
  · rintro ⟨R, closed, mem⟩
    exact (holds_of_closed closed mem).mono (isBisimulationUpTo_of_closed closed).le
  · intro holds
    refine ⟨Goal.Holds (pending.upTo (h.BisimilarUpTo pending)), fun g hg => ?_,
      holds.mono fun _ _ => .inl⟩
    rcases g.check_or_pair with ⟨b, rfl⟩ | pair
    · obtain rfl : b = true := hg
      exact .fact
    · obtain ⟨x, y, rfl⟩ := Goal.exists_eq_ofPair pair
      have settled (given : x = y ∨ pending.Assumes x y) :
          h.Justified pending (Goal.Holds (pending.upTo (h.BisimilarUpTo pending))) (.ofPair x y) :=
        .settled pair (settled_ofPair_iff.mpr given)
      rcases (Goal.holds_ofPair pair).mp hg with related | assumed | same
      · rcases bisimilarUpTo_isBisimulationUpTo pending x y related with same | assumed | matching
        · exact settled (.inl same)
        · exact settled (.inr assumed)
        · exact .parts pair (forall_parts_iff.mpr matching)
      · exact settled (.inr assumed)
      · exact settled (.inl same)

/-- **A comparison of two values that comes to an end answers whether they are bisimilar up to what
was in progress.** -/
theorem related_iff_of_compareAll {a b : Value} {bound : Nat} {pending after : Pending}
    {answer : Bool}
    (ended : compareAll (h.compare bound) (a.goals b) pending = some (answer, after)) :
    answer = true ↔ a.Related (h.BisimilarUpTo pending) b := by
  rw [← Value.forall_goals_iff]
  simpa only [supported_iff] using compareAll_answer (compare_restores bound) compare_answer ended

/-! ## With nothing in progress -/

theorem bisimilarUpTo_nil : h.BisimilarUpTo [] = h.Bisimilar := by
  funext x y
  refine propext ⟨?_, ?_⟩
  · rintro ⟨R, bisimulation, related⟩
    have extended : h.IsBisimulation (Pending.upTo [] R) := by
      rintro x y (related | ⟨-, none⟩ | same)
      · rcases bisimulation x y related with same | ⟨-, none⟩ | matching
        · exact .inl same
        · cases none
        · exact .inr matching
      · cases none
      · exact .inl same
    exact extended.le_bisimilar (.inl related)
  · rintro ⟨R, bisimulation, related⟩
    refine ⟨R, fun x y related => ?_, related⟩
    exact (bisimulation x y related).imp_right fun m => .inr (m.mono fun _ _ => .inl)

/-- **With nothing in progress, the supported goals are those that hold of bisimilarity.** -/
theorem supported_nil_iff {goal : Goal} : h.Supported [] goal ↔ goal.Holds h.Bisimilar := by
  rw [supported_iff, bisimilarUpTo_nil]

end Heap
end LoxValues
