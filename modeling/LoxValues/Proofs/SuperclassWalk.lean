import LoxValues.Heap.Lookup
import Mathlib.Data.Finset.Card

/-!
# Walks along superclasses

`Heap.findMethod` walks for one class more than there are.  By then a walk that is still under way
has come to a class for the second time, and from there on it repeats itself: more classes would
make no difference (`Heap.walk_eq_findMethod`).
-/

set_option autoImplicit false
namespace LoxValues.Heap

variable {h : Heap} {name : String}

/-! ## Passing classes -/

/-- The class that the walk goes on to, where it does not stop. -/
def passes? (h : Heap) (name : String) (c : ClassRef) : Option ClassRef :=
  (h.class? c).bind fun r => if (r.methods.get? name).isNone then r.superclass else none

/-- The class that the walk comes to after passing so many classes. -/
def passed? (h : Heap) (name : String) : Nat → ClassRef → Option ClassRef
  | 0, c => some c
  | n + 1, c => (h.passes? name c).bind (h.passed? name n)

theorem passed?_add (m n : Nat) (c : ClassRef) :
    h.passed? name (m + n) c = (h.passed? name m c).bind (h.passed? name n) := by
  induction m generalizing c with
  | zero => rw [Nat.zero_add, passed?, Option.bind_some]
  | succ m ih =>
    rw [Nat.succ_add, passed?, passed?, Option.bind_assoc]
    exact congrArg _ (funext ih)

theorem isSome_passed?_of_le {m n : Nat} (le : m ≤ n) {c : ClassRef}
    (later : (h.passed? name n c).isSome) : (h.passed? name m c).isSome := by
  rw [← Nat.add_sub_of_le le, passed?_add] at later
  exact Option.isSome_of_isSome_bind later

/-- Only a class whose record is there is passed. -/
theorem lt_length_of_passes? {c d : ClassRef} (passes : h.passes? name c = some d) :
    c.index < h.classes.length := by
  obtain ⟨r, found, -⟩ := Option.bind_eq_some_iff.mp passes
  exact (List.getElem?_eq_some_iff.mp found).1

/-! ## Walks and the classes they pass -/

theorem walk_of_passes? {c d : ClassRef} (passes : h.passes? name c = some d) (n : Nat) :
    h.walk name (n + 1) c = h.walk name n d := by
  obtain ⟨r, found, goesOn⟩ := Option.bind_eq_some_iff.mp passes
  rw [walk, found]
  cases method : r.methods.get? name with
  | none =>
    have superclass : r.superclass = some d := by simpa [method] using goesOn
    simp only [superclass, method]
  | some f => simp [method] at goesOn

/-- Where the walk stops, it stops for good, and how many classes are left makes no difference. -/
theorem walk_of_stops {c : ClassRef} (stops : h.passes? name c = none) :
    ∃ answer, answer ≠ .endless ∧ ∀ n, h.walk name (n + 1) c = answer := by
  simp only [walk]
  cases found : h.class? c with
  | none => exact ⟨.absent, nofun, fun n => rfl⟩
  | some r =>
    cases method : r.methods.get? name with
    | some f => exact ⟨.found f, nofun, fun n => by simp only [method]⟩
    | none =>
      have superclass : r.superclass = none := by simpa [passes?, found, method] using stops
      exact ⟨.absent, nofun, fun n => by simp only [method, superclass]⟩

/-- A walk is under way as long as it passes classes. -/
theorem walk_eq_endless_iff {n : Nat} {c : ClassRef} :
    h.walk name n c = .endless ↔ (h.passed? name n c).isSome := by
  induction n generalizing c with
  | zero => exact iff_of_true rfl rfl
  | succ n ih =>
    cases passes : h.passes? name c with
    | some d => rw [walk_of_passes? passes, ih, passed?, passes, Option.bind_some]
    | none =>
      obtain ⟨answer, ended, same⟩ := walk_of_stops passes
      rw [same, passed?, passes]
      exact iff_of_false ended Bool.false_ne_true

/-- A walk that has stopped gives the same answer when it might have gone further. -/
theorem walk_eq_of_le {m n : Nat} (le : m ≤ n) {c : ClassRef}
    (stopped : h.walk name m c ≠ .endless) : h.walk name n c = h.walk name m c := by
  induction m generalizing n c with
  | zero => exact absurd rfl stopped
  | succ m ih =>
    obtain ⟨n, rfl⟩ := Nat.exists_eq_add_one.mpr (Nat.zero_lt_of_lt le)
    cases passes : h.passes? name c with
    | some d =>
      rw [walk_of_passes? passes] at stopped ⊢
      rw [walk_of_passes? passes, ih (Nat.le_of_succ_le_succ le) stopped]
    | none =>
      obtain ⟨answer, -, same⟩ := walk_of_stops passes
      rw [same, same]

/-! ## Long walks -/

/-- The classes whose records are there. -/
def places (h : Heap) : Finset (Option ClassRef) :=
  (Finset.range h.classes.length).image fun i => some ⟨i⟩

theorem card_places_le (h : Heap) : h.places.card ≤ h.classes.length :=
  Finset.card_image_le.trans (Finset.card_range _).le

/-- All that a walk passes is among the classes whose records are there. -/
theorem passed?_mem_places {i n : Nat} (lt : i < n) {c : ClassRef}
    (underway : (h.passed? name n c).isSome) : h.passed? name i c ∈ h.places := by
  obtain ⟨e, next⟩ := Option.isSome_iff_exists.mp (isSome_passed?_of_le (Nat.succ_le_of_lt lt) underway)
  rw [Nat.succ_eq_add_one, passed?_add, Option.bind_eq_some_iff] at next
  obtain ⟨d, here, passes⟩ := next
  rw [passed?] at passes
  obtain ⟨_, passes, _⟩ := Option.bind_eq_some_iff.mp passes
  rw [here]
  exact Finset.mem_image.mpr ⟨d.index, Finset.mem_range.mpr (lt_length_of_passes? passes), rfl⟩

/-- A walk that has come to more classes than there are has come to one of them twice. -/
theorem exists_returns_of_mem {n : Nat} (long : h.classes.length ≤ n) {c : ClassRef}
    (among : ∀ i ≤ n, h.passed? name i c ∈ h.places) :
    ∃ i k d, h.passed? name i c = some d ∧ h.passed? name (k + 1) d = some d := by
  obtain ⟨i, hi, j, hj, ne, same⟩ := Finset.exists_ne_map_eq_of_card_lt_of_maps_to
    (s := Finset.range (n + 1)) (t := h.places) (f := fun i => h.passed? name i c)
    (by rw [Finset.card_range]; exact Nat.lt_succ_of_le (h.card_places_le.trans long))
    (fun i hi => among i (Nat.le_of_lt_succ (Finset.mem_range.mp hi)))
  wlog hij : i < j generalizing i j
  · exact this j hj i hi ne.symm same.symm (by omega)
  obtain ⟨k, -, here⟩ :=
    Finset.mem_image.mp (among i (Nat.le_of_lt_succ (Finset.mem_range.mp hi)))
  obtain ⟨l, rfl⟩ := Nat.exists_eq_add_of_lt hij
  refine ⟨i, l, ⟨k⟩, here.symm, ?_⟩
  rw [Nat.add_assoc, passed?_add, ← here, Option.bind_some] at same
  exact same.symm

/-- So has a walk that is still under way after as many classes and one more. -/
theorem exists_returns {n : Nat} (long : h.classes.length < n) {c : ClassRef}
    (underway : (h.passed? name n c).isSome) :
    ∃ i k d, h.passed? name i c = some d ∧ h.passed? name (k + 1) d = some d := by
  obtain ⟨m, rfl⟩ := Nat.exists_eq_add_one.mpr (Nat.zero_lt_of_lt long)
  exact exists_returns_of_mem (Nat.le_of_lt_succ long) fun i le =>
    passed?_mem_places (Nat.lt_succ_of_le le) underway

/-- A class that the walk comes back to is come back to for ever. -/
theorem isSome_passed?_of_returns {k : Nat} {d : ClassRef}
    (returns : h.passed? name (k + 1) d = some d) (n : Nat) : (h.passed? name n d).isSome := by
  induction n using Nat.strong_induction_on with
  | _ n ih =>
    rcases Nat.lt_or_ge n (k + 1) with short | long
    · exact isSome_passed?_of_le short.le (by rw [returns]; rfl)
    · rw [← Nat.add_sub_of_le long, passed?_add, returns, Option.bind_some]
      exact ih (n - (k + 1)) (by omega)

/-- A walk that comes back to a class never stops. -/
theorem walk_eq_endless_of_returns {i k : Nat} {c d : ClassRef} (here : h.passed? name i c = some d)
    (returns : h.passed? name (k + 1) d = some d) (n : Nat) : h.walk name n c = .endless := by
  rw [walk_eq_endless_iff]
  refine isSome_passed?_of_le (Nat.le_add_left n i) ?_
  rw [passed?_add, here, Option.bind_some]
  exact isSome_passed?_of_returns returns n

/-- **A walk that has passed more classes than there are never stops.** -/
theorem walk_eq_endless_of_long {n : Nat} (long : h.classes.length < n) {c : ClassRef}
    (underway : h.walk name n c = .endless) (m : Nat) : h.walk name m c = .endless := by
  rw [walk_eq_endless_iff] at underway
  obtain ⟨i, k, d, here, returns⟩ := exists_returns long underway
  exact walk_eq_endless_of_returns here returns m

/-- **How many classes a lookup walks for makes no difference** if they are more than there are. -/
theorem walk_eq_findMethod {n : Nat} (long : h.classes.length < n) (c : ClassRef) :
    h.walk name n c = h.findMethod c name := by
  by_cases underway : h.findMethod c name = .endless
  · rw [underway]
    exact walk_eq_endless_of_long (Nat.lt_succ_self _) underway n
  · exact walk_eq_of_le long underway

end LoxValues.Heap
