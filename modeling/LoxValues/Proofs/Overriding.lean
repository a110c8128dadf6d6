import Mathlib.Data.Nat.Find
import LoxValues.Proofs.MethodLookup
import LoxValues.World.Step

/-!
# Overriding methods

Writing a method of a class changes what is found from every class whose walk comes to it.  These are
the classes from which it is on the chain with no other one before it that has the method: overriding
stops at whatever overrides already.

## What is here

* `Heap.method?_setMethod_of_ne`, `Heap.superclass?_setMethod` — what writing a method leaves alone:
  all that other classes have, all other methods of the class, and every chain.
* `Heap.findMethod_congr` — what is found depends only on the classes that the walk comes to.
* `Heap.findMethod_setMethod` — **the reach of an override**, and that the other tables of a class have
  none.
-/

set_option autoImplicit false
namespace LoxValues.Heap

variable {g h : Heap} {c d : ClassRef} {f : FunctionRef} {name k : String}

/-! ## Looking at the same classes -/

/-- A class that has the method is the last one that the walk comes to. -/
theorem Visits.eq_of_method (visits : h.Visits name d c) (method : h.method? name d = some f) :
    c = d := by
  obtain ⟨n, there, lacks⟩ := visits
  cases n with
  | zero => exact (Option.some.inj there).symm
  | succ n =>
    rw [lacks 0 (Nat.succ_pos n) d rfl] at method
    cases method

theorem walk_congr (same : ∀ e, h.Visits name d e →
      g.method? name e = h.method? name e ∧ g.superclass? e = h.superclass? e) (n : Nat) :
    g.walk name n d = h.walk name n d := by
  induction n generalizing d with
  | zero => rfl
  | succ n ih =>
    obtain ⟨sameMethod, sameNext⟩ := same d (visits_self d)
    cases method : h.method? name d with
    | some f => rw [walk_of_method method, walk_of_method (sameMethod.trans method)]
    | none =>
      rw [method] at sameMethod
      cases next : h.superclass? d with
      | none => rw [walk_of_top method next, walk_of_top sameMethod (sameNext.trans next)]
      | some e =>
        rw [walk_of_above method next, walk_of_above sameMethod (sameNext.trans next)]
        exact ih fun a visits => same a (visits.above method next)

/-- **What is found depends only on the classes that the walk comes to**: on their superclasses, and on
what they have under the name. -/
theorem findMethod_congr (same : ∀ e, h.Visits name d e →
      g.method? name e = h.method? name e ∧ g.superclass? e = h.superclass? e) :
    g.findMethod d name = h.findMethod d name := by
  rw [← walk_eq_findMethod (Nat.lt_succ_of_le (Nat.le_max_left g.classes.length h.classes.length)),
    ← walk_eq_findMethod (Nat.lt_succ_of_le (Nat.le_max_right g.classes.length h.classes.length))]
  exact walk_congr same _

/-! ## Writing a method -/

theorem superclass?_setMethod (h : Heap) (c : ClassRef) (table : MethodTable) (name : String)
    (f : FunctionRef) (e : ClassRef) :
    (h.setMethod c table name f).superclass? e = h.superclass? e := by
  rw [superclass?, setMethod, class?_modifyClass, superclass?]
  split
  · cases h.class? e <;> cases table <;> rfl
  · rfl

theorem ancestor?_setMethod (h : Heap) (c : ClassRef) (table : MethodTable) (name : String)
    (f : FunctionRef) (n : Nat) (e : ClassRef) :
    (h.setMethod c table name f).ancestor? n e = h.ancestor? n e := by
  induction n generalizing e with
  | zero => rfl
  | succ n ih =>
    rw [ancestor?, ancestor?, superclass?_setMethod]
    exact congrArg _ (funext ih)

/-- Nothing changes for other tables, other classes and other names. -/
theorem method?_setMethod_of_ne {table : MethodTable} {e : ClassRef}
    (other : table ≠ .methods ∨ e ≠ c ∨ k ≠ name) :
    (h.setMethod c table name f).method? k e = h.method? k e := by
  rw [method?, setMethod, class?_modifyClass, method?]
  split
  · next here =>
    cases h.class? e with
    | none => rfl
    | some r =>
      cases table with
      | methods =>
        have ne : k ≠ name := by simpa [here] using other
        simp [Table.get?_insert, ne]
      | statics | getters | setters => rfl
  · rfl

theorem method?_setMethod_self (there : (h.class? c).isSome) :
    (h.setMethod c .methods name f).method? name c = some f := by
  obtain ⟨r, here⟩ := Option.isSome_iff_exists.mp there
  rw [method?, setMethod, class?_modifyClass, if_pos rfl, here]
  simp [Table.get?_insert]

/-- The walk comes to the class also after one of its methods is written.  It is enough to look at the
first time that it does: before that, it has not come by what is changed. -/
theorem Visits.setMethod (visits : h.Visits name d c) :
    (h.setMethod c .methods name f).Visits name d c := by
  classical
  obtain ⟨n, there, lacks⟩ := visits
  have somewhere : ∃ m, h.ancestor? m d = some c := ⟨n, there⟩
  refine ⟨Nat.find somewhere, ?_, fun i before e here => ?_⟩
  · rw [ancestor?_setMethod]
    exact Nat.find_spec somewhere
  · rw [ancestor?_setMethod] at here
    have other : e ≠ c := by
      rintro rfl
      exact Nat.find_min somewhere before here
    rw [method?_setMethod_of_ne (.inr (.inl other))]
    exact lacks i (before.trans_le (Nat.find_le there)) e here

/-- **The reach of an override.**  Let a function be written under a name among the methods of a class.
From the classes on whose chain this class is, with none before it that had the method, that function is
found under that name, even where looking up had no end.  From all other classes, and under other names,
the same is found as before, or there is no end as before.  Writing a function to any other table of the
class changes nothing that is found. -/
theorem findMethod_setMethod (there : (h.class? c).isSome) (name : String) (f : FunctionRef)
    (d : ClassRef) (k : String) :
    (k = name ∧ h.Visits name d c → (h.setMethod c .methods name f).findMethod d k = .found f) ∧
    (¬ (k = name ∧ h.Visits name d c) →
      (h.setMethod c .methods name f).findMethod d k = h.findMethod d k) ∧
    ∀ table, table ≠ .methods → (h.setMethod c table name f).findMethod d k = h.findMethod d k := by
  refine ⟨?_, fun apart => ?_, fun table other => ?_⟩
  · rintro ⟨rfl, visits⟩
    exact findMethod_eq_found_iff.mpr ⟨c, visits.setMethod, method?_setMethod_self there⟩
  · refine findMethod_congr fun e visits => ⟨method?_setMethod_of_ne (.inr ?_),
      superclass?_setMethod h c _ name f e⟩
    by_contra same
    push Not at same
    obtain ⟨rfl, rfl⟩ := same
    exact apart ⟨rfl, visits⟩
  · exact findMethod_congr fun e _ => ⟨method?_setMethod_of_ne (.inl other),
      superclass?_setMethod h c table name f e⟩

/-- Overriding the method of the second class of `eddy` reaches the lowest one, but not the third, which
has one of its own though the second is further up its chain; a getter of that name reaches none. -/
theorem findMethod_overridden :
    (eddy.setMethod ⟨1⟩ .methods "f" ⟨5⟩).findMethod ⟨0⟩ "f" = .found ⟨5⟩ ∧
    (eddy.setMethod ⟨1⟩ .methods "f" ⟨5⟩).findMethod ⟨2⟩ "f" = .found ⟨2⟩ ∧
    (eddy.setMethod ⟨1⟩ .getters "f" ⟨5⟩).findMethod ⟨0⟩ "f" = .found ⟨1⟩ := by
  have there : (eddy.class? ⟨1⟩).isSome := by decide
  have visits : eddy.Visits "f" ⟨0⟩ ⟨1⟩ := (visits_self _).above (by decide) (by decide)
  have apart : ¬ eddy.Visits "f" ⟨2⟩ ⟨1⟩ := by
    intro visits
    have same : (⟨1⟩ : ClassRef) = ⟨2⟩ := visits.eq_of_method (f := ⟨2⟩) (by decide)
    cases same
  obtain ⟨reached, -, getters⟩ := findMethod_setMethod there "f" ⟨5⟩ ⟨0⟩ "f"
  obtain ⟨-, kept, -⟩ := findMethod_setMethod there "f" ⟨5⟩ ⟨2⟩ "f"
  refine ⟨reached ⟨rfl, visits⟩, ?_, ?_⟩
  · rw [kept fun both => apart both.2]
    decide
  · rw [getters .getters (by decide)]
    decide

end LoxValues.Heap
