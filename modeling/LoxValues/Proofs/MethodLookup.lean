import LoxValues.Proofs.SuperclassWalk

/-!
# What looking up a method finds

The chain of a class is the class, its superclass, the superclass of that, and so on.  `Heap.findMethod`
says without end where a walk of bounded length has not stopped; here it is told from the chain itself,
and from looking up without a bound.

## What is here

* `Heap.ancestor?`, `Heap.method?` — the classes on the chain, and what each has among its own methods.
* `Heap.Visits` — a class is on the chain, and none before it has the method: these are the classes that
  the walk comes to (`Heap.passed?_eq_some_iff`).
* `Heap.LooksUp` — looking up ends with a result; and `Heap.findMethod_eq_ofResult_iff` — that is the
  result of `Heap.findMethod`, which has no other.
* `Heap.findMethod_nearest` — **the nearest class on the chain decides**, and looking up has no end
  exactly if the chain has none and no class on it has the method.
-/

set_option autoImplicit false
namespace LoxValues

/-- How looking for a method ends with a result: a function, or nothing. -/
def Lookup.ofResult : Option FunctionRef → Lookup
  | some f => .found f
  | none => .absent

theorem Lookup.ofResult_ne_endless (result : Option FunctionRef) : ofResult result ≠ .endless := by
  cases result <;> nofun

theorem Lookup.ofResult_injective : Function.Injective ofResult := by
  intro r s same
  cases r <;> cases s <;> simp_all [ofResult]

namespace Heap

variable {h : Heap} {name : String} {c d e : ClassRef} {f : FunctionRef}

/-! ## The chain of a class -/

/-- The class that a class inherits from. -/
def superclass? (h : Heap) (c : ClassRef) : Option ClassRef := (h.class? c).bind (·.superclass)

/-- What a class has among its own methods under a name. -/
def method? (h : Heap) (name : String) (c : ClassRef) : Option FunctionRef :=
  (h.class? c).bind (·.methods.get? name)

/-- The class so many steps up the chain, if the chain is as long as that. -/
def ancestor? (h : Heap) : Nat → ClassRef → Option ClassRef
  | 0, c => some c
  | n + 1, c => (h.superclass? c).bind (h.ancestor? n)

/-- None of the first so many classes on the chain has the method. -/
def LacksFor (h : Heap) (name : String) (classes : Nat) (c : ClassRef) : Prop :=
  ∀ i < classes, ∀ d, h.ancestor? i c = some d → h.method? name d = none

/-- No class on the chain has the method. -/
def Lacks (h : Heap) (name : String) (c : ClassRef) : Prop :=
  ∀ i d, h.ancestor? i c = some d → h.method? name d = none

/-- A class is on the chain, and no class before it there has the method. -/
def Visits (h : Heap) (name : String) (c d : ClassRef) : Prop :=
  ∃ n, h.ancestor? n c = some d ∧ h.LacksFor name n c

/-- The chain has an end. -/
def Ends (h : Heap) (c : ClassRef) : Prop := ∃ n, h.ancestor? n c = none

/-- The chain comes to the same class twice. -/
def Recurs (h : Heap) (c : ClassRef) : Prop :=
  ∃ m n d, m < n ∧ h.ancestor? m c = some d ∧ h.ancestor? n c = some d

theorem lacksFor_succ_iff {n : Nat} (next : h.superclass? c = some d) :
    h.LacksFor name (n + 1) c ↔ h.method? name c = none ∧ h.LacksFor name n d := by
  constructor
  · intro lacks
    refine ⟨lacks 0 (Nat.succ_pos n) c rfl, fun i lt e there => ?_⟩
    exact lacks (i + 1) (Nat.succ_lt_succ lt) e (by rw [ancestor?, next, Option.bind_some, there])
  · rintro ⟨missing, lacks⟩ i lt e there
    cases i with
    | zero =>
      obtain rfl := Option.some.inj there
      exact missing
    | succ i =>
      rw [ancestor?, next, Option.bind_some] at there
      exact lacks i (Nat.lt_of_succ_lt_succ lt) e there

theorem visits_self (c : ClassRef) : h.Visits name c c := ⟨0, rfl, fun i lt => by omega⟩

/-- What is visited from a superclass on is visited from the class on that has no such method itself. -/
theorem Visits.above (missing : h.method? name c = none) (next : h.superclass? c = some d)
    (visits : h.Visits name d e) : h.Visits name c e := by
  obtain ⟨n, there, lacks⟩ := visits
  refine ⟨n + 1, ?_, (lacksFor_succ_iff next).mpr ⟨missing, lacks⟩⟩
  rw [ancestor?, next, Option.bind_some, there]

/-! ## The walk along the chain -/

theorem passes?_eq_some_iff :
    h.passes? name c = some d ↔ h.method? name c = none ∧ h.superclass? c = some d := by
  rw [passes?, method?, superclass?]
  cases h.class? c with
  | none => simp
  | some r => cases r.methods.get? name <;> simp

/-- **The walk passes the classes on the chain** as long as they do not have the method. -/
theorem passed?_eq_some_iff {n : Nat} :
    h.passed? name n c = some d ↔ h.ancestor? n c = some d ∧ h.LacksFor name n c := by
  induction n generalizing c with
  | zero => simp [passed?, ancestor?, LacksFor]
  | succ n ih =>
    rw [passed?, ancestor?, Option.bind_eq_some_iff, Option.bind_eq_some_iff]
    constructor
    · rintro ⟨e, passes, later⟩
      obtain ⟨missing, next⟩ := passes?_eq_some_iff.mp passes
      obtain ⟨there, lacks⟩ := ih.mp later
      exact ⟨⟨e, next, there⟩, (lacksFor_succ_iff next).mpr ⟨missing, lacks⟩⟩
    · rintro ⟨⟨e, next, there⟩, lacks⟩
      obtain ⟨missing, lacks⟩ := (lacksFor_succ_iff next).mp lacks
      exact ⟨e, passes?_eq_some_iff.mpr ⟨missing, next⟩, ih.mpr ⟨there, lacks⟩⟩

theorem walk_of_method (method : h.method? name c = some f) (n : Nat) :
    h.walk name (n + 1) c = .found f := by
  obtain ⟨r, here, method⟩ := Option.bind_eq_some_iff.mp method
  simp only [walk, here, method]

theorem walk_of_top (missing : h.method? name c = none) (last : h.superclass? c = none) (n : Nat) :
    h.walk name (n + 1) c = .absent := by
  rw [method?] at missing
  rw [superclass?] at last
  rw [walk]
  cases here : h.class? c with
  | none => rfl
  | some r =>
    rw [here, Option.bind_some] at missing last
    simp only [missing, last]

theorem walk_of_above (missing : h.method? name c = none) (next : h.superclass? c = some d) (n : Nat) :
    h.walk name (n + 1) c = h.walk name n d :=
  walk_of_passes? (passes?_eq_some_iff.mpr ⟨missing, next⟩) n

/-! ## Looking up without a bound -/

/-- Looking up a method comes to an end, with a function or with nothing. -/
inductive LooksUp (h : Heap) (name : String) : ClassRef → Option FunctionRef → Prop
  /-- The class has the method. -/
  | here {c : ClassRef} {f : FunctionRef} (method : h.method? name c = some f) :
      LooksUp h name c (some f)
  /-- The class does not have it and inherits from none. -/
  | top {c : ClassRef} (missing : h.method? name c = none) (last : h.superclass? c = none) :
      LooksUp h name c none
  /-- The class does not have it, and it is looked up in the superclass. -/
  | above {c d : ClassRef} {result : Option FunctionRef} (missing : h.method? name c = none)
      (next : h.superclass? c = some d) (looked : LooksUp h name d result) : LooksUp h name c result

theorem LooksUp.exists_walk {result : Option FunctionRef} (looked : h.LooksUp name c result) :
    ∃ n, h.walk name n c = .ofResult result := by
  induction looked with
  | here method => exact ⟨1, walk_of_method method 0⟩
  | top missing last => exact ⟨1, walk_of_top missing last 0⟩
  | above missing next _ ih =>
    obtain ⟨n, walked⟩ := ih
    exact ⟨n + 1, (walk_of_above missing next n).trans walked⟩

theorem looksUp_of_walk {n : Nat} {result : Option FunctionRef}
    (walked : h.walk name n c = .ofResult result) : h.LooksUp name c result := by
  induction n generalizing c with
  | zero => exact absurd walked.symm (Lookup.ofResult_ne_endless result)
  | succ n ih =>
    cases method : h.method? name c with
    | some f =>
      rw [walk_of_method method] at walked
      have same : Lookup.ofResult (some f) = .ofResult result := walked
      obtain rfl := Lookup.ofResult_injective same
      exact .here method
    | none =>
      cases next : h.superclass? c with
      | none =>
        rw [walk_of_top method next] at walked
        have same : Lookup.ofResult none = .ofResult result := walked
        obtain rfl := Lookup.ofResult_injective same
        exact .top method next
      | some d =>
        rw [walk_of_above method next] at walked
        exact .above method next (ih walked)

/-- **`Heap.findMethod` has the result that looking up without a bound has.** -/
theorem findMethod_eq_ofResult_iff {result : Option FunctionRef} :
    h.findMethod c name = .ofResult result ↔ h.LooksUp name c result := by
  refine ⟨looksUp_of_walk, fun looked => ?_⟩
  obtain ⟨n, walked⟩ := looked.exists_walk
  have stopped : h.walk name n c ≠ .endless := walked ▸ Lookup.ofResult_ne_endless result
  have enough : h.classes.length < max n (h.classes.length + 1) := by omega
  rw [← walk_eq_findMethod enough, walk_eq_of_le (Nat.le_max_left _ _) stopped, walked]

/-- Looking up has no end exactly if no walk has stopped. -/
theorem findMethod_eq_endless_iff :
    h.findMethod c name = .endless ↔ ∀ n, h.walk name n c = .endless :=
  ⟨walk_eq_endless_of_long (Nat.lt_succ_self _), fun underway => underway _⟩

theorem findMethod_eq_endless_iff_not_looksUp :
    h.findMethod c name = .endless ↔ ∀ result, ¬ h.LooksUp name c result := by
  simp only [← findMethod_eq_ofResult_iff]
  cases found : h.findMethod c name with
  | endless => simpa using fun result => (Lookup.ofResult_ne_endless result).symm
  | found f => simpa using ⟨some f, rfl⟩
  | absent => simpa using ⟨none, rfl⟩

/-! ## What decides -/

theorem LooksUp.exists_visits {result : Option FunctionRef} (looked : h.LooksUp name c result)
    (found : result = some f) : ∃ d, h.Visits name c d ∧ h.method? name d = some f := by
  induction looked with
  | here method =>
    cases found
    exact ⟨_, visits_self _, method⟩
  | top => cases found
  | above missing next _ ih =>
    obtain ⟨d, visits, method⟩ := ih found
    exact ⟨d, visits.above missing next, method⟩

theorem looksUp_of_visits (visits : h.Visits name c d) (method : h.method? name d = some f) :
    h.LooksUp name c (some f) := by
  obtain ⟨n, there, lacks⟩ := visits
  induction n generalizing c with
  | zero =>
    obtain rfl := Option.some.inj there
    exact .here method
  | succ n ih =>
    obtain ⟨e, next, there⟩ := Option.bind_eq_some_iff.mp there
    obtain ⟨missing, lacks⟩ := (lacksFor_succ_iff next).mp lacks
    exact .above missing next (ih there lacks)

/-- **A function is found in the nearest class that has one.** -/
theorem findMethod_eq_found_iff :
    h.findMethod c name = .found f ↔ ∃ d, h.Visits name c d ∧ h.method? name d = some f := by
  rw [show Lookup.found f = .ofResult (some f) from rfl, findMethod_eq_ofResult_iff]
  constructor
  · intro looked
    exact looked.exists_visits rfl
  · rintro ⟨d, visits, method⟩
    exact looksUp_of_visits visits method

/-- Where no function is found, no class on the chain has one. -/
theorem lacks_of_not_found (none : ∀ f, h.findMethod c name ≠ .found f) : h.Lacks name c := by
  intro n
  induction n using Nat.strong_induction_on with
  | _ n before =>
    intro d there
    by_contra held
    obtain ⟨f, method⟩ := Option.ne_none_iff_exists'.mp held
    exact none f (findMethod_eq_found_iff.mpr ⟨d, ⟨n, there, before⟩, method⟩)

/-! ## Chains on which no class has the method -/

/-- Where no class on the chain has the method, the walk passes all of them. -/
theorem Lacks.passed?_eq (lacks : h.Lacks name c) (n : Nat) : h.passed? name n c = h.ancestor? n c := by
  refine Option.ext fun d => ?_
  rw [passed?_eq_some_iff, and_iff_left]
  exact fun i _ => lacks i

theorem Lacks.findMethod_ne_found (lacks : h.Lacks name c) (f : FunctionRef) :
    h.findMethod c name ≠ .found f := by
  intro found
  obtain ⟨d, ⟨n, there, -⟩, method⟩ := findMethod_eq_found_iff.mp found
  rw [lacks n d there] at method
  cases method

theorem Lacks.findMethod_eq_endless_iff (lacks : h.Lacks name c) :
    h.findMethod c name = .endless ↔ ∀ n, (h.ancestor? n c).isSome := by
  rw [Heap.findMethod_eq_endless_iff]
  simp only [walk_eq_endless_iff, lacks.passed?_eq]

/-- Where no class on the chain has the method, nothing is found if the chain ends. -/
theorem Lacks.findMethod_eq_absent_iff (lacks : h.Lacks name c) :
    h.findMethod c name = .absent ↔ h.Ends c := by
  constructor
  · intro absent
    by_contra never
    have goesOn : h.findMethod c name = .endless := lacks.findMethod_eq_endless_iff.mpr fun n =>
      Option.isSome_iff_ne_none.mpr fun last => never ⟨n, last⟩
    rw [absent] at goesOn
    cases goesOn
  · rintro ⟨n, last⟩
    cases found : h.findMethod c name with
    | absent => rfl
    | found f => exact absurd found (lacks.findMethod_ne_found f)
    | endless =>
      have goesOn := lacks.findMethod_eq_endless_iff.mp found n
      rw [last] at goesOn
      cases goesOn

/-- A chain that comes to a class twice goes on for ever. -/
theorem Lacks.endless_of_recurs (lacks : h.Lacks name c) (recurs : h.Recurs c) :
    h.findMethod c name = .endless := by
  obtain ⟨m, n, d, lt, here, again⟩ := recurs
  obtain ⟨k, rfl⟩ := Nat.exists_eq_add_of_lt lt
  rw [← lacks.passed?_eq] at here again
  rw [Nat.add_assoc, passed?_add, here, Option.bind_some] at again
  exact walk_eq_endless_of_returns here again _

/-- A chain that has more classes than there are comes to one of them twice. -/
theorem Lacks.recurs_of_endless (lacks : h.Lacks name c) (endless : h.findMethod c name = .endless) :
    h.Recurs c := by
  obtain ⟨i, k, d, here, returns⟩ :=
    exists_returns (Nat.lt_succ_self _) (walk_eq_endless_iff.mp endless)
  have again : h.passed? name (i + (k + 1)) c = some d := by
    rw [passed?_add, here, Option.bind_some, returns]
  rw [lacks.passed?_eq] at here again
  exact ⟨i, i + (k + 1), d, by omega, here, again⟩

/-- Where all classes on the chain are there, a walk that has visited as many classes as there are has
come to one of them twice. -/
theorem endless_of_walk (there : ∀ n d, h.ancestor? n c = some d → (h.class? d).isSome)
    (underway : h.walk name h.classes.length c = .endless) : h.findMethod c name = .endless := by
  rw [walk_eq_endless_iff] at underway
  obtain ⟨i, k, d, here, returns⟩ := exists_returns_of_mem (Nat.le_refl _) fun i le => by
    obtain ⟨d, here⟩ := Option.isSome_iff_exists.mp (isSome_passed?_of_le le underway)
    obtain ⟨r, found⟩ := Option.isSome_iff_exists.mp (there i d (passed?_eq_some_iff.mp here).1)
    rw [here]
    exact Finset.mem_image.mpr
      ⟨d.index, Finset.mem_range.mpr (List.getElem?_eq_some_iff.mp found).1, rfl⟩
  exact walk_eq_endless_of_returns here returns _

/-- **Looking up a method finds the nearest one, and ends if it can.**  A function is found if it is what
the first class on the chain that has the method at all has under that name.  Nothing is found if the
chain ends and no class on it has the method.  Otherwise the chain comes to a class twice and no class on
it has the method, and looking up has no end.  This is what comes of looking up without a bound; and
where all classes on the chain are there, a walk that has not stopped after visiting as many classes as
there are never will. -/
theorem findMethod_nearest (h : Heap) (c : ClassRef) (name : String) :
    (∀ f, h.findMethod c name = .found f ↔ ∃ d, h.Visits name c d ∧ h.method? name d = some f) ∧
    (h.findMethod c name = .absent ↔ h.Ends c ∧ h.Lacks name c) ∧
    (h.findMethod c name = .endless ↔ h.Recurs c ∧ h.Lacks name c) ∧
    (∀ result, h.findMethod c name = .ofResult result ↔ h.LooksUp name c result) ∧
    (h.findMethod c name = .endless ↔ ∀ result, ¬ h.LooksUp name c result) ∧
    ((∀ n d, h.ancestor? n c = some d → (h.class? d).isSome) →
      h.walk name h.classes.length c = .endless → ∀ result, ¬ h.LooksUp name c result) := by
  refine ⟨fun f => findMethod_eq_found_iff, ⟨fun absent => ?_, ?_⟩, ⟨fun endless => ?_, ?_⟩,
    fun result => findMethod_eq_ofResult_iff, findMethod_eq_endless_iff_not_looksUp,
    fun there underway => findMethod_eq_endless_iff_not_looksUp.mp (endless_of_walk there underway)⟩
  · have lacks : h.Lacks name c := lacks_of_not_found fun f => by rw [absent]; nofun
    exact ⟨lacks.findMethod_eq_absent_iff.mp absent, lacks⟩
  · rintro ⟨ends, lacks⟩
    exact lacks.findMethod_eq_absent_iff.mpr ends
  · have lacks : h.Lacks name c := lacks_of_not_found fun f => by rw [endless]; nofun
    exact ⟨lacks.recurs_of_endless endless, lacks⟩
  · rintro ⟨recurs, lacks⟩
    exact lacks.endless_of_recurs recurs

/-- A class below two that inherit from each other and both have a method. -/
def eddy : Heap :=
  { empty with
    classes := [⟨"A", .empty, .empty, .empty, .empty, some ⟨1⟩, []⟩,
      ⟨"B", .ofList [("f", ⟨1⟩)], .empty, .empty, .empty, some ⟨2⟩, []⟩,
      ⟨"C", .ofList [("f", ⟨2⟩)], .empty, .empty, .empty, some ⟨1⟩, []⟩] }

theorem isSome_class?_eddy {n : Nat} (start : c.index < 3) (there : eddy.ancestor? n c = some d) :
    (eddy.class? d).isSome := by
  have closed : ∀ i < 3, ∀ e ∈ eddy.superclass? ⟨i⟩, e.index < 3 := by decide
  induction n generalizing c with
  | zero =>
    obtain rfl := Option.some.inj there
    simpa [class?, eddy] using start
  | succ n ih =>
    obtain ⟨e, next, there⟩ := Option.bind_eq_some_iff.mp there
    exact ih (closed c.index start e next) there

/-- The lowest class of `eddy` has the method of the nearer one of the others, and looking up anything
else in it has no end. -/
theorem findMethod_eddy :
    eddy.Visits "f" ⟨0⟩ ⟨1⟩ ∧ eddy.findMethod ⟨0⟩ "f" = .found ⟨1⟩ ∧
    eddy.walk "g" 3 ⟨0⟩ = .endless ∧ ∀ result, ¬ eddy.LooksUp "g" ⟨0⟩ result := by
  obtain ⟨found, -⟩ := eddy.findMethod_nearest ⟨0⟩ "f"
  obtain ⟨-, -, -, -, -, bound⟩ := eddy.findMethod_nearest ⟨0⟩ "g"
  have visits : eddy.Visits "f" ⟨0⟩ ⟨1⟩ := (visits_self _).above (by decide) (by decide)
  have underway : eddy.walk "g" 3 ⟨0⟩ = .endless := by decide
  exact ⟨visits, (found _).mpr ⟨_, visits, by decide⟩, underway,
    bound (fun n d there => isSome_class?_eddy (by decide) there) underway⟩

end Heap
end LoxValues
