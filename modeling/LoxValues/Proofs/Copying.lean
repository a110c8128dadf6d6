import LoxValues.Proofs.Equivalence

/-!
# Copies

A *renaming* gives every descriptor another place.  It *copies* a value if, for each descriptor that
the value refers to, however indirectly, the record at the new place is the old record with new places
for old ones, and if no new place is an old one.  So the copy has the shape of the value, down to what
is shared and what comes back to itself.  Two descriptors may even have the same copy: nothing here
needs that they do not.  A float in the copy has the number of the float that it is a copy of; it may
have been copied with its box or been made anew, each float on its own.

Comparing a value with its copy can only fail at a not-a-number that was made anew, which differs from
the one in the old box.  It fails there wherever it is hidden: the comparison comes by every descriptor
that the value refers to, because a pair that is assumed to be equal is compared somewhere further out.

## What is here

* `Renaming`, and what it does to references, values and closures.
* `Heap.CopiedTo` — a record is copied to its new place.  Such a record matches its copy exactly if its
  not-a-numbers stay in their boxes and its references are related to their images
  (`Heap.matches_rename_iff`).
* `Slot`, `Heap.kept?` — the values that a descriptor keeps, each in its slot.
* `Heap.Reaches`, `Heap.HoldsNan` — what a value refers to, and whether there is not-a-number in it.
* `Heap.IsCopy` — one value is a copy of another, and then bisimilar to it if the copy keeps all
  not-a-numbers in their boxes, and not otherwise (`Heap.IsCopy.bisimilar_iff`).
* `Heap.CyclesGuarded.equal?_copy` — the same as an answer of the comparison.
-/

set_option autoImplicit false
namespace LoxValues

open Relation (ReflTransGen)

/-! ## Renamings -/

/-- New places for the descriptors of each kind. -/
structure Renaming where
  /-- For functions. -/
  function : FunctionRef → FunctionRef
  /-- For classes. -/
  cls : ClassRef → ClassRef
  /-- For objects. -/
  object : ObjectRef → ObjectRef
  /-- For traits. -/
  trait : TraitRef → TraitRef
  /-- For arrays. -/
  array : ArrayRef → ArrayRef

/-- A descriptor at its new place. -/
def Descriptor.rename (φ : Renaming) : Descriptor → Descriptor
  | .function f => .function (φ.function f)
  | .cls c => .cls (φ.cls c)
  | .object o => .object (φ.object o)
  | .trait t => .trait (φ.trait t)
  | .array a => .array (φ.array a)

/-- A value with its descriptors at their new places. -/
def Value.rename (φ : Renaming) : Value → Value
  | .function f => .function (φ.function f)
  | .method f o => .method (φ.function f) (φ.object o)
  | .cls c => .cls (φ.cls c)
  | .object o => .object (φ.object o)
  | .trait t => .trait (φ.trait t)
  | .array a => .array (φ.array a)
  | v => v

/-- A closure with its descriptors at their new places. -/
def Closure.rename (φ : Renaming) : Closure → Closure
  | .value v => .value (v.rename φ)
  | c => c

/-! ## Copied records -/

/-- A value and its copy: the descriptors are at their new places, and a float is in any box. -/
def Value.CopiedBy (φ : Renaming) (v w : Value) : Prop := ∃ box, w = (v.rename φ).inBox box

/-- The box may be kept. -/
theorem Value.copiedBy_rename (φ : Renaming) (v : Value) : v.CopiedBy φ (v.rename φ) := by
  cases v with
  | float x box => exact ⟨box, rfl⟩
  | _ => exact ⟨0, rfl⟩

/-- A closure and its copy. -/
inductive Closure.CopiedBy (φ : Renaming) : Closure → Closure → Prop
  | none : CopiedBy φ .none .none
  | mark (s : String) : CopiedBy φ (.mark s) (.mark s)
  | value {v w : Value} (h : v.CopiedBy φ w) : CopiedBy φ (.value v) (.value w)

/-- Two tables with the same names, where the second has the images of what the first has. -/
def Table.CopiedBy {α : Type} (f : α → α) (s t : Table α) : Prop :=
  ∀ name, t.get? name = (s.get? name).map f

theorem Table.find?_map {α : Type} (f : α → α) (name : String) (entries : List (String × α)) :
    find? name (entries.map fun e => (e.1, f e.2)) = (find? name entries).map f := by
  induction entries with
  | nil => rfl
  | cons e rest ih =>
    rw [List.map_cons, find?, find?, ih, apply_ite (Option.map f)]
    rfl

/-- In particular, the entries may come in the same order. -/
theorem Table.copiedBy_of_entries {α : Type} {f : α → α} {s t : Table α}
    (entries : t.entries = s.entries.map fun e => (e.1, f e.2)) : s.CopiedBy f t := by
  intro name
  rw [get?, entries, find?_map, get?]

/-- What is said of all things and their images is said of two tables of these. -/
theorem Table.CopiedBy.related {α : Type} {f : α → α} {P : α → α → Prop} {s t : Table α}
    (copied : s.CopiedBy f t) (each : ∀ x, P x (f x)) : s.Related P t := by
  intro name
  rw [copied name]
  cases s.get? name with
  | none => exact .none
  | some x => exact .some (each x)

/-- A function and its copy. -/
structure FunctionRecord.CopiedBy (φ : Renaming) (r s : FunctionRecord) : Prop where
  name : s.name = r.name
  params : s.params = r.params
  body : s.body = r.body
  closure : r.closure.CopiedBy φ s.closure
  initializer : s.initializer = r.initializer

/-- A class and its copy. -/
structure ClassRecord.CopiedBy (φ : Renaming) (r s : ClassRecord) : Prop where
  name : s.name = r.name
  methods : r.methods.CopiedBy φ.function s.methods
  statics : r.statics.CopiedBy φ.function s.statics
  getters : r.getters.CopiedBy φ.function s.getters
  setters : r.setters.CopiedBy φ.function s.setters
  superclass : s.superclass = r.superclass.map φ.cls
  traits : s.traits = r.traits

/-- An object and its copy. -/
structure ObjectRecord.CopiedBy (φ : Renaming) (r s : ObjectRecord) : Prop where
  cls : s.cls = φ.cls r.cls
  fields : r.fields.Related (Value.CopiedBy φ) s.fields

/-- An array and its copy. -/
structure ArrayRecord.CopiedBy (φ : Renaming) (r s : ArrayRecord) : Prop where
  capacity : s.capacity = r.capacity
  elements : List.Forall₂ (Value.CopiedBy φ) r.elements s.elements

namespace Heap

/-- The record of a descriptor is there, and copied to the new place, which may be in another heap. -/
def CopiedTo (g : Heap) (φ : Renaming) (h : Heap) : Descriptor → Prop
  | .function f => RecordsMatch (FunctionRecord.CopiedBy φ) (g.function? f) (h.function? (φ.function f))
  | .cls c => RecordsMatch (ClassRecord.CopiedBy φ) (g.class? c) (h.class? (φ.cls c))
  | .object o => RecordsMatch (ObjectRecord.CopiedBy φ) (g.object? o) (h.object? (φ.object o))
  | .trait t => RecordsMatch Eq (g.trait? t) (h.trait? (φ.trait t))
  | .array a => RecordsMatch (ArrayRecord.CopiedBy φ) (g.array? a) (h.array? (φ.array a))

end Heap

/-! ## What is kept -/

/-- Where a descriptor keeps a value. -/
inductive Slot where
  /-- A function keeps what it closes over. -/
  | closure
  /-- An object keeps its fields. -/
  | field (name : String)
  /-- An array keeps its elements. -/
  | element (index : Nat)

/-- The value that a closure is. -/
def Closure.value? : Closure → Option Value
  | .value v => some v
  | _ => .none

/-- If it is not-a-number, then the copy of a value is in the same box. -/
def Value.KeepsNan (v w : Value) : Prop := v.isNan = true → w = v

namespace Heap

/-- The value that a descriptor keeps in a slot. -/
def kept? (h : Heap) : Descriptor → Slot → Option Value
  | .function f, .closure => (h.function? f).bind fun r => r.closure.value?
  | .object o, .field name => h.field? o name
  | .array a, .element index => (h.elements a)[index]?
  | _, _ => none

/-- A value refers to a descriptor, directly or through others. -/
def Reaches (h : Heap) (v : Value) (x : Descriptor) : Prop :=
  ∃ y ∈ v.references, ReflTransGen h.Refers y x

/-- Not-a-number is the value, or is kept by a descriptor that the value refers to. -/
def HoldsNan (h : Heap) (v : Value) : Prop :=
  v.isNan = true ∨ ∃ x, h.Reaches v x ∧ ∃ slot, ∃ u ∈ h.kept? x slot, u.isNan = true

/-- One value is a copy of another: all descriptors that the other refers to are copied, and to places
where none of them is. -/
structure IsCopy (h : Heap) (φ : Renaming) (v w : Value) : Prop where
  value : v.CopiedBy φ w
  copied : ∀ x, h.Reaches v x → h.CopiedTo φ h x
  apart : ∀ x y, h.Reaches v x → h.Reaches v y → x.rename φ ≠ y

/-- In every slot of a descriptor and of its copy, not-a-number is in the same box. -/
def SlotsKeepNan (h : Heap) (x y : Descriptor) : Prop :=
  ∀ slot, ∀ u ∈ h.kept? x slot, ∀ u' ∈ h.kept? y slot, u.KeepsNan u'

/-- The copy of a value keeps each not-a-number in its box: that which the value is, and those that are
kept by descriptors which the value refers to. -/
structure CopyKeepsNan (h : Heap) (φ : Renaming) (v w : Value) : Prop where
  value : v.KeepsNan w
  slots : ∀ x, h.Reaches v x → h.SlotsKeepNan x (x.rename φ)

/-- The copy of a value has each not-a-number in another box. -/
structure CopyRenewsNan (h : Heap) (φ : Renaming) (v w : Value) : Prop where
  value : v.isNan = true → w ≠ v
  slots : ∀ x, h.Reaches v x → ∀ slot, ∀ u ∈ h.kept? x slot, ∀ u' ∈ h.kept? (x.rename φ) slot,
    u.isNan = true → u' ≠ u

end Heap

/-! ## Matching a copy -/

section Matching

variable {R : DescriptorRelation} {φ : Renaming}

theorem Value.CopiedBy.related_iff {v w : Value} (copied : v.CopiedBy φ w) :
    v.Related R w ↔ v.KeepsNan w ∧ ∀ y ∈ v.references, R y (y.rename φ) := by
  obtain ⟨box, rfl⟩ := copied
  cases v with
  | float x i =>
    exact related_float_inBox_iff.trans (and_iff_left (List.forall_mem_nil _)).symm
  | _ =>
    rw [← forall_goals_iff]
    simp [goals, rename, inBox, references, Descriptor.rename, identical, KeepsNan, isNan]

theorem Closure.CopiedBy.related_iff {c d : Closure} (copied : c.CopiedBy φ d) :
    c.Related R d ↔
      (∀ v ∈ c.value?, ∀ w ∈ d.value?, v.KeepsNan w) ∧ ∀ y ∈ c.references, R y (y.rename φ) := by
  cases copied with
  | none => exact iff_of_true .none (by simp [value?, references])
  | mark s => exact iff_of_true (.mark s) (by simp [value?, references])
  | @value v w h =>
    have inner : (Closure.value v).Related R (.value w) ↔ v.Related R w := by
      refine ⟨fun related => ?_, .value⟩
      cases related with
      | value related => exact related
    rw [inner, h.related_iff]
    simp [value?, references]

/-- Copied elements are related to the elements, index by index. -/
theorem forall₂_related_iff_of_copied {vs ws : List Value}
    (copied : List.Forall₂ (Value.CopiedBy φ) vs ws) :
    List.Forall₂ (Value.Related R) vs ws ↔
      (∀ index : Nat, ∀ v ∈ vs[index]?, ∀ w ∈ ws[index]?, v.KeepsNan w) ∧
        ∀ y ∈ vs.flatMap Value.references, R y (y.rename φ) := by
  induction copied with
  | nil => simp
  | cons head _ ih =>
    rw [List.forall₂_cons, head.related_iff, ih, List.flatMap_cons, List.forall_mem_append,
      and_and_and_comm]
    refine and_congr_left' ?_
    rw [← Nat.and_forall_add_one (p := fun index => ∀ v ∈ (_ :: _)[index]?, _)]
    simp

theorem optionRel_map_iff {α : Type} {P : α → α → Prop} {f : α → α} {r : Option α} :
    Option.Rel P r (r.map f) ↔ ∀ x ∈ r, P x (f x) := by
  cases r with
  | none => exact iff_of_true .none nofun
  | some x =>
    constructor
    · rintro (h | _) y mem
      obtain rfl := Option.some.inj mem
      exact h
    · exact fun each => .some (each x rfl)

theorem optionRel_related_iff_of_copied {r s : Option Value}
    (copied : Option.Rel (Value.CopiedBy φ) r s) :
    Option.Rel (Value.Related R) r s ↔
      (∀ v ∈ r, ∀ w ∈ s, v.KeepsNan w) ∧ ∀ v ∈ r, ∀ y ∈ v.references, R y (y.rename φ) := by
  cases copied with
  | none => exact iff_of_true .none ⟨nofun, nofun⟩
  | @some v w h =>
    have inner : Option.Rel (Value.Related R) (some v) (some w) ↔ v.Related R w :=
      ⟨fun | .some related => related, .some⟩
    rw [inner, h.related_iff]
    simp

/-- Copied fields are related to the fields, name by name. -/
theorem Table.related_iff_of_copied {s t : Table Value} (copied : s.Related (Value.CopiedBy φ) t) :
    s.Related (Value.Related R) t ↔
      (∀ name, ∀ v ∈ s.get? name, ∀ w ∈ t.get? name, v.KeepsNan w) ∧
        ∀ y ∈ s.entries.flatMap fun e => e.2.references, R y (y.rename φ) := by
  have references : (∀ y ∈ s.entries.flatMap fun e => e.2.references, R y (y.rename φ)) ↔
      ∀ name, ∀ v ∈ s.get? name, ∀ y ∈ v.references, R y (y.rename φ) := by
    simp only [List.mem_flatMap, forall_exists_index, and_imp, Prod.forall, mem_entries_iff,
      Option.mem_def]
    exact ⟨fun each name v found y mem => each y name v found mem,
      fun each y name v found mem => each name v found y mem⟩
  rw [references, ← forall_and]
  exact forall_congr' fun name => optionRel_related_iff_of_copied (copied name)

theorem methodsRelated_iff_of_copied {s t : Table FunctionRef} (copied : s.CopiedBy φ.function t) :
    methodsRelated R s t ↔ ∀ y ∈ methodReferences s, R y (y.rename φ) := by
  have names : methodsRelated R s t ↔
      ∀ name, ∀ f ∈ s.get? name, R (.function f) (.function (φ.function f)) :=
    forall_congr' fun name => by rw [copied name, optionRel_map_iff]
  rw [names, methodReferences, List.forall_mem_map]
  constructor
  · exact fun each e mem => each e.1 e.2 (Table.mem_entries_iff.mp mem)
  · exact fun each name f found => each (name, f) (Table.mem_entries_iff.mpr found)

theorem FunctionRecord.matches_iff_of_copied {r s : FunctionRecord} (copied : r.CopiedBy φ s) :
    r.Matches R s ↔
      (∀ v ∈ r.closure.value?, ∀ w ∈ s.closure.value?, v.KeepsNan w) ∧
        ∀ y ∈ r.closure.references, R y (y.rename φ) := by
  rw [← copied.closure.related_iff]
  constructor
  · exact fun m => m.closure
  · exact fun closure => ⟨copied.name.symm, copied.params.symm, copied.body.symm, closure,
      copied.initializer.symm⟩

theorem ClassRecord.matches_iff_of_copied {r s : ClassRecord} (copied : r.CopiedBy φ s) :
    r.Matches R s ↔ ∀ y ∈ r.references, R y (y.rename φ) := by
  have superclass : Option.Rel (fun c d => R (.cls c) (.cls d)) r.superclass s.superclass ↔
      ∀ y ∈ (r.superclass.map Descriptor.cls).toList, R y (y.rename φ) := by
    rw [copied.superclass, optionRel_map_iff]
    simp [Descriptor.rename]
  simp only [references, List.forall_mem_append, ← methodsRelated_iff_of_copied copied.methods,
    ← methodsRelated_iff_of_copied copied.statics, ← methodsRelated_iff_of_copied copied.getters,
    ← methodsRelated_iff_of_copied copied.setters, ← superclass]
  constructor
  · exact fun m => ⟨⟨⟨⟨m.methods, m.statics⟩, m.getters⟩, m.setters⟩, m.superclass⟩
  · rintro ⟨⟨⟨⟨methods, statics⟩, getters⟩, setters⟩, superclass⟩
    exact ⟨copied.name.symm, methods, statics, getters, setters, superclass, copied.traits.symm⟩

theorem ObjectRecord.matches_iff_of_copied {r s : ObjectRecord} (copied : r.CopiedBy φ s) :
    r.Matches R s ↔
      (∀ name, ∀ v ∈ r.fields.get? name, ∀ w ∈ s.fields.get? name, v.KeepsNan w) ∧
        ∀ y ∈ r.references, R y (y.rename φ) := by
  have cls : R (.cls r.cls) (.cls s.cls) ↔ R (.cls r.cls) ((Descriptor.cls r.cls).rename φ) := by
    rw [copied.cls, Descriptor.rename]
  rw [references, List.forall_mem_cons, and_left_comm, ← Table.related_iff_of_copied copied.fields,
    ← cls]
  exact ⟨fun m => ⟨m.cls, m.fields⟩, fun m => ⟨m.1, m.2⟩⟩

theorem ArrayRecord.matches_iff_of_copied {r s : ArrayRecord} (copied : r.CopiedBy φ s) :
    r.Matches R s ↔
      (∀ index : Nat, ∀ v ∈ r.elements[index]?, ∀ w ∈ s.elements[index]?, v.KeepsNan w) ∧
        ∀ y ∈ r.references, R y (y.rename φ) := by
  rw [references, ← forall₂_related_iff_of_copied copied.elements]
  exact ⟨fun m => m.elements, fun m => ⟨copied.capacity.symm, m⟩⟩

theorem Heap.slotsKeepNan_of_kept?_eq_none {h : Heap} {x y : Descriptor}
    (empty : ∀ slot, h.kept? x slot = none) : h.SlotsKeepNan x y := by
  intro slot u kept
  rw [empty] at kept
  cases kept

theorem Heap.kept?_closure {h : Heap} {f : FunctionRef} {r : FunctionRecord}
    (found : r ∈ h.function? f) : h.kept? (.function f) .closure = r.closure.value? := by
  rw [kept?, Option.mem_def.mp found, Option.bind_some]

theorem Heap.kept?_field {h : Heap} {o : ObjectRef} {r : ObjectRecord} (found : r ∈ h.object? o)
    (name : String) : h.kept? (.object o) (.field name) = r.fields.get? name := by
  rw [kept?, field?, Option.mem_def.mp found, Option.bind_some]

theorem Heap.kept?_element {h : Heap} {a : ArrayRef} {r : ArrayRecord} (found : r ∈ h.array? a)
    (index : Nat) : h.kept? (.array a) (.element index) = r.elements[index]? := by
  rw [kept?, elements, Option.mem_def.mp found]
  rfl

theorem Heap.slotsKeepNan_function_iff {h : Heap} {f g : FunctionRef} {r s : FunctionRecord}
    (hr : r ∈ h.function? f) (hs : s ∈ h.function? g) :
    h.SlotsKeepNan (.function f) (.function g) ↔
      ∀ v ∈ r.closure.value?, ∀ w ∈ s.closure.value?, v.KeepsNan w := by
  rw [← kept?_closure hr, ← kept?_closure hs]
  constructor
  · exact fun slots => slots .closure
  · rintro each (_ | name | index)
    · exact each
    · exact nofun
    · exact nofun

theorem Heap.slotsKeepNan_object_iff {h : Heap} {o p : ObjectRef} {r s : ObjectRecord}
    (hr : r ∈ h.object? o) (hs : s ∈ h.object? p) :
    h.SlotsKeepNan (.object o) (.object p) ↔
      ∀ name, ∀ v ∈ r.fields.get? name, ∀ w ∈ s.fields.get? name, v.KeepsNan w := by
  simp only [← kept?_field hr, ← kept?_field hs]
  constructor
  · exact fun slots name => slots (.field name)
  · rintro each (_ | name | index)
    · exact nofun
    · exact each name
    · exact nofun

theorem Heap.slotsKeepNan_array_iff {h : Heap} {a b : ArrayRef} {r s : ArrayRecord}
    (hr : r ∈ h.array? a) (hs : s ∈ h.array? b) :
    h.SlotsKeepNan (.array a) (.array b) ↔
      ∀ index : Nat, ∀ v ∈ r.elements[index]?, ∀ w ∈ s.elements[index]?, v.KeepsNan w := by
  simp only [← kept?_element hr, ← kept?_element hs]
  constructor
  · exact fun slots index => slots (.element index)
  · rintro each (_ | name | index)
    · exact nofun
    · exact nofun
    · exact each index

theorem Closure.CopiedBy.value? {c d : Closure} (copied : c.CopiedBy φ d) :
    Option.Rel (Value.CopiedBy φ) c.value? d.value? := by
  cases copied with
  | none => exact .none
  | mark s => exact .none
  | value h => exact .some h

theorem optionRel_getElem? {α : Type} {P : α → α → Prop} {xs ys : List α}
    (all : List.Forall₂ P xs ys) (index : Nat) : Option.Rel P xs[index]? ys[index]? := by
  induction all generalizing index with
  | nil => exact .none
  | cons head _ ih =>
    cases index with
    | zero => exact .some head
    | succ index => exact ih index

/-- Slot by slot, a copied descriptor keeps copies of what the descriptor keeps. -/
theorem Heap.CopiedTo.kept? {h : Heap} {x : Descriptor} (copied : h.CopiedTo φ h x) (slot : Slot) :
    Option.Rel (Value.CopiedBy φ) (h.kept? x slot) (h.kept? (x.rename φ) slot) := by
  cases x with
  | function f =>
    obtain ⟨r, hr, s, hs, c⟩ := copied
    cases slot with
    | closure =>
      rw [Descriptor.rename, kept?_closure hr, kept?_closure hs]
      exact c.closure.value?
    | _ => exact .none
  | object o =>
    obtain ⟨r, hr, s, hs, c⟩ := copied
    cases slot with
    | field name =>
      rw [Descriptor.rename, kept?_field hr, kept?_field hs]
      exact c.fields name
    | _ => exact .none
  | array a =>
    obtain ⟨r, hr, s, hs, c⟩ := copied
    cases slot with
    | element index =>
      rw [Descriptor.rename, kept?_element hr, kept?_element hs]
      exact optionRel_getElem? c.elements index
    | _ => exact .none
  | cls | trait => cases slot <;> exact .none

theorem Heap.CopiedTo.exists_kept {h : Heap} {x : Descriptor} (copied : h.CopiedTo φ h x) {slot : Slot}
    {u : Value} (kept : u ∈ h.kept? x slot) : ∃ u', u' ∈ h.kept? (x.rename φ) slot := by
  have both := copied.kept? slot
  rw [Option.mem_def.mp kept] at both
  cases there : h.kept? (x.rename φ) slot with
  | some u' => exact ⟨u', rfl⟩
  | none =>
    rw [there] at both
    cases both

theorem Heap.recordsMatch_iff {α : Type} {P : α → α → Prop} {r s : Option α} {x y : α} (hx : x ∈ r)
    (hy : y ∈ s) : RecordsMatch P r s ↔ P x y := by
  constructor
  · rintro ⟨x', hx', y', hy', h⟩
    obtain rfl := Option.mem_unique hx hx'
    obtain rfl := Option.mem_unique hy hy'
    exact h
  · exact fun h => ⟨x, hx, y, hy, h⟩

/-- **A copied record matches its copy** if and only if its not-a-numbers stay in their boxes and its
references are related to their images. -/
theorem Heap.matches_rename_iff {h : Heap} {x : Descriptor} (copied : h.CopiedTo φ h x) :
    h.Matches R x (x.rename φ) ↔
      h.SlotsKeepNan x (x.rename φ) ∧ ∀ y ∈ h.references x, R y (y.rename φ) := by
  cases x with
  | function f =>
    obtain ⟨r, hr, s, hs, c⟩ := copied
    rw [references, Option.mem_def.mp hr, Descriptor.rename, slotsKeepNan_function_iff hr hs]
    exact (recordsMatch_iff hr hs).trans (FunctionRecord.matches_iff_of_copied c)
  | cls c =>
    obtain ⟨r, hr, s, hs, c⟩ := copied
    rw [references, Option.mem_def.mp hr,
      and_iff_right (slotsKeepNan_of_kept?_eq_none fun slot => by cases slot <;> rfl)]
    exact (recordsMatch_iff hr hs).trans (ClassRecord.matches_iff_of_copied c)
  | object o =>
    obtain ⟨r, hr, s, hs, c⟩ := copied
    rw [references, Option.mem_def.mp hr, Descriptor.rename, slotsKeepNan_object_iff hr hs]
    exact (recordsMatch_iff hr hs).trans (ObjectRecord.matches_iff_of_copied c)
  | trait t =>
    exact iff_of_true copied
      ⟨slotsKeepNan_of_kept?_eq_none fun slot => by cases slot <;> rfl, List.forall_mem_nil _⟩
  | array a =>
    obtain ⟨r, hr, s, hs, c⟩ := copied
    rw [references, Option.mem_def.mp hr, Descriptor.rename, slotsKeepNan_array_iff hr hs]
    exact (recordsMatch_iff hr hs).trans (ArrayRecord.matches_iff_of_copied c)

end Matching

namespace Heap

variable {h : Heap} {φ : Renaming} {v w : Value}

/-! ## Descriptors that a value refers to -/

theorem Reaches.tail {x y : Descriptor} (reached : h.Reaches v x) (refers : h.Refers x y) :
    h.Reaches v y := by
  obtain ⟨z, mem, walk⟩ := reached
  exact ⟨z, mem, walk.tail refers⟩

/-- What the references of a value have, and is passed on by references, everything has that the value
refers to. -/
theorem Reaches.induction {P : Descriptor → Prop} {x : Descriptor} (reached : h.Reaches v x)
    (start : ∀ y ∈ v.references, P y)
    (step : ∀ x, h.Reaches v x → P x → ∀ y ∈ h.references x, P y) : P x := by
  obtain ⟨z, mem, walk⟩ := reached
  induction walk with
  | refl => exact start z mem
  | tail walk refers ih => exact step _ ⟨z, mem, walk⟩ ih _ refers

/-! ## A value and its copy -/

/-- **A copy that keeps not-a-number in its boxes is bisimilar to the value**: to go from each descriptor
to its image is a bisimulation. -/
theorem IsCopy.bisimilar (copy : h.IsCopy φ v w) (keeps : h.CopyKeepsNan φ v w) :
    h.BisimilarValues v w := by
  have bisimulation : h.IsBisimulation fun x y => h.Reaches v x ∧ y = x.rename φ := by
    rintro x _ ⟨reached, rfl⟩
    refine .inr ((matches_rename_iff (copy.copied x reached)).mpr ⟨keeps.slots x reached, fun y mem => ?_⟩)
    exact ⟨reached.tail mem, rfl⟩
  refine (copy.value.related_iff.mpr ⟨keeps.value, fun y mem => ?_⟩).mono
    fun x y => bisimulation.le_bisimilar
  exact ⟨⟨y, mem, .refl⟩, rfl⟩

/-- A value that is bisimilar to its copy only refers to descriptors that match theirs. -/
theorem IsCopy.matches_of_reaches (copy : h.IsCopy φ v w) (related : h.BisimilarValues v w)
    {x : Descriptor} (reached : h.Reaches v x) : h.Matches h.Bisimilar x (x.rename φ) := by
  -- no descriptor is its own copy, so bisimilarity has to look at the records
  have looks (x : Descriptor) (reached : h.Reaches v x) (alike : h.Bisimilar x (x.rename φ)) :
      h.Matches h.Bisimilar x (x.rename φ) :=
    (bisimilar_isBisimulation _ _ alike).resolve_left (copy.apart x x reached reached).symm
  refine looks x reached ?_
  refine reached.induction (P := fun x => h.Bisimilar x (x.rename φ)) ?_ fun x reached alike => ?_
  · exact (copy.value.related_iff.mp related).2
  · exact ((matches_rename_iff (copy.copied x reached)).mp (looks x reached alike)).2

/-- **A value is bisimilar to its copy just if the copy keeps not-a-number in its boxes.** -/
theorem IsCopy.bisimilar_iff (copy : h.IsCopy φ v w) :
    h.BisimilarValues v w ↔ h.CopyKeepsNan φ v w := by
  refine ⟨fun related => ⟨(copy.value.related_iff.mp related).1, fun x reached => ?_⟩, copy.bisimilar⟩
  have records := copy.matches_of_reaches related reached
  exact ((matches_rename_iff (copy.copied x reached)).mp records).1

/-- A copy that renews not-a-number keeps it just if there is none. -/
theorem CopyRenewsNan.keeps_iff (renews : h.CopyRenewsNan φ v w) (copy : h.IsCopy φ v w) :
    h.CopyKeepsNan φ v w ↔ ¬ h.HoldsNan v := by
  constructor
  · rintro keeps (nan | ⟨x, reached, slot, u, kept, nan⟩)
    · exact renews.value nan (keeps.value nan)
    · obtain ⟨u', kept'⟩ := (copy.copied x reached).exists_kept kept
      exact renews.slots x reached slot u kept u' kept' nan
        (keeps.slots x reached slot u kept u' kept' nan)
  · intro proper
    refine ⟨fun nan => absurd (.inl nan) proper, fun x reached slot u kept u' _ nan => ?_⟩
    exact absurd (.inr ⟨x, reached, slot, u, kept, nan⟩) proper

/-- **A value is equal to its copy just if the copy keeps not-a-number in its boxes.**  Where every cycle
of references passes through an array or an object, the comparison of a value with a copy of all that it
refers to, cycles included, comes to an end, and says that they are equal if and only if each
not-a-number that is the value, or is kept by anything that it refers to, is in the same box in the copy.
So with a copy that has them all in other boxes, a value is equal if and only if it holds none. -/
theorem CyclesGuarded.equal?_copy (guarded : h.CyclesGuarded) (copy : h.IsCopy φ v w) :
    ∃ answer, h.equal? v w = some answer ∧ (answer = true ↔ h.CopyKeepsNan φ v w) ∧
      (h.CopyRenewsNan φ v w → (answer = true ↔ ¬ h.HoldsNan v)) := by
  obtain ⟨answer, ended, iff⟩ := guarded.equal?_eq v w
  have keeps := iff.trans copy.bisimilar_iff
  exact ⟨answer, ended, keeps, fun renews => keeps.trans (renews.keeps_iff copy)⟩

/-- An object of a class whose method closes over the object, with itself in one field and an array of
not-a-number and itself in another; and a copy of it all. -/
def twins : Heap :=
  { empty with
    functions := [⟨"f", [], none, .value (.object ⟨0⟩), false⟩,
      ⟨"f", [], none, .value (.object ⟨1⟩), false⟩]
    classes := [⟨"C", .ofList [("f", ⟨0⟩)], .empty, .empty, .empty, none, []⟩,
      ⟨"C", .ofList [("f", ⟨1⟩)], .empty, .empty, .empty, none, []⟩]
    objects := [⟨⟨0⟩, .ofList [("me", .object ⟨0⟩), ("items", .array ⟨0⟩)]⟩,
      ⟨⟨1⟩, .ofList [("me", .object ⟨1⟩), ("items", .array ⟨1⟩)]⟩]
    arrays := [⟨2, [.float .nan 0, .array ⟨0⟩]⟩, ⟨2, [.float .nan 1, .array ⟨1⟩]⟩] }

/-- The next descriptor of each kind. -/
def nextPlace : Renaming :=
  ⟨fun f => ⟨f.index + 1⟩, fun c => ⟨c.index + 1⟩, fun o => ⟨o.index + 1⟩, fun t => ⟨t.index + 1⟩,
    fun a => ⟨a.index + 1⟩⟩

theorem twins_cyclesGuarded : twins.CyclesGuarded := by
  refine .of_rank (fun | .function _ => 1 | .cls _ => 2 | _ => 0) ?_
  rintro (⟨⟨_ | _ | i⟩⟩ | ⟨⟨_ | _ | i⟩⟩ | o | t | a) y unguarded refers
  · have only : y ∈ [Descriptor.object ⟨0⟩] := refers
    rw [List.mem_singleton.mp only]
    decide
  · have only : y ∈ [Descriptor.object ⟨1⟩] := refers
    rw [List.mem_singleton.mp only]
    decide
  · cases refers
  · have only : y ∈ [Descriptor.function ⟨0⟩] := refers
    rw [List.mem_singleton.mp only]
    decide
  · have only : y ∈ [Descriptor.function ⟨1⟩] := refers
    rw [List.mem_singleton.mp only]
    decide
  · cases refers
  · cases unguarded
  · cases refers
  · cases unguarded

/-- What the first object of `twins` refers to. -/
theorem reaches_twins {x : Descriptor} (reached : twins.Reaches (.object ⟨0⟩) x) :
    x ∈ [Descriptor.object ⟨0⟩, .cls ⟨0⟩, .function ⟨0⟩, .array ⟨0⟩] := by
  have closed : ∀ x ∈ [Descriptor.object ⟨0⟩, .cls ⟨0⟩, .function ⟨0⟩, .array ⟨0⟩],
      ∀ y ∈ twins.references x, y ∈ [Descriptor.object ⟨0⟩, .cls ⟨0⟩, .function ⟨0⟩, .array ⟨0⟩] := by
    decide
  exact reached.induction (by decide) fun x _ => closed x

theorem twins_isCopy : twins.IsCopy nextPlace (.object ⟨0⟩) (.object ⟨1⟩) where
  value := ⟨0, rfl⟩
  copied := by
    intro x reached
    have := reaches_twins reached
    simp only [List.mem_cons, List.not_mem_nil, or_false] at this
    rcases this with rfl | rfl | rfl | rfl
    · have fields : Table.CopiedBy (Value.rename nextPlace)
          (.ofList [("me", .object ⟨0⟩), ("items", .array ⟨0⟩)])
          (.ofList [("me", .object ⟨1⟩), ("items", .array ⟨1⟩)]) :=
        Table.copiedBy_of_entries (by decide)
      exact ⟨_, rfl, _, rfl, rfl, fields.related (Value.copiedBy_rename nextPlace)⟩
    · have nothing : Table.CopiedBy nextPlace.function .empty .empty := fun _ => rfl
      exact ⟨_, rfl, _, rfl, rfl, Table.copiedBy_of_entries (by decide), nothing, nothing, nothing,
        rfl, rfl⟩
    · exact ⟨_, rfl, _, rfl, rfl, rfl, rfl, .value ⟨0, rfl⟩, rfl⟩
    · exact ⟨_, rfl, _, rfl, rfl, .cons ⟨1, rfl⟩ (.cons ⟨0, rfl⟩ .nil)⟩
  apart := by
    intro x y hx hy
    have distinct : ∀ x ∈ [Descriptor.object ⟨0⟩, .cls ⟨0⟩, .function ⟨0⟩, .array ⟨0⟩],
        ∀ y ∈ [Descriptor.object ⟨0⟩, .cls ⟨0⟩, .function ⟨0⟩, .array ⟨0⟩],
          x.rename nextPlace ≠ y := by decide
    exact distinct x (reaches_twins hx) y (reaches_twins hy)

/-- The not-a-number in the array in the object is found. -/
theorem twins_equal?_copy : twins.equal? (.object ⟨0⟩) (.object ⟨1⟩) = some false := by
  have reached : twins.Reaches (.object ⟨0⟩) (.array ⟨0⟩) := by
    have refers : .array ⟨0⟩ ∈ twins.references (.object ⟨0⟩) := by decide
    exact ⟨.object ⟨0⟩, by decide, .single refers⟩
  obtain ⟨answer, ended, iff, -⟩ := twins_cyclesGuarded.equal?_copy twins_isCopy
  have different : answer = false := by
    rw [← Bool.not_eq_true, iff]
    intro keeps
    have same := keeps.slots _ reached (.element 0) (.float .nan 0) rfl (.float .nan 1) rfl rfl
    cases same
  exact different ▸ ended

/-- Two arrays that share a float, which is not-a-number. -/
def sharedFloat : Heap := { empty with arrays := [⟨1, [.float .nan 0]⟩, ⟨1, [.float .nan 0]⟩] }

theorem reaches_sharedFloat {x : Descriptor} (reached : sharedFloat.Reaches (.array ⟨0⟩) x) :
    x = .array ⟨0⟩ := by
  refine reached.induction (fun y mem => List.mem_singleton.mp mem) ?_
  rintro x - rfl y refers
  cases refers

/-- **Not-a-number does not always tell a value from its copy**: of the arrays, the second is a copy of the
first, which holds not-a-number, and they are equal. -/
theorem sharedFloat_equal :
    sharedFloat.CyclesGuarded ∧ sharedFloat.IsCopy nextPlace (.array ⟨0⟩) (.array ⟨1⟩) ∧
    sharedFloat.HoldsNan (.array ⟨0⟩) ∧ sharedFloat.equal? (.array ⟨0⟩) (.array ⟨1⟩) = some true := by
  refine ⟨cyclesGuarded_of_arrays _, ⟨⟨0, rfl⟩, fun x reached => ?_, fun x y hx hy => ?_⟩, ?_, by decide⟩
  · rw [reaches_sharedFloat reached]
    exact ⟨_, rfl, _, rfl, rfl, .cons ⟨0, rfl⟩ .nil⟩
  · rw [reaches_sharedFloat hx, reaches_sharedFloat hy]
    decide
  · exact .inr ⟨.array ⟨0⟩, ⟨.array ⟨0⟩, List.mem_singleton.mpr rfl, .refl⟩, .element 0, _, rfl, rfl⟩

end Heap
end LoxValues
