import LoxValues.Proofs.Observation

/-!
# Where values come from

Values are stored in the elements of arrays, the fields of objects and the closures of functions.  A
step gets values from its host and from what is stored, and it has little to add to them.

## What is here

* `Heap.stored` — the values in all descriptors, and what each change to a descriptor adds to them.
* `Step.operands`, `valuesOf` — the values that a step is given, and those that it answers with or that
  the fault in place of an answer carries.
* `World.stored_step` — **a step stores only what it is given**.
* `World.returns_step` — what a step returns it was given, or it was stored, or it is a truth value or
  the negation of what the step was given.
-/

set_option autoImplicit false
namespace LoxValues

/-! ## Values in descriptors -/

/-- The value that a closure is. -/
def Closure.stored : Closure → List Value
  | .value v => [v]
  | _ => []

/-- The values in a record. -/
def DescriptorRecord.stored : DescriptorRecord → List Value
  | .function r => r.closure.stored
  | .object r => r.fields.entries.map Prod.snd
  | .array r => r.elements
  | .cls _ | .trait _ => []

namespace Heap

/-- The values in all descriptors. -/
def stored (h : Heap) : List Value :=
  h.functions.flatMap (fun r => (DescriptorRecord.function r).stored) ++
    h.objects.flatMap (fun r => (DescriptorRecord.object r).stored) ++
    h.arrays.flatMap fun r => (DescriptorRecord.array r).stored

variable {h : Heap} {v : Value}

theorem mem_stored_iff : v ∈ h.stored ↔
    (∃ r ∈ h.functions, v ∈ r.closure.stored) ∨
    (∃ r ∈ h.objects, ∃ name, r.fields.get? name = some v) ∨
    ∃ r ∈ h.arrays, v ∈ r.elements := by
  simp [stored, DescriptorRecord.stored, Table.mem_entries_iff]

/-! ### Reading -/

theorem mem_stored_of_closure {f : FunctionRef} {r : FunctionRecord} (here : h.function? f = some r)
    (closes : v ∈ r.closure.stored) : v ∈ h.stored :=
  mem_stored_iff.mpr (.inl ⟨r, List.mem_of_getElem? here, closes⟩)

theorem mem_stored_of_field {o : ObjectRef} {name : String} (written : h.field? o name = some v) :
    v ∈ h.stored := by
  obtain ⟨r, here, found⟩ := Option.bind_eq_some_iff.mp written
  exact mem_stored_iff.mpr (.inr (.inl ⟨r, List.mem_of_getElem? here, name, found⟩))

theorem mem_stored_of_element {a : ArrayRef} (element : v ∈ h.elements a) : v ∈ h.stored := by
  rw [elements] at element
  cases here : h.array? a with
  | none => simp [here] at element
  | some r =>
    rw [here] at element
    exact mem_stored_iff.mpr (.inr (.inr ⟨r, List.mem_of_getElem? here, element⟩))

theorem mem_stored_of_readElement {a : ArrayRef} {index : Int} (read : h.readElement a index = .ok v) :
    v ∈ h.stored := by
  rw [readElement] at read
  split at read
  · next found =>
    cases read
    obtain ⟨i, -, here⟩ := Option.bind_eq_some_iff.mp found
    exact mem_stored_of_element (List.mem_of_getElem? here)
  · cases read

/-! ### Writing -/

/-- A record that is changed has the parts it had before and those that the change brings in. -/
theorem mem_flatMap_modify {α : Type} {parts : α → List Value} {change : α → α} {brought : List Value}
    (changed : ∀ r, ∀ v ∈ parts (change r), v ∈ parts r ∨ v ∈ brought) {records : List α} {i : Nat}
    (mem : v ∈ (records.modify i change).flatMap parts) :
    v ∈ records.flatMap parts ∨ v ∈ brought := by
  obtain ⟨r, here, part⟩ := List.mem_flatMap.mp mem
  obtain ⟨j, at_j⟩ := List.mem_iff_getElem?.mp here
  rw [List.getElem?_modify] at at_j
  obtain ⟨old, was, now⟩ := Option.map_eq_some_iff.mp at_j
  have before {u : Value} (part : u ∈ parts old) : u ∈ records.flatMap parts :=
    List.mem_flatMap.mpr ⟨old, List.mem_of_getElem? was, part⟩
  split at now
  · subst now
    exact (changed old v part).imp_left before
  · cases now
    exact .inl (before part)

theorem mem_stored_modifyFunction {f : FunctionRef} (change : FunctionRecord → FunctionRecord)
    {brought : List Value}
    (changed : ∀ r, ∀ v ∈ (change r).closure.stored, v ∈ r.closure.stored ∨ v ∈ brought)
    (mem : v ∈ (h.modifyFunction f change).stored) : v ∈ h.stored ∨ v ∈ brought := by
  simp only [stored, modifyFunction, List.mem_append] at mem ⊢
  rcases mem with (part | part) | part
  · rcases mem_flatMap_modify changed part with old | new
    · exact .inl (.inl (.inl old))
    · exact .inr new
  · exact .inl (.inl (.inr part))
  · exact .inl (.inr part)

theorem mem_stored_modifyObject {o : ObjectRef} (change : ObjectRecord → ObjectRecord)
    {brought : List Value}
    (changed : ∀ r, ∀ v ∈ (DescriptorRecord.object (change r)).stored,
      v ∈ (DescriptorRecord.object r).stored ∨ v ∈ brought)
    (mem : v ∈ (h.modifyObject o change).stored) : v ∈ h.stored ∨ v ∈ brought := by
  simp only [stored, modifyObject, List.mem_append] at mem ⊢
  rcases mem with (part | part) | part
  · exact .inl (.inl (.inl part))
  · rcases mem_flatMap_modify changed part with old | new
    · exact .inl (.inl (.inr old))
    · exact .inr new
  · exact .inl (.inr part)

theorem mem_stored_modifyArray {a : ArrayRef} (change : ArrayRecord → ArrayRecord)
    {brought : List Value}
    (changed : ∀ r, ∀ v ∈ (change r).elements, v ∈ r.elements ∨ v ∈ brought)
    (mem : v ∈ (h.modifyArray a change).stored) : v ∈ h.stored ∨ v ∈ brought := by
  simp only [stored, modifyArray, List.mem_append] at mem ⊢
  rcases mem with part | part
  · exact .inl (.inl part)
  · rcases mem_flatMap_modify changed part with old | new
    · exact .inl (.inr old)
    · exact .inr new

theorem mem_stored_create {r : DescriptorRecord} (mem : v ∈ (h.create r).2.stored) :
    v ∈ h.stored ∨ v ∈ r.stored := by
  cases r with
  | function r | object r | array r =>
    simp only [create, newFunction, newObject, newArray, stored, List.flatMap_append, List.mem_append,
      List.flatMap_singleton] at mem ⊢
    tauto
  | cls r | trait r => exact .inl mem

theorem mem_stored_rename {name : String} {d : Descriptor} (mem : v ∈ (h.rename name d).stored) :
    v ∈ h.stored := by
  cases d with
  | function f =>
    have kept : v ∈ h.stored ∨ v ∈ [] :=
      mem_stored_modifyFunction (fun r => { r with name := name }) (fun _ _ part => .inl part) mem
    exact kept.resolve_right List.not_mem_nil
  | _ => exact mem

theorem mem_stored_writeElement {a : ArrayRef} {index : Int} {u : Value} {after : Heap}
    (written : h.writeElement a index u = .ok after) (mem : v ∈ after.stored) :
    v ∈ h.stored ∨ v ∈ [u] := by
  rw [writeElement] at written
  split at written
  · cases written
    refine mem_stored_modifyArray _ (fun r v part => ?_) mem
    rcases List.mem_or_eq_of_mem_set part with old | new
    · exact .inl old
    · exact .inr (List.mem_singleton.mpr new)
  · cases written

theorem mem_stored_dropElement {a : ArrayRef} (mem : v ∈ (h.dropElement a).stored) : v ∈ h.stored := by
  have kept : v ∈ h.stored ∨ v ∈ [] :=
    mem_stored_modifyArray _ (fun _ _ part => .inl (List.dropLast_subset _ part)) mem
  exact kept.resolve_right List.not_mem_nil

theorem mem_stored_writeField {o : ObjectRef} {name : String} {u : Value}
    (mem : v ∈ (h.writeField o name u).stored) : v ∈ h.stored ∨ v ∈ [u] := by
  refine mem_stored_modifyObject _ (fun r v part => ?_) mem
  obtain ⟨⟨other, x⟩, entry, rfl⟩ := List.mem_map.mp part
  rw [Table.mem_entries_iff, Table.get?_insert] at entry
  split at entry
  · cases entry
    exact .inr (List.mem_singleton.mpr rfl)
  · exact .inl (List.mem_map.mpr ⟨(other, x), Table.mem_entries_iff.mpr entry, rfl⟩)

end Heap

/-! ## What steps do with values -/

namespace Step

/-- The values that a step is given. -/
def operands : Step → List Value
  | .render v | .isTruthy v | .logicalNot v | .negate v _ => [v]
  | .toInteger v | .toFloat v | .toText v => [v]
  | .isNumber v | .isClass v | .isTrait v => [v]
  | .equal a b | .same a b => [a, b]
  | .create r => r.stored
  | .writeElement _ _ v | .pushElement _ v | .writeField _ _ v | .setClosure _ v => [v]
  | _ => []

end Step

/-- The value that an answer is. -/
def Answer.values : Answer → List Value
  | .value v => [v]
  | _ => []

/-- The value that a fault carries. -/
def Fault.values : Fault → List Value
  | .mismatch m => m.value.toList
  | _ => []

/-- The values that come with an answer, or with the fault in its place. -/
def valuesOf : Except Fault Answer → List Value
  | .ok answer => answer.values
  | .error fault => fault.values

/-! ### Faults without a value -/

theorem error_of_map {α β : Type} {result : Except Fault α} {f : α → β} {fault : Fault}
    (failed : result.map f = .error fault) : result = .error fault := by
  cases result with
  | ok a => cases failed
  | error other => exact congrArg Except.error (Except.error.inj failed)

/-- Where no fault carries a value, what comes with the answer is the answer. -/
theorem exists_ok_of_mem {α : Type} {result : Except Fault α} {answer : α → Answer} {v : Value}
    (plain : ∀ fault, result = .error fault → fault.values = [])
    (mem : v ∈ valuesOf (result.map answer)) : ∃ a, result = .ok a ∧ v ∈ (answer a).values := by
  cases result with
  | ok a => exact ⟨a, rfl, mem⟩
  | error fault =>
    exact absurd mem (List.eq_nil_iff_forall_not_mem.mp (plain fault rfl) v)

/-- A fault that names an integer carries no value in place of one that carries none. -/
theorem Fault.values_naming {n : Int} {fault : Fault} (plain : fault.values = []) :
    (naming n fault).values = [] := by
  rw [naming]
  split
  · exact plain
  · rfl

theorem Fault.values_of_naming {α : Type} {n : Int} {named fault : Fault}
    (failed : (.error (naming n named) : Except Fault α) = .error fault) (plain : named.values = []) :
    fault.values = [] := by
  rw [← Except.error.inj failed]
  exact values_naming plain

theorem Value.values_of_isTruthy {v : Value} {fault : Fault} (failed : v.isTruthy = .error fault) :
    fault.values = [] := by
  cases v with
  | foreign n => exact Fault.values_of_naming failed rfl
  | _ => cases failed

theorem Value.values_of_isSame {a b : Value} {fault : Fault} (failed : a.isSame b = .error fault) :
    fault.values = [] := by
  cases a with
  | foreign n => exact Fault.values_of_naming failed rfl
  | _ => cases failed

theorem Sink.values_of_numbered {entries : List (String × Rule String)} {fault : Fault}
    (failed : numbered entries = .error fault) : fault.values = [] := by
  fun_induction numbered entries with
  | case1 => cases failed
  | case2 module rest ih => exact ih (error_of_map failed)
  | case3 module level rest unknown =>
    cases failed
    rfl
  | case4 module level rest s known ih => exact ih (error_of_map failed)

theorem Sink.values_of_ofFilter {profile : Profile} {f : LogFilter} {fault : Fault}
    (failed : ofFilter profile f = .error fault) : fault.values = [] := by
  rw [ofFilter] at failed
  cases modules : numbered f.modules.entries with
  | error other =>
    rw [modules] at failed
    cases failed
    exact values_of_numbered modules
  | ok rules =>
    rw [modules] at failed
    dsimp only at failed
    split at failed
    · cases failed
      rfl
    · cases failed

theorem values_indexFault {ordinary : Fault} (plain : ordinary.values = []) (index : Int) :
    (indexFault ordinary index).values = [] := by
  rw [indexFault]
  split
  · exact plain
  · rfl

theorem Heap.values_of_readElement {h : Heap} {a : ArrayRef} {index : Int} {fault : Fault}
    (failed : h.readElement a index = .error fault) : fault.values = [] := by
  rw [readElement] at failed
  split at failed
  · cases failed
  · cases failed
    exact values_indexFault rfl index

theorem Heap.values_of_writeElement {h : Heap} {a : ArrayRef} {index : Int} {u : Value} {fault : Fault}
    (failed : h.writeElement a index u = .error fault) : fault.values = [] := by
  rw [writeElement] at failed
  split at failed
  · cases failed
  · cases failed
    exact values_indexFault rfl index

theorem World.values_of_setVariable {w : World} {name value : String} {fault : Fault}
    (failed : w.setVariable name value = .error fault) : fault.values = [] := by
  rw [setVariable, variableFault?] at failed
  split_ifs at failed <;> cases failed <;> rfl

theorem Answer.values_ofComparison (result : Option Bool) : (ofComparison result).values = [] := by
  cases result <;> rfl

theorem Heap.values_describe (h : Heap) (f : FunctionRef) : (h.describe f).values = [] := by
  rw [describe]
  split <;> rfl

theorem World.values_of_configure {profile : Profile} {w : World} {fault : Fault}
    (failed : (w.configure profile).1 = .error fault) : fault.values = [] := by
  revert failed
  fun_cases configure profile w with
  | case1 => exact nofun
  | case2 =>
    intro failed
    cases failed
    rfl
  | case3 _ _ _ _ _ other made =>
    intro failed
    cases failed
    exact Sink.values_of_ofFilter made
  | case4 => exact nofun

namespace World

/-- A step that is not plain leaves the descriptors alone. -/
theorem heap_step {s : Step} (special : s.isPlain = false) (w : World) :
    (w.step s).2.heap = w.heap := by
  by_cases clears : s = .clearCache
  · subst clears
    rfl
  · exact congrArg (·.heap) (w.reads_step special clears).rest

/-- **A step stores only what it is given**, besides what is stored already. -/
theorem stored_step {w : World} {s : Step} {v : Value} (mem : v ∈ (w.step s).2.heap.stored) :
    v ∈ w.heap.stored ∨ v ∈ s.operands := by
  cases plain : s.isPlain with
  | false =>
    rw [heap_step plain] at mem
    exact .inl mem
  | true =>
    cases s with
    | render | negate | toInteger | toFloat | toText | clearCache | getSettings | loadSettings
    | configure | logState | setThreshold | hostRecord => cases plain
    | create r => exact Heap.mem_stored_create mem
    | writeElement a index u =>
      rw [step] at mem
      split at mem
      · next written => exact Heap.mem_stored_writeElement written mem
      · exact .inl mem
    | pushElement a u =>
      exact Heap.mem_stored_modifyArray _ (fun r v part => List.mem_append.mp part) mem
    | popElement a =>
      refine .inl ?_
      rw [step] at mem
      split at mem
      · exact Heap.mem_stored_dropElement mem
      · exact mem
    | setCapacity a capacity =>
      exact Heap.mem_stored_modifyArray (fun r => { r with capacity := capacity })
        (fun _ _ part => .inl part) mem
    | readField o name =>
      rw [step] at mem
      split at mem <;> exact .inl mem
    | writeField o name u => exact Heap.mem_stored_writeField mem
    | setClass o c =>
      exact Heap.mem_stored_modifyObject (fun r => { r with cls := c }) (fun _ _ part => .inl part) mem
    | rename d name => exact .inl (Heap.mem_stored_rename mem)
    | setClosure f u =>
      exact Heap.mem_stored_modifyFunction (fun r => { r with closure := .value u })
        (fun _ _ part => .inr part) mem
    | pushParam f name =>
      exact Heap.mem_stored_modifyFunction (fun r => { r with params := r.params ++ [name] })
        (fun _ _ part => .inl part) mem
    | findMethod c name =>
      rw [step] at mem
      split at mem <;> exact .inl mem
    | setVariable name value =>
      cases value with
      | none => exact .inl mem
      | some value =>
        rw [step, setVariable] at mem
        cases fault : variableFault? name value with
        | none =>
          rw [fault] at mem
          exact .inl mem
        | some fault =>
          rw [fault] at mem
          exact .inl mem
    | _ => exact .inl mem

/-- Where a value that a step returns comes from. -/
inductive Yields (w : World) (s : Step) : Value → Prop
  /-- The step was given it. -/
  | given {v : Value} (operand : v ∈ s.operands) : Yields w s v
  /-- A descriptor had it. -/
  | read {v : Value} (stored : v ∈ w.heap.stored) : Yields w s v
  /-- It is the negation of a value that the step was given. -/
  | negated {u v : Value} {box : Nat} (operand : u ∈ s.operands) (negated : u.negated? box = some v) :
    Yields w s v
  /-- It is a truth value. -/
  | truth (b : Bool) : Yields w s (.bool b)

/-- A conversion returns its result, or else the value that it was given. -/
theorem mem_values_expect {α : Type} {expected : Expectation} {u v : Value} {result : Option α}
    {w : World} (answer : α → Answer)
    (mem : v ∈ valuesOf ((w.expect expected u result).1.map answer)) :
    v = u ∨ ∃ r, result = some r ∧ v ∈ (answer r).values := by
  cases result with
  | some r => exact .inr ⟨r, rfl, mem⟩
  | none => exact .inl (List.mem_singleton.mp mem)

/-- **A step returns no value of its own making** but truth values and negations of what it is given. -/
theorem returns_step {w : World} {s : Step} {v : Value} (mem : v ∈ valuesOf (w.step s).1) :
    w.Yields s v := by
  have not_mem {vs : List Value} (nothing : vs = []) : v ∉ vs :=
    List.eq_nil_iff_forall_not_mem.mp nothing v
  cases s with
  | isTruthy u =>
    obtain ⟨b, -, none⟩ := exists_ok_of_mem (fun _ => Value.values_of_isTruthy) mem
    cases none
  | same a b =>
    obtain ⟨c, -, none⟩ := exists_ok_of_mem (fun _ => Value.values_of_isSame) mem
    cases none
  | configure p =>
    obtain ⟨-, -, none⟩ := exists_ok_of_mem (fun _ => values_of_configure) mem
    cases none
  | logicalNot u =>
    have plain (fault : Fault) (failed : u.logicalNot = .error fault) : fault.values = [] :=
      Value.values_of_isTruthy (error_of_map failed)
    obtain ⟨r, negated, result⟩ := exists_ok_of_mem plain mem
    cases List.mem_singleton.mp result
    rw [Value.logicalNot] at negated
    cases truth : u.isTruthy with
    | ok b =>
      rw [truth] at negated
      cases negated
      exact .truth _
    | error fault =>
      rw [truth] at negated
      cases negated
  | negate u box =>
    rcases mem_values_expect Answer.value mem with rfl | ⟨r, negated, result⟩
    · exact .given (List.mem_singleton.mpr rfl)
    · cases List.mem_singleton.mp result
      exact .negated (List.mem_singleton.mpr rfl) negated
  | toInteger u =>
    obtain rfl | ⟨r, -, none⟩ := mem_values_expect Answer.integer mem
    · exact .given (List.mem_singleton.mpr rfl)
    · cases none
  | toFloat u =>
    obtain rfl | ⟨r, -, none⟩ := mem_values_expect Answer.double mem
    · exact .given (List.mem_singleton.mpr rfl)
    · cases none
  | toText u =>
    obtain rfl | ⟨r, -, none⟩ := mem_values_expect Answer.text mem
    · exact .given (List.mem_singleton.mpr rfl)
    · cases none
  | equal a b => exact absurd mem (not_mem (Answer.values_ofComparison _))
  | equalDescriptors d e => exact absurd mem (not_mem (Answer.values_ofComparison _))
  | readElement a index =>
    obtain ⟨u, read, result⟩ := exists_ok_of_mem (fun _ => Heap.values_of_readElement) mem
    cases List.mem_singleton.mp result
    exact .read (Heap.mem_stored_of_readElement read)
  | writeElement a index u =>
    rw [step] at mem
    split at mem
    · cases mem
    · next failed => exact absurd mem (not_mem (Heap.values_of_writeElement failed))
  | popElement a =>
    rw [step] at mem
    split at mem
    · next last =>
      cases List.mem_singleton.mp mem
      exact .read (Heap.mem_stored_of_element (List.mem_of_getLast? last))
    · cases mem
  | readField o name =>
    rw [step] at mem
    split at mem
    · next written =>
      cases List.mem_singleton.mp mem
      exact .read (Heap.mem_stored_of_field written)
    · cases mem
  | describe f => exact absurd mem (not_mem (w.heap.values_describe f))
  | findMethod c name =>
    rw [step] at mem
    split at mem
    · exact absurd mem (not_mem (w.heap.values_describe _))
    · cases mem
    · cases mem
  | setVariable name value =>
    cases value with
    | none => cases mem
    | some value =>
      rw [step] at mem
      split at mem
      · cases mem
      · next failed => exact absurd mem (not_mem (values_of_setVariable failed))
  | loadSettings =>
    rw [step] at mem
    split at mem <;> cases mem
  | hostRecord module logger number message arguments =>
    simp only [step] at mem
    split at mem
    · split at mem <;> cases mem
    · cases mem
  | _ => cases mem

end World
end LoxValues
