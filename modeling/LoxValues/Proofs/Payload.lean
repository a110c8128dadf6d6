import LoxValues.Proofs.Provenance
import LoxValues.Proofs.Rounding

/-!
# Payloads

The payload of an integer fits in 64 bits, and that of a float is a number of single precision.  Both
are checked only where a value is made from a number of the host (`LoxValues.Construction`), so it
takes a whole run to see that they hold everywhere: a host gets hold of values by making them, from the
answers of steps and from what descriptors hold, and it hands over values that it holds already.

## What is here

* `Value.Fits` — the payload is one that values are made with (`Making.exists_value?_iff`).  Unary minus
  keeps it, and finds nothing to correct in doing so (`Value.remadeNegation?_eq`).
* `Host` — a world with the values that a host holds, one action after the other.
* `Host.everything_fits` — **every value fits**, in every run.
-/

set_option autoImplicit false
namespace LoxValues

/-! ## Payloads of floats -/

section Numbers

variable {f : Format}

theorem Binary.negate_ofRank (negative : Bool) (rank : Nat) :
    (ofRank negative rank : Binary f).negate = ofRank (!negative) rank := by
  rw [ofRank, ofRank]
  split <;> rfl

/-- Rounding goes the same way on both sides of zero. -/
theorem Binary.convert_negate (g : Format) (x : Binary f) :
    x.negate.convert g = (x.convert g).negate := by
  cases x with
  | nan => rfl
  | infinite negative => rfl
  | finite negative rank => exact (negate_ofRank negative _).symm

end Numbers

namespace Double

theorem toSingle_negate (x : Double) : toSingle x.negate = x.toSingle.negate := by
  rw [toSingle, toSingle, Binary.convert_negate, Binary.convert_negate]

/-- **A double is kept by rounding** just if it is a number of single precision, widened. -/
theorem toSingle_eq_self_iff {x : Double} :
    x.toSingle = x ↔ ∃ s : Single, x = s.convert Format.double := by
  constructor
  · exact fun kept => ⟨x.convert Format.single, kept.symm⟩
  · rintro ⟨s, rfl⟩
    rw [toSingle, Single.convert_convert]

/-- Rounding again changes nothing. -/
theorem toSingle_toSingle (x : Double) : x.toSingle.toSingle = x.toSingle :=
  toSingle_eq_self_iff.mpr ⟨x.convert Format.single, rfl⟩

end Double

/-! ## Payloads of values -/

namespace Value

/-- An integer is in the 64-bit range, and a float is kept by rounding to single precision. -/
def Fits : Value → Prop
  | .int n => minInt ≤ n ∧ n ≤ maxInt
  | .float x _ => x.toSingle = x
  | _ => True

theorem fits_float_iff {x : Double} {box : Nat} : (float x box).Fits ↔ x.toSingle = x := Iff.rfl

theorem fits_of_isNumber_eq_false {v : Value} (other : v.isNumber = false) : v.Fits := by
  cases v with
  | int | float => cases other
  | _ => trivial

theorem fits_ofInt {n : Int} {v : Value} (made : ofInt n = .ok v) : v.Fits := by
  rw [ofInt] at made
  split at made
  · next range =>
    cases made
    exact range
  · cases made

theorem ofInt_of_range {n : Int} (range : minInt ≤ n ∧ n ≤ maxInt) : ofInt n = .ok (.int n) :=
  if_pos range

theorem ofInt_of_not_range {n : Int} (outside : ¬(minInt ≤ n ∧ n ≤ maxInt)) :
    ofInt n = .error (.naming n (.integerRange n)) :=
  if_neg outside

/-- The greatest number that can be written is out of range, and the next one has too many digits. -/
example :
    ofInt (10 ^ longestInteger - 1) = .error (.integerRange (10 ^ longestInteger - 1)) ∧
    ofInt (10 ^ longestInteger) = .error .tooManyDigits := by
  decide +kernel

theorem fits_ofDouble (x : Double) (box : Nat) : (ofDouble x box).Fits := by
  rw [ofDouble, fits_float_iff, Double.toSingle_toSingle]

-- An equation of the functions themselves: at an argument, checking it would compute the rounding.
theorem floatOfInt_eq : floatOfInt = fun n box =>
    match Double.ofInt? n with
    | some x => .ok (ofDouble x box)
    | none => .error .beyondDoubles := by
  exact rfl

theorem fits_floatOfInt {n : Int} {box : Nat} {v : Value} (made : floatOfInt n box = .ok v) :
    v.Fits := by
  rw [floatOfInt_eq] at made
  dsimp only at made
  split at made
  · cases made
    exact fits_ofDouble _ box
  · cases made

theorem fits_ofLiteral {l : Literal} {box : Nat} {v : Value} (made : ofLiteral l box = .ok v) :
    v.Fits := by
  cases l with
  | float x =>
    cases made
    exact fits_ofDouble x box
  | int n => exact fits_ofInt made
  | string s =>
    cases made
    trivial
  | keyword k => cases k <;> cases made <;> trivial
  | stray s => cases s <;> cases made

/-! ### Unary minus -/

theorem range_wrap (n : Int) : minInt ≤ wrap n ∧ wrap n ≤ maxInt := by
  have above := Int.le_bmod (x := n) (m := 18446744073709551616) (by decide)
  have below := Int.bmod_lt (x := n) (m := 18446744073709551616) (by decide)
  rw [minInt, maxInt, wrap]
  omega

/-- Unary minus with the result made anew from its payload, which is checked once more, in the box that
is given. -/
def remadeNegation? (box : Nat) : Value → Option (Except Fault Value)
  | .int n => some (ofInt (wrap (-n)))
  | .float x _ => some (.ok (ofDouble x.negate box))
  | _ => none

/-- **Negation stays within the payloads**: making its result anew from the payload gives the same. -/
theorem remadeNegation?_eq {v : Value} (fits : v.Fits) (box : Nat) :
    v.remadeNegation? box = (v.negated? box).map Except.ok := by
  cases v with
  | int n => exact congrArg some (ofInt_of_range (range_wrap (-n)))
  | float x i =>
    rw [remadeNegation?, ofDouble, Double.toSingle_negate, fits_float_iff.mp fits]
    rfl
  | _ => rfl

theorem fits_negated? {v u : Value} {box : Nat} (fits : v.Fits) (negated : v.negated? box = some u) :
    u.Fits := by
  cases v with
  | int n =>
    cases negated
    exact range_wrap (-n)
  | float x i =>
    cases negated
    rw [fits_float_iff, Double.toSingle_negate, fits_float_iff.mp fits]
  | _ => cases negated

theorem exists_negated? {v : Value} (number : v.isNumber = true) (box : Nat) :
    ∃ u, v.negated? box = some u := by
  cases v with
  | int n => exact ⟨_, rfl⟩
  | float x i => exact ⟨_, rfl⟩
  | _ => cases number

end Value

theorem World.negate_of_negated {w : World} {u v : Value} {box : Nat}
    (negated : v.negated? box = some u) : w.negate v box = (.ok u, w) := by
  rw [negate, negated]
  rfl

/-! ## Making values -/

/-- How a host makes a value.  For a float it has a box ready. -/
inductive Making where
  /-- The integer value of a number of the host. -/
  | int (n : Int)
  /-- The float value of a number of the host. -/
  | float (x : Double) (box : Nat)
  /-- The float value of an integer of the host. -/
  | floatOfInt (n : Int) (box : Nat)
  /-- The value of a literal. -/
  | literal (l : Literal) (box : Nat)
  /-- A function bound to an object. -/
  | method (f : FunctionRef) (receiver : ObjectRef)
  /-- A value that is no number. -/
  | other (v : Value) (plain : v.isNumber = false)

/-- The value that is made. -/
def Making.value? : Making → Except Fault Value
  | .int n => Value.ofInt n
  | .float x box => .ok (Value.ofDouble x box)
  | .floatOfInt n box => Value.floatOfInt n box
  | .literal l box => Value.ofLiteral l box
  | .method f receiver => .ok (.method f receiver)
  | .other v _ => .ok v

/-- **The values that fit are those that can be made.** -/
theorem Making.exists_value?_iff {v : Value} : (∃ m : Making, m.value? = .ok v) ↔ v.Fits := by
  constructor
  · rintro ⟨m, made⟩
    cases m with
    | int n => exact Value.fits_ofInt made
    | float x box =>
      cases made
      exact Value.fits_ofDouble x box
    | floatOfInt n box => exact Value.fits_floatOfInt made
    | literal l box => exact Value.fits_ofLiteral made
    | method f receiver =>
      cases made
      trivial
    | other u plain =>
      cases made
      exact Value.fits_of_isNumber_eq_false plain
  · intro fits
    cases number : v.isNumber with
    | false => exact ⟨.other v number, rfl⟩
    | true =>
      cases v with
      | int n => exact ⟨.int n, Value.ofInt_of_range fits⟩
      | float x box => exact ⟨.float x box, congrArg (fun y => Except.ok (Value.float y box)) fits⟩
      | _ => cases number

theorem Value.values_of_ofInt {n : Int} {fault : Fault} (failed : ofInt n = .error fault) :
    fault.values = [] := by
  rw [ofInt] at failed
  split at failed
  · cases failed
  · exact Fault.values_of_naming failed rfl

theorem Making.values_of_value? {m : Making} {fault : Fault} (failed : m.value? = .error fault) :
    fault.values = [] := by
  cases m with
  | int n => exact Value.values_of_ofInt failed
  | floatOfInt n box =>
    rw [value?, Value.floatOfInt_eq] at failed
    dsimp only at failed
    split at failed
    · cases failed
    · cases failed
      rfl
  | literal l box =>
    cases l with
    | int n => exact Value.values_of_ofInt failed
    | stray s =>
      cases s with
      | text s =>
        cases failed
        rfl
      | number n => exact Fault.values_of_naming failed rfl
    | keyword k => cases k <;> cases failed
    | _ => cases failed
  | _ => cases failed

/-! ## Hosts -/

/-- What a host does. -/
inductive Action where
  /-- It makes a value. -/
  | make (m : Making)
  /-- It reads what a function closes over. -/
  | readClosure (f : FunctionRef)
  /-- It asks for a step. -/
  | ask (s : Step)

/-- The values that a host hands over. -/
def Action.operands : Action → List Value
  | .ask s => s.operands
  | _ => []

/-- What a function closes over, as an answer. -/
def Heap.closureAnswer (h : Heap) (f : FunctionRef) : Answer :=
  match (h.function? f).map FunctionRecord.closure with
  | some (.value v) => .value v
  | _ => .nothing

theorem Heap.mem_stored_of_closureAnswer {h : Heap} {f : FunctionRef} {v : Value}
    (mem : v ∈ (h.closureAnswer f).values) : v ∈ h.stored := by
  rw [closureAnswer] at mem
  split at mem
  · next u closes =>
    cases List.mem_singleton.mp mem
    obtain ⟨r, here, closure⟩ := Option.map_eq_some_iff.mp closes
    refine mem_stored_of_closure here ?_
    rw [closure]
    exact List.mem_singleton.mpr rfl
  · cases mem

/-- The answer to an action, and the world after it. -/
def World.carryOut (w : World) : Action → Except Fault Answer × World
  | .make m => (m.value?.map .value, w)
  | .readClosure f => (.ok (w.heap.closureAnswer f), w)
  | .ask s => w.step s

/-- A world, and the values that a host has got hold of. -/
structure Host where
  /-- The world. -/
  world : World
  /-- The values, in the order in which they came. -/
  held : List Value

namespace Host

/-- A host that holds nothing, in a world without descriptors. -/
def start (w : World) : Host := ⟨w.withHeap .empty, []⟩

/-- The host after an action: it holds what came with the answer. -/
def act (h : Host) (a : Action) : Host :=
  ⟨(h.world.carryOut a).2, h.held ++ valuesOf (h.world.carryOut a).1⟩

/-- The host after some actions. -/
def run (h : Host) (actions : List Action) : Host := actions.foldl act h

/-- Each time the host hands over values that it holds. -/
def Owns : Host → List Action → Prop
  | _, [] => True
  | h, a :: actions => (∀ v ∈ a.operands, v ∈ h.held) ∧ (h.act a).Owns actions

instance decidableOwns : (h : Host) → (actions : List Action) → Decidable (h.Owns actions)
  | _, [] => .isTrue trivial
  | h, a :: actions =>
    have := decidableOwns (h.act a) actions
    inferInstanceAs (Decidable ((∀ v ∈ a.operands, v ∈ h.held) ∧ (h.act a).Owns actions))

/-- A value that the host holds or that a descriptor has. -/
def Has (h : Host) (v : Value) : Prop := v ∈ h.held ∨ v ∈ h.world.heap.stored

/-- All values around fit. -/
def Sound (h : Host) : Prop := ∀ v, h.Has v → v.Fits

theorem sound_start (w : World) : (start w).Sound := by
  rintro v (held | stored)
  · cases held
  · cases stored

/-- What comes with the answer to an action fits. -/
theorem Sound.fits_answer {h : Host} (sound : h.Sound) {a : Action}
    (owned : ∀ v ∈ a.operands, v ∈ h.held) {v : Value}
    (mem : v ∈ valuesOf (h.world.carryOut a).1) : v.Fits := by
  cases a with
  | make m =>
    obtain ⟨u, made, result⟩ := exists_ok_of_mem (fun _ => m.values_of_value?) mem
    cases List.mem_singleton.mp result
    exact Making.exists_value?_iff.mp ⟨m, made⟩
  | readClosure f => exact sound v (.inr (Heap.mem_stored_of_closureAnswer mem))
  | ask s =>
    cases World.returns_step mem with
    | given operand => exact sound v (.inl (owned v operand))
    | read stored => exact sound v (.inr stored)
    | @negated u _ _ operand negated =>
      exact Value.fits_negated? (sound u (.inl (owned u operand))) negated
    | truth b => trivial

/-- What is stored after an action was stored or held before it. -/
theorem has_of_stored_act {h : Host} {a : Action} (owned : ∀ v ∈ a.operands, v ∈ h.held) {v : Value}
    (mem : v ∈ (h.act a).world.heap.stored) : h.Has v := by
  cases a with
  | make m => exact .inr mem
  | readClosure f => exact .inr mem
  | ask s => exact (World.stored_step mem).symm.imp_left (owned v)

/-- **An action keeps everything fitting**, if the host hands over values that it holds. -/
theorem Sound.act {h : Host} (sound : h.Sound) {a : Action} (owned : ∀ v ∈ a.operands, v ∈ h.held) :
    (h.act a).Sound := by
  rintro v (held | stored)
  · rcases List.mem_append.mp held with before | answer
    · exact sound v (.inl before)
    · exact sound.fits_answer owned answer
  · exact sound v (has_of_stored_act owned stored)

theorem Sound.run {h : Host} (sound : h.Sound) {actions : List Action} (owned : h.Owns actions) :
    (h.run actions).Sound := by
  induction actions generalizing h with
  | nil => exact sound
  | cons a actions ih => exact ih (sound.act owned.1) owned.2

/-- A number outside the 64-bit range makes no integer value, and nothing comes of trying. -/
theorem refused (h : Host) {n : Int} (outside : ¬(minInt ≤ n ∧ n ≤ maxInt)) {m : Making} {box : Nat}
    (integer : m = .int n ∨ m = .literal (.int n) box) :
    (h.world.carryOut (.make m)).1 = .error (.naming n (.integerRange n)) ∧ h.act (.make m) = h := by
  have failed : m.value? = .error (.naming n (.integerRange n)) := by
    rcases integer with rfl | rfl
    · exact Value.ofInt_of_not_range outside
    · exact Value.ofInt_of_not_range outside
  have answer : (h.world.carryOut (.make m)).1 = .error (.naming n (.integerRange n)) :=
    congrArg (Except.map Answer.value) failed
  refine ⟨answer, ?_⟩
  rw [Host.act, answer, valuesOf, Fault.values_naming rfl, List.append_nil]
  rfl

/-- **Every value fits.**  Take any run of a host in a world without descriptors, in which it makes
values, reads closures and asks for steps, and hands over values that it holds.  Whatever it holds after
that, and whatever a descriptor has, fits: an integer in 64 bits and a float in single precision, where
rounding keeps it.  A number outside the 64-bit range still makes no value and changes nothing.  The
failure is that it is out of range, but only if the number can be written: one with too many digits for
that fails for its digits.  Negating a number succeeds, changes nothing in the world and gives what would
be made from the negated payload. -/
theorem everything_fits (w : World) {actions : List Action} (owned : (start w).Owns actions) :
    let h := (start w).run actions
    (∀ n, h.Has (.int n) → minInt ≤ n ∧ n ≤ maxInt) ∧
    (∀ x box, h.Has (.float x box) → x.toSingle = x ∧ ∃ s : Single, x = s.convert Format.double) ∧
    (∀ n, ¬(minInt ≤ n ∧ n ≤ maxInt) → ∀ box m, m = .int n ∨ m = .literal (.int n) box →
      (h.world.carryOut (.make m)).1 =
        .error (if isWritable n then .integerRange n else .tooManyDigits) ∧
      h.act (.make m) = h) ∧
    ∀ v, h.Has v → v.isNumber = true → ∀ box, ∃ u,
      h.world.carryOut (.ask (.negate v box)) = (.ok (.value u), h.world) ∧
      v.remadeNegation? box = some (.ok u) := by
  have sound := (sound_start w).run owned
  refine ⟨fun n here => sound _ here, fun x box here => ?_, fun n outside box m => refused _ outside, ?_⟩
  · have kept := Value.fits_float_iff.mp (sound _ here)
    exact ⟨kept, Double.toSingle_eq_self_iff.mp kept⟩
  · intro v here number box
    obtain ⟨u, negated⟩ := Value.exists_negated? number box
    refine ⟨u, ?_, ?_⟩
    · rw [World.carryOut, World.step, World.negate_of_negated negated]
      rfl
    · rw [Value.remadeNegation?_eq (sound v here), negated]
      rfl

/-- The double nearest to a tenth. -/
def tenth : Double := .ofWord 0x3FB999999999999A

/-- Numbers at the ends of the range and beyond, negated and put into an array. -/
def excursion : List Action :=
  [.make (.int (maxInt + 1)), .make (.literal (.int minInt) 0), .make (.float tenth 0),
    .ask (.negate (.int minInt) 1), .ask (.negate (.float tenth.toSingle 0) 1),
    .ask (.create (.array ⟨2, [.int minInt, .float tenth.toSingle.negate 1]⟩)),
    .ask (.readElement ⟨0⟩ (-1))]

/-- All of them fit. -/
theorem fits_excursion :
    let h := (start (.fresh .empty none .silent)).run excursion
    (start (.fresh .empty none .silent)).Owns excursion ∧
    h.held = [.int minInt, .float tenth.toSingle 0, .int minInt, .float tenth.toSingle.negate 1,
      .float tenth.toSingle.negate 1] ∧
    ∀ x box, h.Has (.float x box) → x.toSingle = x := by
  have owned : (start (.fresh .empty none .silent)).Owns excursion := by decide +kernel
  have held : ((start (.fresh .empty none .silent)).run excursion).held = [.int minInt,
    .float tenth.toSingle 0, .int minInt, .float tenth.toSingle.negate 1,
    .float tenth.toSingle.negate 1] := by decide +kernel
  exact ⟨owned, held, fun x box here => ((everything_fits _ owned).2.1 x box here).1⟩

end Host
end LoxValues
