import LoxValues.Binary.Format

/-!
# Floating-point numbers

`Binary f` is a datum of the format `f`: not a number, one of the two infinities, or a finite
number given by its sign and its rank.  Each datum is written in one way only — the two zeros are
two data — so `=` is agreement bit for bit, and comparing as numbers is `Binary.numEq`.

Rounding happens in one place, `Binary.ofRatio`.  Changing the format (`Binary.convert`) and
reading an integer (`Double.ofInt`) are roundings of an exact quotient; cutting off the fraction
(`Double.truncate`) is exact and saturates at the bounds of a 64-bit integer.
-/

set_option autoImplicit false
namespace LoxValues

/-- The least signed 64-bit integer. -/
def minInt : Int := -9223372036854775808

/-- The greatest signed 64-bit integer. -/
def maxInt : Int := 9223372036854775807

/-- A datum of a binary floating-point format. -/
inductive Binary (f : Format) where
  /-- Not a number.  Payloads of such words are not told apart. -/
  | nan
  /-- An infinity. -/
  | infinite (negative : Bool)
  /-- A finite number: its sign and the rank of its magnitude. -/
  | finite (negative : Bool) (rank : Fin f.infinity)
  deriving DecidableEq

/-- A double-precision number. -/
abbrev Double := Binary Format.double

/-- A single-precision number. -/
abbrev Single := Binary Format.single

namespace Binary

/-- The number of a given sign and rank; from the rank of infinity on, an infinity. -/
def ofRank {f : Format} (negative : Bool) (rank : Nat) : Binary f :=
  if h : rank < f.infinity then .finite negative ⟨rank, h⟩ else .infinite negative

/-- The number of `f` nearest to `num / den` with the given sign. -/
def ofRatio {f : Format} (negative : Bool) (num den : Nat) : Binary f :=
  ofRank negative (f.nearestRank (num * f.one) den)

/-- The number of `g` nearest to a number of `f`.  The sign stays, also on the way to zero. -/
def convert {f : Format} (g : Format) : Binary f → Binary g
  | .nan => .nan
  | .infinite negative => .infinite negative
  | .finite negative rank => ofRatio negative (f.units rank) f.one

/-- The number with the other sign. -/
def negate {f : Format} : Binary f → Binary f
  | .nan => .nan
  | .infinite negative => .infinite (!negative)
  | .finite negative rank => .finite (!negative) rank

/-- Either zero. -/
def isZero {f : Format} : Binary f → Bool
  | .finite _ rank => rank.val == 0
  | _ => false

/-- Comparison as numbers: the two zeros are equal, and not-a-number differs from everything. -/
def numEq {f : Format} (x y : Binary f) : Bool :=
  (x != .nan && x == y) || (x.isZero && y.isZero)

/-! ## Equality of numbers

Comparison as numbers is symmetric and transitive, and reflexive except at not-a-number. -/

theorem numEq_iff {f : Format} {x y : Binary f} :
    x.numEq y = true ↔ (x ≠ .nan ∧ x = y) ∨ (x.isZero = true ∧ y.isZero = true) := by
  simp [numEq]

theorem not_isZero_nan {f : Format} : ¬ (nan : Binary f).isZero = true := by
  simp [isZero]

theorem numEq_self_iff {f : Format} {x : Binary f} : x.numEq x = true ↔ x ≠ .nan := by
  rw [numEq_iff]
  constructor
  · rintro (⟨ne, -⟩ | ⟨zero, -⟩)
    · exact ne
    · rintro rfl
      exact not_isZero_nan zero
  · exact fun ne => .inl ⟨ne, rfl⟩

theorem numEq_symm {f : Format} {x y : Binary f} (h : x.numEq y = true) : y.numEq x = true := by
  rw [numEq_iff] at h ⊢
  rcases h with ⟨ne, rfl⟩ | ⟨hx, hy⟩
  · exact .inl ⟨ne, rfl⟩
  · exact .inr ⟨hy, hx⟩

theorem numEq_trans {f : Format} {x y z : Binary f} (hxy : x.numEq y = true)
    (hyz : y.numEq z = true) : x.numEq z = true := by
  rw [numEq_iff] at hxy hyz ⊢
  rcases hxy with ⟨ne, rfl⟩ | ⟨hx, hy⟩
  · exact hyz
  · rcases hyz with ⟨-, rfl⟩ | ⟨-, hz⟩
    · exact .inr ⟨hx, hy⟩
    · exact .inr ⟨hx, hz⟩

end Binary

namespace Double

/-- The sign bit of a word. -/
def signBit : Nat := 9223372036854775808

/-- The number held by a 64-bit word.  Below the sign bit a word is a rank; the words above the
rank of infinity hold no number. -/
def ofWord (word : Nat) : Double :=
  if Format.double.infinity < word % signBit then .nan
  else .ofRank (word / signBit % 2 == 1) (word % signBit)

/-- The word that holds a number; not-a-number has none of its own. -/
def toWord? : Double → Option Nat
  | .nan => none
  | .infinite negative => some ((if negative then signBit else 0) + Format.double.infinity)
  | .finite negative rank => some ((if negative then signBit else 0) + rank.val)

/-- The nearest number that single precision can hold, as a double. -/
def toSingle (x : Double) : Double :=
  (x.convert Format.single).convert Format.double

/-- The double nearest to an integer. -/
def ofInt (n : Int) : Double := .ofRatio (decide (n < 0)) n.natAbs 1

/-- The double nearest to an integer, unless the integer rounds beyond the largest one. -/
def ofInt? (n : Int) : Option Double :=
  match ofInt n with
  | .finite negative rank => some (.finite negative rank)
  | _ => none

/-- The integer part, held within the bounds of a 64-bit integer; `0` for not-a-number. -/
def truncate : Double → Int
  | .nan => 0
  | .infinite true => minInt
  | .infinite false => maxInt
  | .finite negative rank =>
    let whole : Int := Format.double.units rank / Format.double.one
    if negative then max minInt (-whole) else min maxInt whole

end Double
end LoxValues
