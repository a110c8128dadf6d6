import LoxValues.Decimal.Notation
import LoxValues.Proofs.Rounding
import LoxValues.Proofs.Splitting

/-!
# Reading numbers

The other direction of `LoxValues.Decimal.Notation`: what a text says as a number, exactly, and
which number of a format it is read as.

## What is here

* `Numeral.ofText?` — the reader: a sign, and then infinity or digits with a point between them and an
  exponent behind them if need be.
* `Numeral.IsNearest` — what a numeral rounds to.
* `IsPositional` — digits before and behind the point without any zero that could be left out.
* `Decimal.exists_written` — positional notation is of this form, and is read as the decimal it was
  written for.
-/

set_option autoImplicit false
namespace LoxValues

open Text

/-! ## The reader -/

/-- The number that plain digits stand for, of which there is one at least. -/
def digits? (cs : List Char) : Option Nat :=
  if cs ≠ [] ∧ cs.all Char.isDigit then some (Nat.ofDigitChars 10 cs 0) else none

/-- A decimal and how much it is. -/
def Decimal.value (d : Decimal) : ℚ := d.coefficient * 10 ^ d.exponent

/-- The decimal that digits stand for, with a point between two of them if need be. -/
def Decimal.ofPositional? (cs : List Char) : Option Decimal :=
  match cut? '.' cs with
  | none => (digits? cs).map fun n => ⟨n, 0⟩
  | some (whole, fraction) =>
    match digits? whole, digits? fraction with
    | some _, some _ => some ⟨Nat.ofDigitChars 10 (whole ++ fraction) 0, -fraction.length⟩
    | _, _ => none

/-- The exponent that a sign and digits stand for. -/
def exponent? : List Char → Option Int
  | '+' :: cs => (digits? cs).map fun n => (n : Int)
  | '-' :: cs => (digits? cs).map fun n => -(n : Int)
  | _ => none

/-- The decimal that digits stand for, with a point or an exponent if need be. -/
def Decimal.ofChars? (cs : List Char) : Option Decimal :=
  match cut? 'e' cs with
  | none => ofPositional? cs
  | some (mantissa, mark) =>
    match ofPositional? mantissa, exponent? mark with
    | some d, some e => some ⟨d.coefficient, d.exponent + e⟩
    | _, _ => none

/-- What a text says as a number. -/
inductive Numeral where
  /-- An infinity. -/
  | infinite (negative : Bool)
  /-- A sign and a decimal. -/
  | decimal (negative : Bool) (d : Decimal)
  deriving DecidableEq

namespace Numeral

/-- What is said behind the sign. -/
def ofMagnitude? (negative : Bool) (cs : List Char) : Option Numeral :=
  if cs = ['i', 'n', 'f'] then some (.infinite negative)
  else (Decimal.ofChars? cs).map (.decimal negative)

/-- What a text says as a number, if it says one. -/
def ofText? (s : String) : Option Numeral :=
  match s.toList with
  | '-' :: cs => ofMagnitude? true cs
  | cs => ofMagnitude? false cs

/-- The datum that a numeral rounds to. -/
def IsNearest {f : Format} (x : Binary f) : Numeral → Prop
  | .infinite negative => x = .infinite negative
  | .decimal negative d => x.IsNearest negative d.value

theorem IsNearest.unique {f : Format} {x y : Binary f} {n : Numeral} (hx : n.IsNearest x)
    (hy : n.IsNearest y) : x = y := by
  cases n with
  | infinite negative => exact hx.trans hy.symm
  | decimal negative d => exact Binary.IsNearest.unique hx hy

end Numeral

/-! ## Positional notation -/

/-- Digits before and behind the point that are all needed: in front there is one at least, and a
zero only on its own, and behind there is none at the end. -/
structure IsPositional (whole fraction : List Char) : Prop where
  /-- All are digits. -/
  digits : ∀ c ∈ whole ++ fraction, c.isDigit = true
  /-- There is a digit in front of the point. -/
  nonempty : whole ≠ []
  /-- No zero leads others. -/
  leading : whole.head? = some '0' → whole = ['0']
  /-- No zero stands at the end. -/
  trailing : fraction.getLast? ≠ some '0'

/-- Digits with a point between them, unless there are none behind it. -/
def pointed (whole fraction : List Char) : List Char :=
  if fraction = [] then whole else whole ++ '.' :: fraction

theorem digits?_eq_some {cs : List Char} (nonempty : cs ≠ [])
    (digits : ∀ c ∈ cs, c.isDigit = true) : digits? cs = some (Nat.ofDigitChars 10 cs 0) :=
  if_pos ⟨nonempty, List.all_eq_true.mpr digits⟩

theorem notMem_of_isDigit {cs : List Char} (digits : ∀ c ∈ cs, c.isDigit = true) {c : Char}
    (other : c.isDigit = false) : c ∉ cs := by
  intro mem
  rw [digits c mem] at other
  cases other

/-- There is no mark of an exponent among digits. -/
theorem notMem_pointed {whole fraction : List Char}
    (digits : ∀ c ∈ whole ++ fraction, c.isDigit = true) : 'e' ∉ pointed whole fraction := by
  obtain ⟨front, behind⟩ := List.forall_mem_append.mp digits
  rw [pointed]
  split_ifs
  · exact notMem_of_isDigit front rfl
  · rw [List.mem_append, List.mem_cons, not_or, not_or]
    exact ⟨notMem_of_isDigit front rfl, by decide, notMem_of_isDigit behind rfl⟩

/-- Digits with a point are read as all the digits, counted from behind the last. -/
theorem Decimal.ofPositional?_pointed {whole fraction : List Char}
    (digits : ∀ c ∈ whole ++ fraction, c.isDigit = true) (nonempty : whole ≠ []) :
    ofPositional? (pointed whole fraction) =
      some ⟨Nat.ofDigitChars 10 (whole ++ fraction) 0, -fraction.length⟩ := by
  obtain ⟨front, behind⟩ := List.forall_mem_append.mp digits
  by_cases none : fraction = []
  · subst none
    rw [pointed, if_pos rfl, ofPositional?, cut?_of_notMem (notMem_of_isDigit front rfl)]
    rw [digits?_eq_some nonempty front, List.append_nil]
    rfl
  · rw [pointed, if_neg none, ofPositional?, cut?_append (notMem_of_isDigit front rfl)]
    simp only [digits?_eq_some nonempty front, digits?_eq_some none behind]

theorem Decimal.ofChars?_pointed {whole fraction : List Char}
    (digits : ∀ c ∈ whole ++ fraction, c.isDigit = true) (nonempty : whole ≠ []) :
    ofChars? (pointed whole fraction) =
      some ⟨Nat.ofDigitChars 10 (whole ++ fraction) 0, -fraction.length⟩ := by
  rw [ofChars?, cut?_of_notMem (notMem_pointed digits), ofPositional?_pointed digits nonempty]

/-- A sign is read before what stands behind it. -/
theorem Numeral.ofText?_signed {cs : List Char} (unsigned : cs.head? ≠ some '-') (negative : Bool) :
    ofText? (signed negative cs) = ofMagnitude? negative cs := by
  rw [signed, ofText?, String.toList_ofList]
  cases negative with
  | true => rfl
  | false =>
    cases cs with
    | nil => rfl
    | cons c cs =>
      split
      · next same => simp_all
      · rfl

/-- What starts with a digit is read as a decimal, with the sign in front of it. -/
theorem Numeral.ofText?_signed_digit {c : Char} (digit : c.isDigit = true) (cs : List Char)
    (negative : Bool) :
    ofText? (signed negative (c :: cs)) = (Decimal.ofChars? (c :: cs)).map (.decimal negative) := by
  have unsigned : (c :: cs).head? ≠ some '-' := by
    rintro ⟨⟩
    cases digit
  have named : c :: cs ≠ ['i', 'n', 'f'] := by
    rintro ⟨⟩
    cases digit
  rw [ofText?_signed unsigned, ofMagnitude?, if_neg named]

theorem exists_pointed_eq_cons (c : Char) (cs fraction : List Char) :
    ∃ rest, pointed (c :: cs) fraction = c :: rest := by
  rw [pointed]
  split_ifs
  · exact ⟨_, rfl⟩
  · exact ⟨_, rfl⟩

/-- Digits with a point and a sign in front are read as a decimal with that sign. -/
theorem Numeral.ofText?_pointed {whole fraction : List Char}
    (digits : ∀ c ∈ whole ++ fraction, c.isDigit = true) (nonempty : whole ≠ []) (negative : Bool) :
    ofText? (signed negative (pointed whole fraction)) =
      some (.decimal negative ⟨Nat.ofDigitChars 10 (whole ++ fraction) 0, -fraction.length⟩) := by
  obtain ⟨c, cs, rfl⟩ := List.exists_cons_of_ne_nil nonempty
  have read := Decimal.ofChars?_pointed digits nonempty
  obtain ⟨rest, starts⟩ := exists_pointed_eq_cons c cs fraction
  rw [starts] at read ⊢
  rw [ofText?_signed_digit (digits c (by simp)), read, Option.map_some]

/-! ### The digits of a number -/

theorem isDigit_of_mem_toDigits {n : Nat} : ∀ c ∈ Nat.toDigits 10 n, c.isDigit = true :=
  fun _ mem => Nat.isDigit_of_mem_toDigits (by decide) (by decide) mem

theorem digitChar_ne_zero {n : Nat} (pos : 0 < n) (small : n < 10) : Nat.digitChar n ≠ '0' := by
  have each : ∀ m < 10, 0 < m → Nat.digitChar m ≠ '0' := by decide
  exact each n small pos

/-- No number but zero is written with a zero in front. -/
theorem head?_toDigits_ne_zero {n : Nat} (pos : 0 < n) : (Nat.toDigits 10 n).head? ≠ some '0' := by
  induction n using Nat.strongRecOn with
  | ind n ih =>
    rcases Nat.lt_or_ge n 10 with small | large
    · rw [Nat.toDigits_of_lt_base small]
      simpa using digitChar_ne_zero pos small
    · rw [Nat.toDigits_of_base_le (by decide) large, List.head?_append_of_ne_nil _ Nat.toDigits_ne_nil]
      exact ih (n / 10) (by omega) (by omega)

theorem getLast?_toDigits (n : Nat) :
    (Nat.toDigits 10 n).getLast? = some (Nat.digitChar (n % 10)) := by
  rw [Nat.toDigits_eq_if (by decide)]
  split
  · next small => rw [Nat.mod_eq_of_lt small, List.getLast?_singleton]
  · rw [List.getLast?_concat]

/-- A number is written with a zero at the end only if it is a multiple of ten. -/
theorem getLast?_toDigits_ne_zero {n : Nat} (rest : n % 10 ≠ 0) :
    (Nat.toDigits 10 n).getLast? ≠ some '0' := by
  rw [getLast?_toDigits]
  simpa using digitChar_ne_zero (Nat.pos_of_ne_zero rest) (Nat.mod_lt n (by decide))

namespace Decimal

theorem isDigit_of_mem_digits (d : Decimal) : ∀ c ∈ d.digits, c.isDigit = true :=
  isDigit_of_mem_toDigits

theorem digits_ne_nil (d : Decimal) : d.digits ≠ [] := Nat.toDigits_ne_nil

theorem ofDigitChars_digits (d : Decimal) : Nat.ofDigitChars 10 d.digits 0 = d.coefficient :=
  Nat.ofDigitChars_ten_toDigits

theorem isDigit_of_mem_zeros (n : Nat) : ∀ c ∈ List.replicate n '0', c.isDigit = true := by
  intro c mem
  rw [List.eq_of_mem_replicate mem]
  rfl

/-- Digits that a decimal can be written with: none could be left out, and all together stand for what
the decimal stands for. -/
structure Writes (d : Decimal) (whole fraction : List Char) : Prop where
  positional : IsPositional whole fraction
  value : Decimal.value ⟨Nat.ofDigitChars 10 (whole ++ fraction) 0, -fraction.length⟩ = d.value

/-- All digits stand behind the point, and zeros in front of them. -/
theorem writes_behind {d : Decimal} (behind : d.point ≤ 0) (counts : d.coefficient % 10 ≠ 0) :
    d.Writes ['0'] (List.replicate (-d.point).toNat '0' ++ d.digits) := by
  refine ⟨⟨?_, by simp, by simp, ?_⟩, ?_⟩
  · simp only [List.forall_mem_append]
    exact ⟨by simp, isDigit_of_mem_zeros _, d.isDigit_of_mem_digits⟩
  · rw [List.getLast?_append_of_ne_nil _ d.digits_ne_nil]
    exact getLast?_toDigits_ne_zero counts
  · have places : (-(List.replicate (-d.point).toNat '0' ++ d.digits).length : Int) = d.exponent := by
      rw [List.length_append, List.length_replicate]
      rw [point] at behind ⊢
      omega
    rw [places, value, value, Nat.ofDigitChars_append, Nat.ofDigitChars_append,
      Nat.ofDigitChars_replicate_zero]
    simp [Nat.ofDigitChars_cons, d.ofDigitChars_digits]

/-- All digits stand before the point, and zeros behind them. -/
theorem writes_before {d : Decimal} (pos : 0 < d.coefficient) (integer : 0 ≤ d.exponent) :
    d.Writes (d.digits ++ List.replicate d.exponent.toNat '0') [] := by
  refine ⟨⟨?_, by simp [d.digits_ne_nil], ?_, by simp⟩, ?_⟩
  · rw [List.append_nil, List.forall_mem_append]
    exact ⟨d.isDigit_of_mem_digits, isDigit_of_mem_zeros _⟩
  · rw [List.head?_append_of_ne_nil _ d.digits_ne_nil]
    exact fun zero => absurd zero (head?_toDigits_ne_zero pos)
  · obtain ⟨e, he⟩ := Int.eq_ofNat_of_zero_le integer
    rw [List.append_nil, value, value, Nat.ofDigitChars_append, d.ofDigitChars_digits,
      Nat.ofDigitChars_replicate_zero, he]
    simp [mul_comm]

/-- The point stands between two digits. -/
theorem writes_between {d : Decimal} (pos : 0 < d.coefficient) (front : 0 < d.point)
    (back : d.exponent < 0) (counts : d.coefficient % 10 ≠ 0) :
    d.Writes (d.digits.take d.point.toNat) (d.digits.drop d.point.toNat) := by
  rw [point] at front ⊢
  refine ⟨⟨?_, ?_, ?_, ?_⟩, ?_⟩
  · rw [List.take_append_drop]
    exact d.isDigit_of_mem_digits
  · rw [Ne, List.take_eq_nil_iff, not_or]
    exact ⟨by omega, d.digits_ne_nil⟩
  · rw [List.head?_take, if_neg (by omega)]
    exact fun zero => absurd zero (head?_toDigits_ne_zero pos)
  · rw [List.getLast?_drop, if_neg (by omega)]
    exact getLast?_toDigits_ne_zero counts
  · have places : (-(d.digits.drop (d.digits.length + d.exponent).toNat).length : Int) =
        d.exponent := by
      rw [List.length_drop]
      omega
    rw [List.take_append_drop, d.ofDigitChars_digits, places]

/-- **Positional notation is positional and reads back**, if the last digit behind the point counts
something. -/
theorem exists_written {d : Decimal} (pos : 0 < d.coefficient)
    (counts : d.exponent < 0 → d.coefficient % 10 ≠ 0) :
    ∃ whole fraction, d.positional = pointed whole fraction ∧ d.Writes whole fraction := by
  have length := List.length_pos_of_ne_nil d.digits_ne_nil
  rw [positional]
  split_ifs with behind integer
  · have back : d.exponent < 0 := by
      rw [point] at behind
      omega
    refine ⟨_, _, ?_, writes_behind behind (counts back)⟩
    simp [pointed, d.digits_ne_nil]
  · refine ⟨_, _, ?_, writes_before pos integer⟩
    simp [pointed]
  · have back : d.exponent < 0 := by omega
    refine ⟨_, _, ?_, writes_between pos (by omega) back (counts back)⟩
    have some : d.digits.drop d.point.toNat ≠ [] := by
      rw [Ne, List.drop_eq_nil_iff, point]
      omega
    rw [pointed, if_neg some]

end Decimal
end LoxValues
