import LoxValues.Text.CaseMap
import LoxValues.Proofs.Splitting
import Mathlib

/-!
# Letter case and separators

Lower case is a matter of single characters, but for the capital sigma, which looks at the word around
it.  The characters that texts are split at have no part in either: they are kept, nothing else becomes
one of them, and no word goes beyond them.  So a text may be split before or after it is put in lower
case.

## What is here

* `Caseless` — a character without any part in letter case.  Commas, equality signs and blanks are such
  (`caseless_comma`, `caseless_equals`, `caseless_of_isBlank`), which is read off the tables.
* `Caseless.lower_append_cons` — **a caseless character divides a text** into two that are put in lower
  case on their own.
* `Caseless.mem_lower_iff`, `forall_isBlank_lower_iff` — nor does one come or go.
* `Caseless.pieces_lower` — splitting a text there goes along with lower case.
* `lower_eq_map`, `upper_eq_map` — in ASCII text only the letters `A` to `Z` and `a` to `z` change.
-/

set_option autoImplicit false
namespace LoxValues.Text

/-! ## The tables -/

section Tables

variable {many : List (Nat × List Nat)} {ranges : List CaseRange} {c d : Char}

theorem mapCase_eq_self (alone : ∀ e ∈ many, e.1 ≠ c.toNat)
    (outside : ∀ r ∈ ranges, r.holds c.toNat = false) : mapCase many ranges c = [c] := by
  have first : many.find? (fun e => e.1 == c.toNat) = none := by
    simpa [List.find?_eq_none] using alone
  have second : ranges.find? (fun r => r.holds c.toNat) = none := by
    simpa [List.find?_eq_none] using outside
  rw [mapCase]
  simp only [first, second]

theorem mapCase_ne_nil (nonempty : ∀ e ∈ many, e.2 ≠ []) (c : Char) : mapCase many ranges c ≠ [] := by
  rw [mapCase]
  split
  · next found => simpa using nonempty _ (List.mem_of_find?_eq_some found)
  · split <;> simp

/-- A character that is the other case of no character in the tables comes from itself only. -/
theorem eq_of_mem_mapCase (nonzero : d.toNat ≠ 0) (alone : ∀ e ∈ many, d.toNat ∉ e.2)
    (outside : ∀ r ∈ ranges, ¬((r.first : Int) + r.shift ≤ d.toNat ∧ d.toNat ≤ r.last + r.shift))
    (mem : d ∈ mapCase many ranges c) : d = c := by
  -- a code point that is no character's makes the null character
  have code {n : Nat} (eq : Char.ofNat n = d) : d.toNat = n := by
    subst eq
    rw [Char.toNat_ofNat] at nonzero ⊢
    split_ifs at nonzero ⊢ <;> simp_all
  rw [mapCase] at mem
  split at mem
  · next found =>
    obtain ⟨n, inside, eq⟩ := List.mem_map.mp mem
    have listed := alone _ (List.mem_of_find?_eq_some found)
    rw [code eq] at listed
    exact absurd inside listed
  · split at mem
    · next r found =>
      rw [List.mem_singleton] at mem
      have holds := List.find?_some found
      have missed := outside r (List.mem_of_find?_eq_some found)
      have place := code mem.symm
      simp only [CaseRange.holds, Bool.and_eq_true, decide_eq_true_eq] at holds
      omega
    · simpa using mem

end Tables

/-! ## Characters without letter case -/

/-- A character that has no lower case but itself and is that of no other, and that ends a word. -/
structure Caseless (c : Char) : Prop where
  /-- It is kept. -/
  kept : lowerChar c = [c]
  /-- Nothing else becomes it. -/
  alone : ∀ d, c ∈ lowerChar d → c = d
  /-- It does not count as a letter. -/
  uncased : inRuns cased c = false
  /-- It is not passed over within a word. -/
  seen : inRuns caseIgnorable c = false

/-- The code points that the tables have something to say about, in runs: those with a lower case, those
that are one, and those that matter around a capital sigma. -/
def listed : List (Nat × Nat) :=
  lowerMany.flatMap (fun e => (e.1, e.1) :: e.2.map fun n => (n, n)) ++
    lowerRanges.flatMap (fun r =>
      [(r.first, r.last), ((r.first + r.shift).toNat, (r.last + r.shift).toNat)]) ++
    (cased ++ caseIgnorable)

/-- The code points of the comma, the equality sign and the blanks. -/
def separatorRuns : List (Nat × Nat) :=
  [(9, 13), (28, 32), (44, 44), (61, 61), (133, 133), (160, 160), (5760, 5760), (8192, 8202),
    (8232, 8233), (8239, 8239), (8287, 8287), (12288, 12288)]

theorem mem_listed_of_many {e : Nat × List Nat} {n : Nat} (mem : e ∈ lowerMany)
    (part : n = e.1 ∨ n ∈ e.2) : (n, n) ∈ listed :=
  List.mem_append_left _ (List.mem_append_left _
    (List.mem_flatMap.mpr ⟨e, mem, by simpa using part⟩))

theorem mem_listed_of_range {r : CaseRange} {run : Nat × Nat} (mem : r ∈ lowerRanges)
    (part : run ∈ [(r.first, r.last), ((r.first + r.shift).toNat, (r.last + r.shift).toNat)]) :
    run ∈ listed :=
  List.mem_append_left _ (List.mem_append_right _ (List.mem_flatMap.mpr ⟨r, mem, part⟩))

/-- **The tables say nothing about a separator.** -/
theorem listed_apart {c : Char} {run : Nat × Nat} (separator : inRuns separatorRuns c = true)
    (mem : run ∈ listed) : c.toNat < run.1 ∨ run.2 < c.toNat := by
  -- one pass over the tables, with comparisons that are computed and not decided
  have apart : (listed.all fun run => separatorRuns.all fun gap =>
      gap.2.blt run.1 || run.2.blt gap.1) = true := by
    decide +kernel
  obtain ⟨gap, inside, holds⟩ := List.any_eq_true.mp separator
  have sides := List.all_eq_true.mp (List.all_eq_true.mp apart run mem) gap inside
  simp only [Bool.or_eq_true, Nat.blt_eq] at sides
  simp only [Bool.and_eq_true, decide_eq_true_eq] at holds
  omega

theorem caseless_of_separator {c : Char} (separator : inRuns separatorRuns c = true) : Caseless c := by
  have nonzero : c.toNat ≠ 0 := fun zero => by simp [inRuns, separatorRuns, zero] at separator
  have many {e : Nat × List Nat} {n : Nat} (mem : e ∈ lowerMany) (part : n = e.1 ∨ n ∈ e.2) :
      c.toNat ≠ n := by
    have := listed_apart separator (mem_listed_of_many mem part)
    omega
  have outside {runs : List (Nat × Nat)} (part : runs ⊆ cased ++ caseIgnorable) :
      inRuns runs c = false := by
    simp only [inRuns, List.any_eq_false, Bool.and_eq_true, decide_eq_true_eq]
    intro run mem
    have := listed_apart separator (List.mem_append_right _ (part mem))
    omega
  refine ⟨mapCase_eq_self (fun e mem => (many mem (.inl rfl)).symm) fun r mem => ?_, fun d mem =>
    eq_of_mem_mapCase nonzero (fun e mem inside => many mem (.inr inside) rfl) (fun r mem => ?_) mem,
    outside (List.subset_append_left _ _), outside (List.subset_append_right _ _)⟩
  · have := listed_apart separator (mem_listed_of_range mem List.mem_cons_self)
    simp only [CaseRange.holds, Bool.and_eq_false_iff, decide_eq_false_iff_not]
    omega
  · have := listed_apart separator
      (mem_listed_of_range mem (List.mem_cons_of_mem _ List.mem_cons_self))
    omega

theorem caseless_comma : Caseless ',' := caseless_of_separator (by decide)

theorem caseless_equals : Caseless '=' := caseless_of_separator (by decide)

theorem caseless_of_isBlank {c : Char} (blank : isBlank c = true) : Caseless c := by
  refine caseless_of_separator ?_
  simp only [isBlank, isWhiteSpace, Bool.or_eq_true, Bool.and_eq_true, decide_eq_true_eq,
    beq_iff_eq] at blank
  simp only [inRuns, separatorRuns, List.any_cons, List.any_nil, Bool.or_false, Bool.or_eq_true,
    Bool.and_eq_true, decide_eq_true_eq]
  omega

/-! ## Lower case, separator by separator -/

theorem Caseless.ne_sigma {c : Char} (caseless : Caseless c) : c ≠ 'Σ' := by
  rintro rfl
  have : inRuns cased 'Σ' = true := by decide +kernel
  rw [caseless.uncased] at this
  cases this

/-- A caseless character ends the search for a letter. -/
theorem Caseless.meetsCased_append {c : Char} (caseless : Caseless c) (xs ys : List Char) :
    meetsCased (xs ++ c :: ys) = meetsCased xs := by
  rw [meetsCased, meetsCased, dropWhile_append_cons caseless.seen]
  cases xs.dropWhile (inRuns caseIgnorable) with
  | nil => simp [caseless.uncased]
  | cons d ds => rfl

/-- What stands in front of a caseless character has no bearing on what comes after it. -/
theorem Caseless.lowerAfter_append {c : Char} (caseless : Caseless c) (near far cs : List Char) :
    lowerAfter (near ++ c :: far) cs = lowerAfter near cs := by
  induction cs generalizing near with
  | nil => rfl
  | cons d ds ih =>
    rw [lowerAfter, lowerAfter, caseless.meetsCased_append, ← List.cons_append, ih]

theorem Caseless.lowerAfter_append_cons {c : Char} (caseless : Caseless c) (before xs ys : List Char) :
    lowerAfter before (xs ++ c :: ys) = lowerAfter before xs ++ c :: lower ys := by
  induction xs generalizing before with
  | nil =>
    have fresh : lowerAfter (c :: before) ys = lower ys := caseless.lowerAfter_append [] before ys
    rw [List.nil_append, lowerAfter.eq_2, if_neg caseless.ne_sigma, caseless.kept, fresh]
    rfl
  | cons d ds ih =>
    rw [List.cons_append, lowerAfter, lowerAfter, caseless.meetsCased_append, ih, List.append_assoc]

/-- **A caseless character divides a text** into two that have their own lower case. -/
theorem Caseless.lower_append_cons {c : Char} (caseless : Caseless c) (xs ys : List Char) :
    lower (xs ++ c :: ys) = lower xs ++ c :: lower ys :=
  caseless.lowerAfter_append_cons [] xs ys

@[simp]
theorem lower_nil : lower [] = [] := rfl

theorem Caseless.lower_intercalate {c : Char} (caseless : Caseless c) (ps : List (List Char)) :
    lower (List.intercalate [c] ps) = List.intercalate [c] (ps.map lower) := by
  induction ps with
  | nil => rfl
  | cons p ps ih =>
    cases ps with
    | nil => simp
    | cons q ps =>
      simp only [List.map_cons, List.intercalate_cons_cons, List.append_assoc,
        List.singleton_append] at ih ⊢
      rw [caseless.lower_append_cons, ih]

/-- Blanks at either end stay there. -/
theorem lower_append_left {blanks : List Char} (all : ∀ c ∈ blanks, isBlank c = true)
    (cs : List Char) : lower (blanks ++ cs) = blanks ++ lower cs := by
  induction blanks with
  | nil => rfl
  | cons c blanks ih =>
    obtain ⟨blank, rest⟩ := List.forall_mem_cons.mp all
    rw [List.cons_append, ← List.nil_append (c :: _), (caseless_of_isBlank blank).lower_append_cons,
      ih rest, lower_nil, List.nil_append, List.cons_append]

theorem lower_append_right {blanks : List Char} (all : ∀ c ∈ blanks, isBlank c = true)
    (cs : List Char) : lower (cs ++ blanks) = lower cs ++ blanks := by
  cases blanks with
  | nil => rw [List.append_nil, List.append_nil]
  | cons c blanks =>
    obtain ⟨blank, rest⟩ := List.forall_mem_cons.mp all
    have kept := lower_append_left rest []
    rw [lower_nil, List.append_nil] at kept
    rw [(caseless_of_isBlank blank).lower_append_cons, kept]

/-- The lower case of a first character is not empty, and holds no caseless character but this one. -/
theorem exists_lowerAfter_cons (before : List Char) (d : Char) (cs : List Char) :
    ∃ ds, ds ≠ [] ∧ (∀ c, Caseless c → (c ∈ ds ↔ c = d)) ∧ (Caseless d → ds = [d]) ∧
      lowerAfter before (d :: cs) = ds ++ lowerAfter (d :: before) cs := by
  refine ⟨_, ?_, fun c caseless => ?_, fun caseless => ?_, rfl⟩
  · -- the sigma becomes one character, and others are in the tables with their lower case
    split_ifs
    · simp
    · simp
    · exact mapCase_ne_nil (by decide +kernel) d
  · have uncased {letter : Char} (isCased : inRuns cased letter = true) : c ≠ letter := by
      rintro rfl
      rw [caseless.uncased] at isCased
      cases isCased
    split_ifs with sigma
    · simpa [sigma, caseless.ne_sigma] using uncased (by decide +kernel)
    · simpa [sigma, caseless.ne_sigma] using uncased (by decide +kernel)
    · constructor
      · exact caseless.alone d
      · rintro rfl
        simp [caseless.kept]
  · rw [if_neg caseless.ne_sigma, caseless.kept]

/-- **No caseless character comes or goes.** -/
theorem Caseless.mem_lower_iff {c : Char} (caseless : Caseless c) {cs : List Char} :
    c ∈ lower cs ↔ c ∈ cs := by
  suffices ∀ before, c ∈ lowerAfter before cs ↔ c ∈ cs from this []
  induction cs with
  | nil => simp [lowerAfter]
  | cons d cs ih =>
    intro before
    obtain ⟨ds, -, only, -, split⟩ := exists_lowerAfter_cons before d cs
    rw [split, List.mem_append, only c caseless, ih, List.mem_cons]

/-- **A text may be split first** and put in lower case then. -/
theorem Caseless.pieces_lower {c : Char} (caseless : Caseless c) (cs : List Char) :
    pieces c (lower cs) = (pieces c cs).map lower := by
  have absent : ∀ p ∈ (pieces c cs).map lower, c ∉ p := by
    intro p mem
    obtain ⟨q, piece, rfl⟩ := List.mem_map.mp mem
    rw [caseless.mem_lower_iff]
    exact notMem_of_mem_pieces piece
  -- the text is its pieces, joined, and each of them has its own lower case
  conv_lhs => rw [← intercalate_pieces c cs]
  rw [caseless.lower_intercalate, pieces_intercalate absent (by simp [pieces_ne_nil])]

/-- A text is as blank in lower case as it was. -/
theorem forall_isBlank_lower_iff {cs : List Char} :
    (∀ c ∈ lower cs, isBlank c = true) ↔ ∀ c ∈ cs, isBlank c = true := by
  suffices ∀ before, (∀ c ∈ lowerAfter before cs, isBlank c = true) ↔ ∀ c ∈ cs, isBlank c = true from
    this []
  induction cs with
  | nil => simp [lowerAfter]
  | cons d cs ih =>
    intro before
    obtain ⟨ds, nonempty, only, kept, split⟩ := exists_lowerAfter_cons before d cs
    have first : (∀ c ∈ ds, isBlank c = true) ↔ isBlank d = true := by
      constructor
      · intro all
        -- a blank has only itself as its lower case, so one blank shows where it came from
        obtain ⟨c, mem⟩ := List.exists_mem_of_ne_nil ds nonempty
        rw [← (only c (caseless_of_isBlank (all c mem))).mp mem]
        exact all c mem
      · intro blank
        simp [kept (caseless_of_isBlank blank), blank]
    rw [split, List.forall_mem_append, first, ih, List.forall_mem_cons]

/-! ## ASCII text -/

/-- Only the first range of a table says something about ASCII characters. -/
theorem mapCase_of_lt {many : List (Nat × List Nat)} {first : CaseRange} {rest : List CaseRange}
    (beyond : ∀ e ∈ many, 128 ≤ e.1) (later : ∀ r ∈ rest, 128 ≤ r.first) {c : Char}
    (ascii : c.toNat < 128) : mapCase many (first :: rest) c =
      if first.holds c.toNat then [Char.ofNat (c.toNat + first.shift).toNat] else [c] := by
  have alone : many.find? (fun e => e.1 == c.toNat) = none := by
    rw [List.find?_eq_none]
    intro e mem
    have := beyond e mem
    simp only [beq_iff_eq]
    omega
  have outside : rest.find? (fun r => r.holds c.toNat) = none := by
    rw [List.find?_eq_none]
    intro r mem
    have := later r mem
    simp only [CaseRange.holds, Bool.and_eq_true, decide_eq_true_eq]
    omega
  rw [mapCase, alone, List.find?_cons, outside]
  cases first.holds c.toNat <;> rfl

theorem isUpper_iff {c : Char} : c.isUpper = true ↔ 65 ≤ c.toNat ∧ c.toNat ≤ 90 := by
  rw [Char.isUpper, decide_eq_true_eq]
  exact Iff.rfl

theorem isLower_iff {c : Char} : c.isLower = true ↔ 97 ≤ c.toNat ∧ c.toNat ≤ 122 := by
  rw [Char.isLower, Bool.and_eq_true, decide_eq_true_eq, decide_eq_true_eq]
  exact Iff.rfl

theorem toNat_toLower (c : Char) :
    c.toLower.toNat = if 65 ≤ c.toNat ∧ c.toNat ≤ 90 then c.toNat + 32 else c.toNat := by
  split_ifs with capital
  · rw [Char.toLower_eq_of_isUpper (isUpper_iff.mpr capital), Char.toNat_ofNat,
      if_pos (.inl (by omega))]
  · rw [Char.toLower_eq_of_not_isUpper (mt isUpper_iff.mp capital)]

theorem toNat_toLower_lt_iff {c : Char} : c.toLower.toNat < 128 ↔ c.toNat < 128 := by
  rw [toNat_toLower]
  split_ifs <;> omega

theorem isBlank_toLower (c : Char) : isBlank c.toLower = isBlank c := by
  rw [Bool.eq_iff_iff]
  simp only [isBlank, isWhiteSpace, toNat_toLower, Bool.or_eq_true, Bool.and_eq_true,
    decide_eq_true_eq, beq_iff_eq]
  split_ifs <;> omega

theorem lowerChar_of_lt {c : Char} (ascii : c.toNat < 128) : lowerChar c = [c.toLower] := by
  rw [lowerChar, lowerRanges, mapCase_of_lt (by decide) (by decide +kernel) ascii]
  simp only [CaseRange.holds, Nat.mod_one, beq_self_eq_true, Bool.and_true, Bool.and_eq_true,
    decide_eq_true_eq, ← isUpper_iff]
  split_ifs with capital
  · rw [Char.toLower_eq_of_isUpper capital]
    rfl
  · rw [Char.toLower_eq_of_not_isUpper capital]

theorem upperChar_of_lt {c : Char} (ascii : c.toNat < 128) : upperChar c = [c.toUpper] := by
  rw [upperChar, upperRanges, mapCase_of_lt (by decide +kernel) (by decide +kernel) ascii]
  simp only [CaseRange.holds, Nat.mod_one, beq_self_eq_true, Bool.and_true, Bool.and_eq_true,
    decide_eq_true_eq, ← isLower_iff]
  split_ifs with small
  · rw [Char.toUpper_eq_of_isLower small]
    congr 2
    omega
  · rw [Char.toUpper_eq_of_not_isLower small]

/-- In an ASCII text lower case is that of its letters. -/
theorem lower_eq_map {cs : List Char} (ascii : ∀ c ∈ cs, c.toNat < 128) :
    lower cs = cs.map Char.toLower := by
  suffices ∀ before, lowerAfter before cs = cs.map Char.toLower from this []
  induction cs with
  | nil => exact fun _ => rfl
  | cons c cs ih =>
    obtain ⟨first, rest⟩ := List.forall_mem_cons.mp ascii
    have : c ≠ 'Σ' := by
      rintro rfl
      exact absurd first (by decide)
    intro before
    rw [lowerAfter, if_neg this, lowerChar_of_lt first, ih rest, List.singleton_append, List.map_cons]

theorem upper_eq_map {cs : List Char} (ascii : ∀ c ∈ cs, c.toNat < 128) :
    upper cs = cs.map Char.toUpper := by
  induction cs with
  | nil => rfl
  | cons c cs ih =>
    obtain ⟨first, rest⟩ := List.forall_mem_cons.mp ascii
    rw [upper, List.flatMap_cons, upperChar_of_lt first, ← upper, ih rest, List.singleton_append,
      List.map_cons]

end LoxValues.Text
