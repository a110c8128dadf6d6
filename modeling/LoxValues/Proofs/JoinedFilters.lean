import LoxValues.Log.Filter
import LoxValues.Proofs.LetterCase

/-!
# Joined log filters

Two log filters may be joined with a comma, as when a setting is extended by a further one.  What is
said about a module by the second text overrides what the first one says, and so does its level for
everything, if it has one.

Letter case and splitting do not go together by themselves: a text is put in lower case as a whole, and
a capital sigma looks at its surroundings.  That commas, equality signs and blanks have no part in it is
the matter of `LoxValues.Proofs.LetterCase`; here the parts of a text are read off its pieces
(`parts_eq`), and a filter is what its parts say one after the other (`get?_foldl_add`,
`level_foldl_add`).

## What is here

* `parts_append` — the parts of a joined text.
* `LogFilter.HasLevel` — a text that says something about everything.
* `LogFilter.parse_join` — **the filter of a joined text** is the first one overridden by the second,
  and texts without any part make no difference.
-/

set_option autoImplicit false
namespace LoxValues
namespace LogFilter

open Text

/-! ## Parts -/

/-- What counts of a piece of a text. -/
def clean (piece : List Char) : List Char := trim isBlank (lower piece)

theorem clean_eq_nil_iff {piece : List Char} : clean piece = [] ↔ trim isBlank piece = [] := by
  rw [clean, trim_eq_nil_iff, trim_eq_nil_iff, forall_isBlank_lower_iff]

theorem mem_clean_iff {c : Char} (caseless : Caseless c) (sharp : isBlank c = false)
    {piece : List Char} : c ∈ clean piece ↔ c ∈ piece := by
  rw [clean, mem_trim sharp, caseless.mem_lower_iff]

/-- **The parts of a text** come from its pieces, one by one. -/
theorem parts_eq (text : List Char) :
    parts text = ((pieces ',' text).map clean).filter fun part => !part.isEmpty := by
  rw [parts, caseless_comma.pieces_lower, List.map_map]
  rfl

theorem parts_append (s t : List Char) : parts (s ++ ',' :: t) = parts s ++ parts t := by
  simp only [parts_eq, pieces_append, List.map_append, List.filter_append]

theorem parts_eq_nil {text : List Char} (blank : ∀ p ∈ pieces ',' text, trim isBlank p = []) :
    parts text = [] := by
  rw [parts_eq, List.filter_eq_nil_iff]
  intro part mem
  obtain ⟨p, piece, rfl⟩ := List.mem_map.mp mem
  simp [clean_eq_nil_iff.mpr (blank p piece)]

/-! ## What one part does -/

theorem add_of_notMem (f : LogFilter) {part : List Char} (absent : '=' ∉ part) :
    f.add part = { f with level := String.ofList part } := by
  rw [add, cut?_of_notMem absent]

theorem add_append (f : LogFilter) {module : List Char} (absent : '=' ∉ module) (level : List Char) :
    f.add (module ++ '=' :: level) =
      { f with modules := f.modules.insert (String.ofList (trim isBlank module))
                            (rule (trim isBlank level)) } := by
  rw [add, cut?_append absent]

theorem level_add (f : LogFilter) (part : List Char) :
    (f.add part).level = if '=' ∈ part then f.level else String.ofList part := by
  split_ifs with mem
  · obtain ⟨module, level, rfl, absent⟩ := List.eq_append_cons_of_mem mem
    rw [add_append f absent]
  · rw [add_of_notMem f mem]

/-- A part overrides what has been said about its module, and nothing else. -/
theorem get?_add (f : LogFilter) (part : List Char) (name : String) :
    (f.add part).modules.get? name =
      ((default.add part).modules.get? name).or (f.modules.get? name) := by
  by_cases mem : '=' ∈ part
  · obtain ⟨module, level, rfl, absent⟩ := List.eq_append_cons_of_mem mem
    rw [add_append f absent, add_append default absent]
    simp only [Table.get?_insert]
    split_ifs
    · rw [Option.some_or]
    · rw [default, Table.get?_empty, Option.none_or]
  · rw [add_of_notMem f mem, add_of_notMem default mem, default, Table.get?_empty, Option.none_or]

/-! ## What many parts do -/

theorem get?_foldl_add (ps : List (List Char)) (f : LogFilter) (name : String) :
    (ps.foldl add f).modules.get? name =
      ((ps.foldl add default).modules.get? name).or (f.modules.get? name) := by
  induction ps generalizing f with
  | nil => rw [List.foldl_nil, List.foldl_nil, default, Table.get?_empty, Option.none_or]
  | cons p ps ih =>
    rw [List.foldl_cons, List.foldl_cons, ih (f.add p), ih (default.add p), get?_add f p,
      Option.or_assoc]

theorem level_foldl_add (ps : List (List Char)) (f : LogFilter) :
    (ps.foldl add f).level =
      if ∃ p ∈ ps, '=' ∉ p then (ps.foldl add default).level else f.level := by
  induction ps generalizing f with
  | nil => simp
  | cons p ps ih =>
    rw [List.foldl_cons, List.foldl_cons, ih (f.add p), ih (default.add p), level_add, level_add]
    -- a later level hides what this part says, and only without one it comes down to this part
    by_cases later : ∃ q ∈ ps, '=' ∉ q
    · have some : ∃ q ∈ p :: ps, '=' ∉ q := List.exists_mem_cons_of_exists later
      rw [if_pos later, if_pos later, if_pos some]
    · rw [if_neg later, if_neg later]
      by_cases mem : '=' ∈ p <;> simp [mem, later]

/-! ## Joining -/

/-- A text that has a part with a level for everything: something that is not blank, with no equality
sign. -/
def HasLevel (text : String) : Prop :=
  ∃ p ∈ pieces ',' text.toList, trim isBlank p ≠ [] ∧ '=' ∉ p

instance (text : String) : Decidable (HasLevel text) :=
  inferInstanceAs (Decidable (∃ p ∈ pieces ',' text.toList, trim isBlank p ≠ [] ∧ '=' ∉ p))

theorem exists_parts_iff {text : String} : (∃ p ∈ parts text.toList, '=' ∉ p) ↔ HasLevel text := by
  have sharp : isBlank '=' = false := by decide
  simp [parts_eq, HasLevel, clean_eq_nil_iff, mem_clean_iff caseless_equals sharp, and_assoc]

theorem parts_join (s t : String) :
    parts (s ++ "," ++ t).toList = parts s.toList ++ parts t.toList := by
  rw [← parts_append]
  simp

/-- **Joining two texts with a comma** overrides the filter of the first one with that of the second:
module by module, and in the level for everything if the second text has one.  A text that is blank
between its commas makes no difference, wherever it is joined. -/
theorem parse_join (s t : String) :
    (∀ name, (parse (s ++ "," ++ t)).modules.get? name =
      ((parse t).modules.get? name).or ((parse s).modules.get? name)) ∧
    (parse (s ++ "," ++ t)).level = (if HasLevel t then (parse t).level else (parse s).level) ∧
    ∀ blank : String, (∀ p ∈ pieces ',' blank.toList, trim isBlank p = []) →
      parse (blank ++ "," ++ s) = parse s ∧ parse (s ++ "," ++ blank) = parse s ∧
        parse (s ++ "," ++ blank ++ "," ++ t) = parse (s ++ "," ++ t) := by
  -- the second text goes on where the first one ends
  have parse_append : parse (s ++ "," ++ t) = (parts t.toList).foldl add (parse s) := by
    rw [parse, parts_join, List.foldl_append, ← parse]
  refine ⟨fun name => ?_, ?_, fun blank empty => ⟨?_, ?_, ?_⟩⟩
  · rw [parse_append, get?_foldl_add, ← parse]
  · rw [parse_append, level_foldl_add, ← parse]
    simp only [exists_parts_iff]
  · rw [parse, parts_join, parts_eq_nil empty, List.nil_append, parse]
  · rw [parse, parts_join, parts_eq_nil empty, List.append_nil, parse]
  · rw [parse, parts_join, parts_join, parts_eq_nil empty, List.append_nil, ← parts_join, parse]

end LogFilter
end LoxValues
