import LoxValues.Proofs.JoinedFilters

/-!
# Written log filters

A log filter may be written in many ways: in any letter case, with blanks around its words, with empty
parts, and with the level for everything at any place.  `Writes` says which texts write out a level and
a list of entries; `parse_written` reads them back.

## What is here

* `Word`, `Level`, `Entry` — what a filter is made of, with what makes it possible to tell the parts of
  a text apart.
* `Writes` — the pieces of a text that writes them out.
* `add_clean_append` — what a piece with an equality sign does, in any script.
* `foldl_add_of_writes` — the filter after the pieces of a text, whatever it was before.
* `parse_written` — **a written filter is read back**: the level in lower case, and for each module in
  lower case what its last entry says.
-/

set_option autoImplicit false
namespace LoxValues

open Text

/-- What is written last under a name is what a look-up finds. -/
theorem Table.get?_foldl_insert_last {α : Type} (entries : List (String × α)) (t : Table α)
    (name : String) :
    (entries.foldl (fun t e => t.insert e.1 e.2) t).get? name =
      ((entries.filter fun e => e.1 = name).getLast?.map Prod.snd).or (t.get? name) := by
  induction entries generalizing t with
  | nil => rfl
  | cons e rest ih =>
    rw [List.foldl_cons, ih, get?_insert, List.filter_cons]
    by_cases same : e.1 = name
    · simp only [same, decide_true, if_true, List.getLast?_cons]
      cases (rest.filter fun e => e.1 = name).getLast? <;> rfl
    · simp [same, Ne.symm same]

namespace LogFilter

/-! ## What is written -/

/-- A word of a log filter: in ASCII, without commas, and not blank at either end. -/
structure Word where
  /-- The word. -/
  text : String
  /-- It is in ASCII. -/
  ascii : ∀ c ∈ text.toList, c.toNat < 128
  /-- No comma divides it. -/
  undivided : ',' ∉ text.toList
  /-- Nothing is trimmed away. -/
  trimmed : trim isBlank text.toList = text.toList

/-- A level for everything: a word that is neither empty nor an entry. -/
structure Level extends Word where
  /-- There is something to read. -/
  some : text ≠ ""
  /-- It does not look like an entry. -/
  bare : '=' ∉ text.toList

/-- The word that silences a module. -/
def Word.silence : Word := ⟨"false", by simp, by decide, by decide⟩

/-- An entry for a module, which is to be silent if there is no level. -/
structure Entry where
  /-- The module. -/
  module : Word
  /-- The level, which may be empty or hold equality signs. -/
  level? : Option Word
  /-- The first equality sign of an entry is behind its module. -/
  bare : '=' ∉ module.text.toList
  /-- A level is not the word that silences. -/
  loud : ∀ level ∈ level?, level.text.toLower ≠ Word.silence.text

namespace Entry

/-- The name that an entry is looked up by. -/
def key (e : Entry) : String := e.module.text.toLower

/-- What an entry says about its module. -/
def rule (e : Entry) : Rule String :=
  match e.level? with
  | none => .silent
  | some level => .atLeast level.text.toUpper

/-- The word behind the equality sign. -/
def word (e : Entry) : Word := e.level?.getD .silence

end Entry

/-- A text that stands for a word: the word in any letter case, with blanks around it. -/
def Word.SpelledBy (w : Word) (text : String) : Prop :=
  ∃ left v right : String, (∀ c ∈ left.toList, isBlank c = true) ∧
    (∀ c ∈ right.toList, isBlank c = true) ∧ v.toLower = w.text.toLower ∧ text = left ++ v ++ right

/-- The pieces of a text that writes out the entries in their order, and the level for everything at one
place if there is one. -/
inductive Writes : Option Level → List Entry → List String → Prop
  /-- Nothing is written. -/
  | nil : Writes none [] []
  /-- An empty part. -/
  | blank {level? : Option Level} {es : List Entry} {p : String} {ps : List String}
      (all : ∀ c ∈ p.toList, isBlank c = true) (rest : Writes level? es ps) :
      Writes level? es (p :: ps)
  /-- An entry. -/
  | entry {level? : Option Level} {e : Entry} {es : List Entry} {m l : String} {ps : List String}
      (module : e.module.SpelledBy m) (level : e.word.SpelledBy l) (rest : Writes level? es ps) :
      Writes level? (e :: es) ((m ++ "=" ++ l) :: ps)
  /-- The level for everything. -/
  | level {l : Level} {es : List Entry} {p : String} {ps : List String}
      (spelled : l.SpelledBy p) (rest : Writes none es ps) : Writes (some l) es (p :: ps)

/-- The plain way to write an entry. -/
def Entry.plain (e : Entry) : String := e.module.text ++ "=" ++ e.word.text

theorem Word.spelledBy_text (w : Word) : w.SpelledBy w.text :=
  ⟨"", w.text, "", by simp, by simp, rfl, by simp⟩

/-- Every level and every list of entries can be written out. -/
theorem writes_plain (l : Level) (es : List Entry) :
    Writes (some l) es (l.text :: es.map Entry.plain) := by
  refine .level l.spelledBy_text ?_
  induction es with
  | nil => exact .nil
  | cons e es ih => exact .entry e.module.spelledBy_text e.word.spelledBy_text ih

/-! ## Reading a word -/

theorem clean_append {left right : List Char} (blank : ∀ c ∈ left, isBlank c = true)
    (blank' : ∀ c ∈ right, isBlank c = true) (cs : List Char) :
    clean (left ++ cs ++ right) = clean cs := by
  rw [clean, lower_append_right blank', lower_append_left blank, trim_append_right blank',
    trim_append_left blank, clean]

namespace Word

variable {w : Word} {text : String}

theorem lower_eq (w : Word) : lower w.text.toList = w.text.toLower.toList := by
  rw [lower_eq_map w.ascii, String.toLower, String.toList_map]

theorem trim_lower (w : Word) : trim isBlank (lower w.text.toList) = lower w.text.toList := by
  rw [lower_eq_map w.ascii, trim_map isBlank_toLower, w.trimmed]

theorem upper_lower (w : Word) : String.ofList (upper (lower w.text.toList)) = w.text.toUpper := by
  have ascii : ∀ c ∈ w.text.toList.map Char.toLower, c.toNat < 128 := by
    simpa [toNat_toLower_lt_iff] using w.ascii
  have same : Char.toUpper ∘ Char.toLower = Char.toUpper :=
    funext Char.toUpper_toLower_eq_toUpper
  rw [lower_eq_map w.ascii, upper_eq_map ascii, List.map_map, same, String.toUpper,
    ← String.toList_map, String.ofList_toList]

/-- What counts of a text that stands for a word is the word in lower case. -/
theorem SpelledBy.clean_eq (spelled : w.SpelledBy text) : clean text.toList = lower w.text.toList := by
  obtain ⟨left, v, right, blank, blank', same, rfl⟩ := spelled
  rw [← String.toList_inj, String.toLower, String.toLower, String.toList_map,
    String.toList_map] at same
  -- no other character has an ASCII one as its lower case here, so the spelling is in ASCII, too
  have ascii : ∀ c ∈ v.toList, c.toNat < 128 := by
    intro c mem
    have mapped : c.toLower ∈ w.text.toList.map Char.toLower := same ▸ List.mem_map_of_mem mem
    obtain ⟨d, inside, eq⟩ := List.mem_map.mp mapped
    rw [← toNat_toLower_lt_iff, ← eq, toNat_toLower_lt_iff]
    exact w.ascii d inside
  rw [String.toList_append, String.toList_append, clean_append blank blank', clean,
    lower_eq_map ascii, same, ← lower_eq_map w.ascii, w.trim_lower]

/-- A separator stands in such a text only if it stands in the word. -/
theorem SpelledBy.mem_iff (spelled : w.SpelledBy text) {c : Char} (caseless : Caseless c)
    (sharp : isBlank c = false) : c ∈ text.toList ↔ c ∈ w.text.toList := by
  rw [← mem_clean_iff caseless sharp, spelled.clean_eq, caseless.mem_lower_iff]

end Word

theorem Entry.rule_word (e : Entry) : LogFilter.rule (lower e.word.text.toList) = e.rule := by
  have loud := e.loud
  rw [Entry.rule, Entry.word]
  revert loud
  cases e.level? with
  | none => exact fun _ => by decide +kernel
  | some level =>
    intro loud
    have not : lower level.text.toList ≠ ['f', 'a', 'l', 's', 'e'] := by
      rw [level.lower_eq]
      exact fun eq => loud level rfl (String.toList_inj.mp eq)
    rw [Option.getD_some, LogFilter.rule, if_neg not, level.upper_lower]

/-! ## Reading a piece -/

/-- **A piece with an equality sign** says about the module before the first one what stands behind it. -/
theorem add_clean_append (f : LogFilter) {module : List Char} (absent : '=' ∉ module)
    (level : List Char) :
    f.add (clean (module ++ '=' :: level)) =
      { f with modules := f.modules.insert (String.ofList (clean module)) (rule (clean level)) } := by
  have sharp : isBlank '=' = false := by decide
  have before : '=' ∉ (lower module).dropWhile isBlank := fun mem =>
    absent (caseless_equals.mem_lower_iff.mp ((List.dropWhile_sublist _).mem mem))
  rw [clean, caseless_equals.lower_append_cons, trim_append_cons sharp, add_append f before,
    trim_dropWhile, trim_trimEnd, clean, clean]

theorem Writes.notMem_comma {level? : Option Level} {es : List Entry} {ps : List String}
    (written : Writes level? es ps) : ∀ p ∈ ps, ',' ∉ p.toList := by
  have sharp : isBlank ',' = false := by decide
  induction written with
  | nil => simp
  | @blank _ _ p _ all _ ih =>
    have first : ',' ∉ p.toList := fun mem => by
      rw [all _ mem] at sharp
      cases sharp
    exact List.forall_mem_cons.mpr ⟨first, ih⟩
  | @entry _ e _ m l _ module level _ ih =>
    have first : ',' ∉ (m ++ "=" ++ l).toList := by
      simp [module.mem_iff caseless_comma sharp, level.mem_iff caseless_comma sharp,
        e.module.undivided, e.word.undivided]
    exact List.forall_mem_cons.mpr ⟨first, ih⟩
  | @level l _ _ _ spelled _ ih =>
    refine List.forall_mem_cons.mpr ⟨?_, ih⟩
    rw [spelled.mem_iff caseless_comma sharp]
    exact l.undivided

/-! ## Reading a text -/

/-- The filter after the pieces of a text, one piece after the other. -/
theorem foldl_add_of_writes {level? : Option Level} {es : List Entry} {ps : List String}
    (written : Writes level? es ps) (f : LogFilter) :
    ((ps.map fun p => clean p.toList).filter fun part => !part.isEmpty).foldl add f =
      ⟨level?.elim f.level fun l => l.text.toLower,
        (es.map fun e => (e.key, e.rule)).foldl (fun t e => t.insert e.1 e.2) f.modules⟩ := by
  induction written generalizing f with
  | nil => rfl
  | @blank _ _ p _ all _ ih =>
    have nothing : clean p.toList = [] := clean_eq_nil_iff.mpr (trim_eq_nil_iff.mpr all)
    rw [List.map_cons, nothing, List.filter_cons_of_neg (by simp), ih]
  | @entry _ e _ m l _ module level _ ih =>
    -- the module holds no equality sign, so the piece is cut where it was put together
    have text : (m ++ "=" ++ l).toList = m.toList ++ '=' :: l.toList := by simp
    have sharp : isBlank '=' = false := by decide
    have absent : '=' ∉ m.toList := by
      rw [module.mem_iff caseless_equals sharp]
      exact e.bare
    have some : clean (m.toList ++ '=' :: l.toList) ≠ [] := List.ne_nil_of_mem
      ((mem_clean_iff caseless_equals sharp).mpr (by simp))
    rw [List.map_cons, text, List.filter_cons_of_pos (by simpa using some), List.foldl_cons,
      add_clean_append f absent, ih, module.clean_eq, level.clean_eq, e.rule_word, e.module.lower_eq,
      String.ofList_toList]
    rfl
  | @level l _ p _ spelled _ ih =>
    have absent : '=' ∉ clean p.toList := by
      rw [spelled.clean_eq, caseless_equals.mem_lower_iff]
      exact l.bare
    have some : clean p.toList ≠ [] := by
      rw [spelled.clean_eq, l.lower_eq]
      simpa [String.toLower, String.toList_map] using l.some
    rw [List.map_cons, List.filter_cons_of_pos (by simpa using some), List.foldl_cons,
      add_of_notMem f absent, ih, spelled.clean_eq, l.lower_eq, String.ofList_toList]
    rfl

/-- **A written filter is read back.**  Where a text writes out a level and some entries, its pieces
joined with commas, it has the level in lower case, and for each module in lower case what the last of
its entries says. -/
theorem parse_written {l : Level} {es : List Entry} {ps : List String}
    (written : Writes (some l) es ps) :
    (parse (",".intercalate ps)).level = l.text.toLower ∧
    ∀ name, (parse (",".intercalate ps)).modules.get? name =
      (es.filter fun e => e.key = name).getLast?.map Entry.rule := by
  have split : pieces ',' (",".intercalate ps).toList = ps.map String.toList := by
    have absent : ∀ p ∈ ps.map String.toList, ',' ∉ p := by
      simpa using written.notMem_comma
    have some : ps.map String.toList ≠ [] := by
      cases written <;> simp
    rw [String.toList_intercalate]
    exact pieces_intercalate absent some
  have read : parse (",".intercalate ps) =
      ⟨l.text.toLower, (es.map fun e => (e.key, e.rule)).foldl (fun t e => t.insert e.1 e.2) .empty⟩ := by
    rw [parse, parts_eq, split, List.map_map]
    exact foldl_add_of_writes written default
  refine ⟨by rw [read], fun name => ?_⟩
  rw [read, Table.get?_foldl_insert_last, Table.get?_empty, Option.or_none, List.filter_map,
    List.getLast?_map, Option.map_map]
  rfl

/-- An ordinary level for everything. -/
def Level.info : Level := ⟨⟨"info", by simp, by decide, by decide⟩, by decide, by decide⟩

/-- An ordinary entry. -/
def Entry.debug : Entry :=
  ⟨⟨"loxrt.eval", by simp, by decide, by decide⟩, some ⟨"debug", by simp, by decide, by decide⟩,
    by decide, by rintro _ ⟨⟩; exact of_decide_eq_false (by cbv)⟩

/-- An entry that silences a module. -/
def Entry.silent : Entry :=
  ⟨⟨"loxrt.config", by simp, by decide, by decide⟩, none, by decide, by simp⟩

/-- An entry for the same module as the ordinary one, with an equality sign in its level. -/
def Entry.odd : Entry :=
  ⟨⟨"Loxrt.Eval", by simp, by decide, by decide⟩, some ⟨"A=b", by simp, by decide, by decide⟩,
    by decide, by rintro _ ⟨⟩; exact of_decide_eq_false (by cbv)⟩

theorem parse_written_mixed :
    Writes (some .info) [.debug, .silent, .odd]
      ["LoxRT.eval " ++ "=" ++ " Debug", " ", "loxrt.config" ++ "=" ++ "FaLsE ", "\tinFO",
        "loxrt.EVAL" ++ "=" ++ "a=b"] ∧
    (parse "LoxRT.eval = Debug, ,loxrt.config=FaLsE ,\tinFO,loxrt.EVAL=a=b").level = "info" ∧
    (parse "LoxRT.eval = Debug, ,loxrt.config=FaLsE ,\tinFO,loxrt.EVAL=a=b").modules.get? "loxrt.eval" =
      some (.atLeast "A=B") ∧
    (parse "LoxRT.eval = Debug, ,loxrt.config=FaLsE ,\tinFO,loxrt.EVAL=a=b").modules.get?
      "loxrt.config" = some .silent := by
  have nothing : ∀ c ∈ "".toList, isBlank c = true := by simp
  have space : ∀ c ∈ " ".toList, isBlank c = true := by simp [isBlank, isWhiteSpace]
  have tab : ∀ c ∈ "\t".toList, isBlank c = true := by simp [isBlank, isWhiteSpace]
  have debug : Entry.debug.module.SpelledBy "LoxRT.eval " ∧ Entry.debug.word.SpelledBy " Debug" :=
    ⟨⟨"", "LoxRT.eval", " ", nothing, space, by cbv, by decide⟩,
      ⟨" ", "Debug", "", space, nothing, by cbv, by decide⟩⟩
  have silent : Entry.silent.module.SpelledBy "loxrt.config" ∧ Entry.silent.word.SpelledBy "FaLsE " :=
    ⟨⟨"", "loxrt.config", "", nothing, nothing, by cbv, by decide⟩,
      ⟨"", "FaLsE", " ", nothing, space, by cbv, by decide⟩⟩
  have info : Level.info.SpelledBy "\tinFO" :=
    ⟨"\t", "inFO", "", tab, nothing, by cbv, by decide⟩
  have odd : Entry.odd.module.SpelledBy "loxrt.EVAL" ∧ Entry.odd.word.SpelledBy "a=b" :=
    ⟨⟨"", "loxrt.EVAL", "", nothing, nothing, by cbv, by decide⟩,
      ⟨"", "a=b", "", nothing, nothing, by cbv, by decide⟩⟩
  have written := Writes.entry debug.1 debug.2 <| .blank space <| .entry silent.1 silent.2 <|
    .level info <| .entry odd.1 odd.2 .nil
  obtain ⟨level, modules⟩ := parse_written written
  have text : ",".intercalate ["LoxRT.eval " ++ "=" ++ " Debug", " ",
      "loxrt.config" ++ "=" ++ "FaLsE ", "\tinFO", "loxrt.EVAL" ++ "=" ++ "a=b"] =
      "LoxRT.eval = Debug, ,loxrt.config=FaLsE ,\tinFO,loxrt.EVAL=a=b" := by decide
  rw [text] at level modules
  exact ⟨written, level.trans (by cbv), (modules _).trans (by cbv), (modules _).trans (by cbv)⟩

end LogFilter
end LoxValues
