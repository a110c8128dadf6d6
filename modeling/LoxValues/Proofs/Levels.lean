import LoxValues.Proofs.Configuring
import Mathlib.Data.List.Forall2
import Mathlib.Data.List.Infix

/-!
# Levels of modules

A log filter names a level for everything and levels for single modules.  What it *asks for* is that
a record is written if it is as grave as the most specific entry for its module says, or as the level
for everything says where no entry speaks for the module (`LogFilter.Wants`).

What happens is less than that.  The level for everything becomes the threshold of the sink and is
asked first, for records from every module, so an entry can hold records back but not let more
through: a record is written if the filter wants it *and* it is at least as grave as the level for
everything (`World.writes_iff_wants`).  A filter such as `warning,loxrt.eval=debug` therefore asks for
records for debugging that nobody gets to see.

## What is here

* `Covers` — the names that speak for a module: its own, the dotted names it lies under, and the
  empty name, which speaks for every module.  Names are told apart by case, and those of a filter are
  in lower case.
* `MostSpecific` — the entry of the longest of these names.  It is the one that `ruleFor?` finds
  (`ruleFor?_eq_some_iff`).
* `LogFilter.LevelsKnown` — every level in a filter is one of the known ones, which is what it takes
  for a filter to describe a sink (`Sink.exists_ofFilter_iff`).
-/

set_option autoImplicit false
namespace LoxValues

/-! ## Names that speak for a module -/

/-- Does a name speak for a module? -/
def Covers (name module : String) : Prop :=
  name = module ∨ name = "" ∨ name.toList ++ ['.'] <+: module.toList

theorem mem_enclosing_iff {p cs : List Char} : p ∈ enclosing cs ↔ p ++ ['.'] <+: cs := by
  induction cs generalizing p with
  | nil => simp [enclosing]
  | cons c rest ih =>
    rw [enclosing, List.mem_append]
    cases p with
    | nil =>
      by_cases dot : c = '.'
      · simp [dot]
      · simp [dot, Ne.symm dot]
    | cons d q =>
      have last : ¬ d :: q ∈ if c = '.' then [[]] else [] := by
        split <;> simp
      simp [last, ih, and_comm, eq_comm]

theorem mem_covering_iff {name module : String} : name ∈ covering module ↔ Covers name module := by
  have above : (∃ p ∈ enclosing module.toList, String.ofList p = name) ↔
      name.toList ++ ['.'] <+: module.toList := by
    simp only [mem_enclosing_iff]
    constructor
    · rintro ⟨p, within, rfl⟩
      rwa [String.toList_ofList]
    · exact fun within => ⟨_, within, String.ofList_toList⟩
  rw [covering, List.mem_append, List.mem_cons, List.mem_map, above, List.mem_singleton, Covers]
  tauto

theorem Covers.isPrefix {name module : String} (covers : Covers name module) :
    name.toList <+: module.toList := by
  rcases covers with rfl | rfl | within
  · exact List.prefix_refl _
  · exact List.nil_prefix
  · exact (List.prefix_append _ _).trans within

/-- Two names of the same length that speak for a module are the same. -/
theorem Covers.eq_of_length {name other module : String} (covers : Covers name module)
    (also : Covers other module) (same : name.length = other.length) : name = other := by
  have len : name.toList.length = other.toList.length := by
    rwa [String.length_toList, String.length_toList]
  have one : name.toList <+: other.toList :=
    List.prefix_of_prefix_length_le covers.isPrefix also.isPrefix (Nat.le_of_eq len)
  exact String.toList_injective (one.eq_of_length len)

theorem pairwise_enclosing (cs : List Char) :
    (enclosing cs).Pairwise fun p q => q.length ≤ p.length := by
  induction cs with
  | nil => exact .nil
  | cons c rest ih =>
    rw [enclosing, List.pairwise_append]
    refine ⟨?_, ?_, ?_⟩
    · rw [List.pairwise_map]
      exact ih.imp fun le => Nat.succ_le_succ le
    · split
      · exact List.pairwise_singleton _ _
      · exact .nil
    · intro p _ q hq
      split at hq
      · rw [List.mem_singleton.mp hq]
        exact Nat.zero_le _
      · cases hq

/-- The names that speak for a module are listed longest first. -/
theorem pairwise_covering (module : String) :
    (covering module).Pairwise fun name other => other.length ≤ name.length := by
  have shorter : ∀ name ∈ covering module, name.length ≤ module.length := by
    intro name mem
    have le := (mem_covering_iff.mp mem).isPrefix.length_le
    rwa [String.length_toList, String.length_toList] at le
  rw [covering, List.cons_append, List.pairwise_cons]
  refine ⟨fun name mem => shorter name (List.mem_cons_of_mem _ mem), ?_⟩
  rw [List.pairwise_append, List.pairwise_map]
  refine ⟨?_, List.pairwise_singleton _ _, ?_⟩
  · simpa using pairwise_enclosing module.toList
  · intro name _ other mem
    rw [List.mem_singleton.mp mem]
    exact Nat.zero_le _

/-! ## The most specific entry -/

section MostSpecific

variable {α : Type}

/-- An entry for a name that speaks for a module, where no longer such name has an entry. -/
structure MostSpecific (rules : Table (Rule α)) (module name : String) (rule : Rule α) : Prop where
  /-- The name speaks for the module. -/
  covers : Covers name module
  /-- The entry says so. -/
  entry : rules.get? name = some rule
  /-- No longer name that speaks for the module has an entry. -/
  longest : ∀ other r, Covers other module → rules.get? other = some r → other.length ≤ name.length

variable {rules : Table (Rule α)} {module : String}

theorem mostSpecific_of_ruleFor? {rule : Rule α} (found : ruleFor? rules module = some rule) :
    ∃ name, MostSpecific rules module name rule := by
  obtain ⟨before, name, after, split, entry, silent⟩ := List.findSome?_eq_some_iff.mp found
  have sorted := pairwise_covering module
  rw [split, List.pairwise_append, List.pairwise_cons] at sorted
  refine ⟨name, ?_, entry, fun other r covers has => ?_⟩
  · rw [← mem_covering_iff, split]
    exact List.mem_append_right _ List.mem_cons_self
  · rw [← mem_covering_iff, split, List.mem_append, List.mem_cons] at covers
    rcases covers with longer | rfl | shorter
    · rw [silent other longer] at has
      cases has
    · exact Nat.le_refl _
    · exact sorted.2.1.1 other shorter

theorem MostSpecific.unique {name other : String} {rule r : Rule α}
    (m : MostSpecific rules module name rule) (m' : MostSpecific rules module other r) :
    name = other ∧ rule = r := by
  have same : name.length = other.length :=
    Nat.le_antisymm (m'.longest _ _ m.covers m.entry) (m.longest _ _ m'.covers m'.entry)
  obtain rfl := m.covers.eq_of_length m'.covers same
  exact ⟨rfl, Option.some.inj (m.entry.symm.trans m'.entry)⟩

theorem ruleFor?_eq_none_iff :
    ruleFor? rules module = none ↔ ∀ name, Covers name module → rules.get? name = none := by
  simp only [ruleFor?, List.findSome?_eq_none_iff, mem_covering_iff]

/-- **What the rules say about a module is what its most specific entry says.** -/
theorem ruleFor?_eq_some_iff {rule : Rule α} :
    ruleFor? rules module = some rule ↔ ∃ name, MostSpecific rules module name rule := by
  refine ⟨mostSpecific_of_ruleFor?, fun ⟨name, m⟩ => ?_⟩
  cases found : ruleFor? rules module with
  | none =>
    have silent := ruleFor?_eq_none_iff.mp found name m.covers
    rw [m.entry] at silent
    cases silent
  | some r =>
    obtain ⟨other, m'⟩ := mostSpecific_of_ruleFor? found
    rw [(m.unique m').2]

end MostSpecific

/-! ## Levels by name and by number -/

/-- A rule with its level's number for the name, if the name is known. -/
def Rule.numbered? : Rule String → Option (Rule Int)
  | .silent => some .silent
  | .atLeast level => (Severity.named? level).map fun s => .atLeast s.number

/-- Does a rule let records of this severity through? -/
def Rule.Admits (rule : Rule String) (severity : Severity) : Prop :=
  ∃ level s, rule = .atLeast level ∧ Severity.named? level = some s ∧ s.number ≤ severity.number

/-- What a filter says about everything. -/
def LogFilter.everything (f : LogFilter) : Rule String :=
  .atLeast (String.ofList (Text.upper f.level.toList))

/-- Every level in the filter is known. -/
structure LogFilter.LevelsKnown (f : LogFilter) : Prop where
  /-- The level for everything is. -/
  everything : ∃ rule, f.everything.numbered? = some rule
  /-- The levels of modules are. -/
  modules : ∀ name rule, f.modules.get? name = some rule → ∃ r, rule.numbered? = some r

/-- The filter that settings describe. -/
def Settings.filter (s : Settings) : LogFilter := .parse s.logFilter

/-- A record that the filter asks for: it is as grave as the most specific entry for its module says,
or as the level for everything says where there is no entry. -/
def LogFilter.Wants (f : LogFilter) (r : Record) : Prop :=
  (∃ name rule, MostSpecific f.modules r.module name rule ∧ rule.Admits r.severity) ∨
  ((∀ name, Covers name r.module → f.modules.get? name = none) ∧ f.everything.Admits r.severity)

/-! ## The sink of a filter -/

theorem Table.get?_foldl_insert {α : Type} {entries : List (String × α)}
    (distinct : (names entries).Nodup) (t : Table α) (name : String) :
    (entries.foldl (fun t e => t.insert e.1 e.2) t).get? name =
      (find? name entries).or (t.get? name) := by
  induction entries generalizing t with
  | nil => rfl
  | cons e rest ih =>
    obtain ⟨other, x⟩ := e
    rw [names, List.map_cons, List.nodup_cons] at distinct
    rw [List.foldl_cons, ih distinct.2, get?_insert, find?]
    by_cases same : other = name
    · subst same
      have new : find? other rest = none := by
        cases found : find? other rest with
        | none => rfl
        | some y => exact absurd (List.mem_map_of_mem (mem_of_find? found)) distinct.1
      simp [new]
    · simp [same, Ne.symm same]

theorem Table.get?_ofList {α : Type} {entries : List (String × α)}
    (distinct : (names entries).Nodup) (name : String) :
    (ofList entries).get? name = find? name entries := by
  rw [ofList, get?_foldl_insert distinct, get?_empty, Option.or_none]

namespace Sink

/-- An entry with its level by name, and the same with the level by number. -/
def SameEntry (e : String × Rule String) (e' : String × Rule Int) : Prop :=
  e.1 = e'.1 ∧ e.2.numbered? = some e'.2

theorem numbered_cons {rule : Rule String} {r : Rule Int} (known : rule.numbered? = some r)
    (module : String) (rest : List (String × Rule String)) :
    numbered ((module, rule) :: rest) = (numbered rest).map fun rules => (module, r) :: rules := by
  cases rule with
  | silent =>
    cases known
    rfl
  | atLeast level =>
    obtain ⟨s, named, rfl⟩ := Option.map_eq_some_iff.mp known
    rw [numbered, named]

theorem numbered_cons_of_unknown {rule : Rule String} (unknown : rule.numbered? = none)
    (module : String) (rest : List (String × Rule String)) :
    ∃ fault, numbered ((module, rule) :: rest) = .error fault := by
  cases rule with
  | silent => cases unknown
  | atLeast level =>
    have unnamed : Severity.named? level = none := Option.map_eq_none_iff.mp unknown
    exact ⟨_, by rw [numbered, unnamed]⟩

/-- Entries have levels by number if and only if each of them has. -/
theorem numbered_eq_ok_iff {entries : List (String × Rule String)} {rules : List (String × Rule Int)} :
    numbered entries = .ok rules ↔ List.Forall₂ SameEntry entries rules := by
  induction entries generalizing rules with
  | nil =>
    rw [numbered, Except.ok.injEq, List.forall₂_nil_left_iff, eq_comm]
  | cons e rest ih =>
    obtain ⟨module, rule⟩ := e
    cases known : rule.numbered? with
    | none =>
      obtain ⟨fault, failed⟩ := numbered_cons_of_unknown known module rest
      rw [failed]
      refine iff_of_false nofun ?_
      rintro (_ | ⟨⟨-, same⟩, -⟩)
      rw [known] at same
      cases same
    | some r =>
      rw [numbered_cons known]
      constructor
      · intro made
        cases others : numbered rest with
        | error fault =>
          rw [others] at made
          cases made
        | ok rules' =>
          rw [others] at made
          cases made
          exact .cons ⟨rfl, known⟩ (ih.mp others)
      · rintro (_ | ⟨⟨rfl, same⟩, rest'⟩)
        rw [ih.mpr rest']
        obtain rfl := Option.some.inj (known.symm.trans same)
        rfl

theorem names_of_sameEntry {entries : List (String × Rule String)}
    {rules : List (String × Rule Int)} (same : List.Forall₂ SameEntry entries rules) :
    names rules = names entries := by
  induction same with
  | nil => rfl
  | cons head _ ih => rw [names, names, List.map_cons, List.map_cons, ← head.1]; exact congrArg _ ih

theorem find?_of_sameEntry {entries : List (String × Rule String)}
    {rules : List (String × Rule Int)} (same : List.Forall₂ SameEntry entries rules) (name : String) :
    Table.find? name rules = (Table.find? name entries).bind Rule.numbered? := by
  induction same with
  | nil => rfl
  | @cons e e' _ _ head _ ih =>
    rw [Table.find?, Table.find?, ← head.1, ih]
    split
    · exact head.2.symm
    · rfl

theorem exists_sameEntry_iff {entries : List (String × Rule String)} :
    (∃ rules, List.Forall₂ SameEntry entries rules) ↔
      ∀ e ∈ entries, ∃ r, e.2.numbered? = some r := by
  induction entries with
  | nil => exact iff_of_true ⟨[], .nil⟩ (by simp)
  | cons e rest ih =>
    rw [List.forall_mem_cons, ← ih]
    constructor
    · rintro ⟨_, _ | ⟨head, tail⟩⟩
      exact ⟨⟨_, head.2⟩, _, tail⟩
    · rintro ⟨⟨r, known⟩, rules, same⟩
      exact ⟨(e.1, r) :: rules, .cons ⟨rfl, known⟩ same⟩

/-- A filter describes a sink if and only if all its levels are known. -/
theorem exists_ofFilter_iff {profile : Profile} {f : LogFilter} :
    (∃ s, ofFilter profile f = .ok s) ↔ f.LevelsKnown := by
  have modules : (∃ rules, numbered f.modules.entries = .ok rules) ↔
      ∀ name rule, f.modules.get? name = some rule → ∃ r, rule.numbered? = some r := by
    simp only [numbered_eq_ok_iff, exists_sameEntry_iff, Prod.forall, Table.mem_entries_iff]
  rw [ofFilter]
  cases rules : numbered f.modules.entries with
  | error fault =>
    refine iff_of_false nofun fun known => ?_
    obtain ⟨rules', ok⟩ := modules.mpr known.modules
    rw [rules] at ok
    cases ok
  | ok rules' =>
    dsimp only
    cases named : Severity.named? (String.ofList (Text.upper f.level.toList)) with
    | none =>
      refine iff_of_false nofun fun known => ?_
      obtain ⟨rule, everything⟩ := known.everything
      rw [LogFilter.everything, Rule.numbered?, named] at everything
      cases everything
    | some t =>
      refine iff_of_true ⟨_, rfl⟩ ⟨⟨.atLeast t.number, ?_⟩, modules.mp ⟨_, rules⟩⟩
      rw [LogFilter.everything, Rule.numbered?, named, Option.map_some]

/-- **The sink of a filter**: its threshold is the level for everything, and under each name it has
the rule of the filter. -/
theorem ofFilter_eq_ok {profile : Profile} {f : LogFilter} {s : Sink}
    (made : ofFilter profile f = .ok s) :
    f.everything.numbered? = some (.atLeast s.threshold) ∧
    ∀ name, s.rules.get? name = (f.modules.get? name).bind Rule.numbered? := by
  rw [ofFilter] at made
  split at made
  · cases made
  · next rules numbered =>
    have same := numbered_eq_ok_iff.mp numbered
    have distinct : (names rules).Nodup := by
      rw [names_of_sameEntry same]
      exact f.modules.distinct
    dsimp only at made
    split at made
    · cases made
    · next t named =>
      cases made
      refine ⟨by rw [LogFilter.everything, Rule.numbered?, named, Option.map_some], fun name => ?_⟩
      rw [Table.get?_ofList distinct, find?_of_sameEntry same, Table.get?]

end Sink

/-! ## What is written -/

theorem Rule.admits_iff {rule : Rule String} {severity : Severity} :
    rule.Admits severity ↔ ∃ n, rule.numbered? = some (.atLeast n) ∧ n ≤ severity.number := by
  cases rule with
  | silent => simp [Admits, numbered?]
  | atLeast level => simp [Admits, numbered?]

/-- A rule that lets a record through lets graver ones through. -/
theorem Rule.Admits.mono {rule : Rule String} {severity graver : Severity}
    (admits : rule.Admits severity) (le : severity.number ≤ graver.number) : rule.Admits graver := by
  obtain ⟨level, s, same, named, reached⟩ := admits
  exact ⟨level, s, same, named, Int.le_trans reached le⟩

/-- What the rules by number say about a module is what the rules by name say, by number. -/
theorem Sink.ruleFor?_rules {f : LogFilter} {s : Sink} (known : f.LevelsKnown)
    (same : ∀ name, s.rules.get? name = (f.modules.get? name).bind Rule.numbered?) (module : String) :
    ruleFor? s.rules module = (ruleFor? f.modules module).bind Rule.numbered? := by
  rw [ruleFor?, ruleFor?]
  induction covering module with
  | nil => rfl
  | cons name names ih =>
    rw [List.findSome?_cons, List.findSome?_cons, same, ih]
    cases entry : f.modules.get? name with
    | none => rfl
    | some rule =>
      obtain ⟨r, numbered⟩ := known.modules name rule entry
      simp only [Option.bind_some, numbered]

/-- What a filter wants, by the rule that it has for the module. -/
theorem LogFilter.wants_iff {f : LogFilter} {r : Record} :
    f.Wants r ↔ ((ruleFor? f.modules r.module).getD f.everything).Admits r.severity := by
  rw [Wants, ← ruleFor?_eq_none_iff]
  cases found : ruleFor? f.modules r.module with
  | none =>
    have no : ∀ name rule, ¬ MostSpecific f.modules r.module name rule := by
      intro name rule m
      rw [ruleFor?_eq_some_iff.mpr ⟨name, m⟩] at found
      cases found
    simp [no]
  | some rule =>
    constructor
    · rintro (⟨name, rule', m, admits⟩ | ⟨none, -⟩)
      · obtain rfl : rule = rule' :=
          Option.some.inj (found.symm.trans (ruleFor?_eq_some_iff.mpr ⟨name, m⟩))
        exact admits
      · cases none
    · intro admits
      obtain ⟨name, m⟩ := ruleFor?_eq_some_iff.mp found
      exact .inl ⟨name, rule, m, admits⟩

/-- Everything that a module's most specific entry lets through is as grave as the level for everything
asks for if the entry's own level is. -/
theorem LogFilter.forall_wants_iff {f : LogFilter} {module : String} :
    (∀ r : Record, r.module = module → f.Wants r → f.everything.Admits r.severity) ↔
      ∀ name level s, MostSpecific f.modules module name (.atLeast level) →
        Severity.named? level = some s → f.everything.Admits s := by
  constructor
  · intro agree name level s m named
    -- a record exactly as grave as the entry asks for is wanted
    exact agree ⟨s, module, ""⟩ rfl (.inl ⟨name, _, m, level, s, rfl, named, Int.le_refl _⟩)
  · rintro lower r rfl (⟨name, rule, m, level, s, rfl, named, le⟩ | ⟨-, admits⟩)
    · exact (lower name level s m named).mono le
    · exact admits

/-- The threshold of a filter's sink is the level for everything. -/
theorem Sink.hears_iff {profile : Profile} {f : LogFilter} {s : Sink}
    (made : ofFilter profile f = .ok s) {severity : Severity} :
    s.hears severity = true ↔ f.everything.Admits severity := by
  rw [hears, decide_eq_true_eq, Rule.admits_iff, (ofFilter_eq_ok made).1]
  simp

/-- **A sink accepts a record if its filter wants it and it is as grave as the filter says about
everything.** -/
theorem Sink.accepts_iff {profile : Profile} {f : LogFilter} {s : Sink}
    (made : ofFilter profile f = .ok s) {r : Record} :
    s.accepts r = true ↔ f.Wants r ∧ f.everything.Admits r.severity := by
  have known : f.LevelsKnown := exists_ofFilter_iff.mp ⟨s, made⟩
  rw [LogFilter.wants_iff, accepts, ruleFor?_rules known (ofFilter_eq_ok made).2, Bool.and_eq_true,
    hears_iff made, and_comm]
  refine and_congr_left fun reached => ?_
  cases found : ruleFor? f.modules r.module with
  | none => simp [reached]
  | some rule =>
    obtain ⟨name, m⟩ := ruleFor?_eq_some_iff.mp found
    obtain ⟨r', numbered⟩ := known.modules name rule m.entry
    cases r' <;> simp [Rule.admits_iff, numbered]

/-- The log writes a record that it is offered. -/
def Log.Writes (l : Log) (r : Record) : Prop := (l.offer r).written ≠ l.written

theorem Log.writes_iff_of_single {l : Log} {s : Sink} (single : l.sinks = [s]) (r : Record) :
    l.Writes r ↔ s.accepts r = true := by
  rw [Writes, offer, single]
  cases accepted : s.accepts r <;> simp [accepted]

/-- A record that nobody hears leaves no trace when it is offered. -/
theorem Log.offer_of_not_hears {l : Log} (enabled : l.enabled = true) {r : Record}
    (unheard : l.hears r.severity = false) : l.offer r = l := by
  have refused : l.sinks.filter (fun s => s.accepts r) = [] := by
    rw [hears, enabled, Bool.true_and, List.any_eq_false] at unheard
    refine List.filter_eq_nil_iff.mpr fun s mem accepted => unheard s mem ?_
    exact (Bool.and_eq_true_iff.mp accepted).1
  rw [offer, refused, List.map_nil, List.append_nil]

namespace World

/-- The library's own records reach the sinks once they are wanted. -/
theorem log_note_of_enabled {w : World} (enabled : w.log.enabled = true) (r : Record) :
    (w.note r.severity r.module r.message).log = w.log.offer r := by
  rw [note_eq]
  cases heard : w.log.hears r.severity with
  | true => rw [if_pos rfl]
  | false => rw [if_neg Bool.false_ne_true, Log.offer_of_not_hears enabled heard]

/-- Configuring for a profile that is not on record, by a filter whose levels are known, puts up the
sink of the filter. -/
theorem configure_of_levelsKnown {w : World} {profile : Profile} {settings : Settings}
    (new : w.log.profile ≠ some profile)
    (loaded : Settings.load w.environment w.envFile = .ok settings)
    (known : settings.filter.LevelsKnown) :
    ∃ s, Sink.ofFilter profile settings.filter = .ok s ∧ (w.configure profile).1 = .ok () ∧
      (w.configure profile).2.log.enabled = true ∧ (w.configure profile).2.log.sinks = [s] := by
  obtain ⟨s, made⟩ := Sink.exists_ofFilter_iff.mpr known
  refine ⟨s, made, ?_⟩
  have parsed : Sink.ofFilter profile (.parse settings.logFilter) = .ok s := made
  rw [configure, if_neg new, loadSettings, loaded]
  dsimp only
  rw [parsed]
  exact ⟨rfl, rfl, rfl⟩

/-- **A record is written if the filter wants it and it is as grave as the filter says about
everything.**  So it is after configuring for a profile that is not on record yet, by a filter whose
levels are all known, and for records of every severity from every module; the library's own records
are offered to the sink like all others then.  The filter has its way with a module if and only if no
lower level stands in the module's most specific entry than stands for everything. -/
theorem writes_iff_wants {w : World} {profile : Profile} {settings : Settings}
    (new : w.log.profile ≠ some profile)
    (loaded : Settings.load w.environment w.envFile = .ok settings)
    (known : settings.filter.LevelsKnown) :
    (w.configure profile).1 = .ok () ∧
    (∀ r : Record, ((w.configure profile).2.note r.severity r.module r.message).log =
      (w.configure profile).2.log.offer r) ∧
    (∀ r, (w.configure profile).2.log.Writes r ↔
      settings.filter.Wants r ∧ settings.filter.everything.Admits r.severity) ∧
    (∀ module, (∀ r : Record, r.module = module →
        ((w.configure profile).2.log.Writes r ↔ settings.filter.Wants r)) ↔
      ∀ name level s, MostSpecific settings.filter.modules module name (.atLeast level) →
        Severity.named? level = some s → settings.filter.everything.Admits s) := by
  obtain ⟨s, made, returned, enabled, single⟩ := configure_of_levelsKnown new loaded known
  have writes (r : Record) : (w.configure profile).2.log.Writes r ↔
      settings.filter.Wants r ∧ settings.filter.everything.Admits r.severity := by
    rw [Log.writes_iff_of_single single, Sink.accepts_iff made]
  refine ⟨returned, log_note_of_enabled enabled, writes, fun module => ?_⟩
  rw [← LogFilter.forall_wants_iff]
  simp only [writes, and_iff_left_iff_imp]

/-- A process that asks for warnings, and for records for debugging from one part of the library. -/
def partlyDebugging : World :=
  fresh (.ofList [("LOXRT_LOG_FILTER", "warning,loxrt.eval=debug")]) none .silent

/-- A record for debugging from a module that the entry speaks for is wanted, and is not written. -/
theorem partlyDebugging_not_written :
    (partlyDebugging.configure .plain).1 = .ok () ∧
    (LogFilter.parse "warning,loxrt.eval=debug").Wants ⟨.debug, "loxrt.eval.coerce", ""⟩ ∧
    ¬ (partlyDebugging.configure .plain).2.log.Writes ⟨.debug, "loxrt.eval.coerce", ""⟩ := by
  have loaded : Settings.load partlyDebugging.environment partlyDebugging.envFile =
      .ok ⟨"warning,loxrt.eval=debug", 64⟩ := by decide +kernel
  have made : Sink.ofFilter .plain (Settings.filter ⟨"warning,loxrt.eval=debug", 64⟩) =
      .ok ⟨.plain, 30, .ofList [("loxrt.eval", .atLeast 10)]⟩ := by decide +kernel
  have level : (LogFilter.parse "warning,loxrt.eval=debug").everything = .atLeast "WARNING" := by
    decide +kernel
  have rule : ruleFor? (LogFilter.parse "warning,loxrt.eval=debug").modules "loxrt.eval.coerce" =
      some (.atLeast "DEBUG") := by decide +kernel
  have new : partlyDebugging.log.profile ≠ some .plain := by decide
  obtain ⟨returned, -, writes, -⟩ :=
    writes_iff_wants new loaded (Sink.exists_ofFilter_iff.mp ⟨_, made⟩)
  refine ⟨returned, ?_, ?_⟩
  · rw [LogFilter.wants_iff, rule]
    exact ⟨"DEBUG", .debug, rfl, by decide, Int.le_refl _⟩
  · rw [writes]
    rintro ⟨-, name, s, everything, named, le⟩
    obtain rfl : "WARNING" = name := Rule.atLeast.inj (level.symm.trans everything)
    obtain rfl : Severity.warning = s := Option.some.inj named
    exact absurd le (by decide)

end World
end LoxValues
