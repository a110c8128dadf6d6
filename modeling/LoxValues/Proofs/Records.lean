import LoxValues.Proofs.Observation

/-!
# Records that steps make

The lines that a step writes are those of the records it makes, in order: each record gives one line
for every sink that accepts it (`Log.Receives`).

## What is here

* `Log.Makes` — the records that the library makes of its own accord, and the warnings that come with
  reading the environment file, each with what has to be there for it to be made.
* `World.makes_step` — a step other than one that hands over a record of the host writes the lines of
  such records only.  It makes the warning of invalid settings at most once, and only if it reads the
  settings that rendering goes by.
* `World.receives_hostRecord` — a record of the host is received once for each handler.
-/

set_option autoImplicit false
namespace LoxValues

/-- The warning of settings that are replaced by the defaults. -/
def invalidSettings : Record := ⟨.warning, "loxrt.config.settings", "settings.invalid errors=1"⟩

namespace Log

variable {l m n : Log}

/-! ## Lines of records -/

/-- The lines of a record, one for every sink that accepts it. -/
def linesOf (l : Log) (r : Record) : List Line :=
  (l.sinks.filter fun s => s.accepts r).map fun s => s.line r

theorem linesOf_eq_of_setup (same : l.setup = m.setup) : l.linesOf = m.linesOf := by
  funext r
  rw [linesOf, linesOf, (fields_eq_of_setup same).2.1]

/-- One log comes from another by records that are given to all sinks, one after the other. -/
structure Receives (l : Log) (rs : List Record) (m : Log) : Prop where
  /-- What configuring decides about is as before. -/
  setup : m.setup = l.setup
  /-- The lines of the records have been written. -/
  written : m.written = l.written ++ rs.flatMap l.linesOf

theorem Receives.refl (l : Log) : l.Receives [] l := ⟨rfl, (List.append_nil _).symm⟩

theorem Receives.trans {rs qs : List Record} (first : l.Receives rs m) (second : m.Receives qs n) :
    l.Receives (rs ++ qs) n where
  setup := second.setup.trans first.setup
  written := by
    rw [second.written, first.written, linesOf_eq_of_setup first.setup, List.flatMap_append,
      List.append_assoc]

theorem receives_offer (l : Log) (r : Record) : l.Receives [r] (l.offer r) where
  setup := rfl
  written := by
    rw [List.flatMap_singleton]
    rfl

theorem receives_foldl (rs : List Record) (l : Log) : l.Receives rs (rs.foldl offer l) := by
  induction rs generalizing l with
  | nil => exact .refl l
  | cons r rs ih => exact (l.receives_offer r).trans (ih (l.offer r))

theorem receives_askHost (l : Log) (logger : String) (severity : Severity) :
    l.Receives [] (l.askHost logger severity).2 := ⟨rfl, (List.append_nil _).symm⟩

/-- A record of the host is received once for each handler, or not at all. -/
theorem receives_offerHost (l : Log) (logger : String) (r : Record) :
    ∃ n ≤ l.intercepts, l.Receives (List.replicate n r) (l.offerHost logger r) := by
  have asked := l.receives_askHost logger r.severity
  cases heard : (l.askHost logger r.severity).1 with
  | false =>
    refine ⟨0, Nat.zero_le _, ?_⟩
    simp only [offerHost, heard]
    exact asked
  | true =>
    refine ⟨l.intercepts, Nat.le_refl _, ?_⟩
    simp only [offerHost, heard]
    exact asked.trans (receives_foldl _ _)

/-! ## Records of the library's own accord -/

/-- The log has the library make a record, or pass on one about the environment file. -/
inductive Makes (l : Log) : Record → Prop
  /-- An array is not shown. -/
  | rendering (heard : l.hears .debug = true) (why : Omission) (depth : Nat) :
      Makes l ⟨.debug, "loxrt.eval.value", why.event ++ " depth=" ++ Nat.repr depth⟩
  /-- A conversion does not apply. -/
  | complaint (heard : l.hears .debug = true) (expected : Expectation) (text : String) :
      Makes l ⟨.debug, expected.module, expected.complaint ++ text⟩
  /-- Settings are replaced by the defaults. -/
  | invalid (heard : l.hears .warning = true) : Makes l invalidSettings
  /-- A statement in the environment file has none of the known forms. -/
  | malformed (passedOn : 0 < l.intercepts) (line : Nat) : Makes l (World.malformedStatement line)

theorem Makes.of_setup (same : l.setup = m.setup) {r : Record} (made : l.Makes r) : m.Makes r := by
  cases made with
  | rendering heard why depth => exact .rendering (hears_eq_of_setup same .debug ▸ heard) why depth
  | complaint heard expected text =>
    exact .complaint (hears_eq_of_setup same .debug ▸ heard) expected text
  | invalid heard => exact .invalid (hears_eq_of_setup same .warning ▸ heard)
  | malformed passedOn line => exact .malformed ((fields_eq_of_setup same).2.2.2 ▸ passedOn) line

end Log

namespace World

/-! ## Records of operations -/

/-- On the way from one world to another the log has received records that the library makes, among
them the warning of invalid settings at most so often. -/
def Tells (w : World) (most : Nat) (after : World) : Prop :=
  ∃ rs, w.log.Receives rs after.log ∧ (∀ r ∈ rs, w.log.Makes r) ∧ rs.count invalidSettings ≤ most

theorem tells_of_log_eq {w after : World} (same : after.log = w.log) (most : Nat) :
    w.Tells most after :=
  ⟨[], same ▸ .refl w.log, List.forall_mem_nil _, Nat.zero_le most⟩

theorem Tells.trans {u v w : World} {most more : Nat} (first : w.Tells most v)
    (second : v.Tells more u) : w.Tells (most + more) u := by
  obtain ⟨rs, received, made, often⟩ := first
  obtain ⟨qs, received', made', often'⟩ := second
  refine ⟨rs ++ qs, received.trans received', fun r mem => ?_, ?_⟩
  · rcases List.mem_append.mp mem with mem | mem
    · exact made r mem
    · exact (made' r mem).of_setup received.setup
  · rw [List.count_append]
    exact Nat.add_le_add often often'

theorem Tells.mono {w after : World} {most more : Nat} (tells : w.Tells most after) (le : most ≤ more) :
    w.Tells more after := by
  obtain ⟨rs, received, made, often⟩ := tells
  exact ⟨rs, received, made, Nat.le_trans often le⟩

/-- Records that are all different from the warning of invalid settings. -/
theorem tells_of_ne {w after : World} {rs : List Record} (received : w.log.Receives rs after.log)
    (made : ∀ r ∈ rs, w.log.Makes r) (other : ∀ r ∈ rs, r ≠ invalidSettings) : w.Tells 0 after :=
  ⟨rs, received, made, Nat.le_of_eq (List.count_eq_zero.mpr fun mem => other _ mem rfl)⟩

theorem malformedStatement_ne_invalidSettings (line : Nat) :
    malformedStatement line ≠ invalidSettings := by
  intro same
  have modules : envFileModule = "loxrt.config.settings" := congrArg Record.module same
  revert modules
  decide

theorem debug_ne_invalidSettings (module message : String) :
    (⟨.debug, module, message⟩ : Record) ≠ invalidSettings := by
  intro same
  have severities : Severity.debug = .warning := congrArg Record.severity same
  revert severities
  decide

/-- Warnings about the environment file are received as the handlers pass them on. -/
theorem receives_malformed (lines : List Nat) (l : Log) :
    ∃ rs, l.Receives rs
        ((lines.map malformedStatement).foldl (fun l r => l.offerHost envFileModule r) l) ∧
      ∀ r ∈ rs, 0 < l.intercepts ∧ ∃ line, r = malformedStatement line := by
  induction lines generalizing l with
  | nil => exact ⟨[], .refl l, List.forall_mem_nil _⟩
  | cons line lines ih =>
    obtain ⟨n, le, first⟩ := l.receives_offerHost envFileModule (malformedStatement line)
    obtain ⟨rs, others, made⟩ := ih (l.offerHost envFileModule (malformedStatement line))
    have intercepts := (Log.fields_eq_of_setup first.setup).2.2.2
    refine ⟨_, first.trans others, fun r mem => ?_⟩
    rcases List.mem_append.mp mem with mem | mem
    · obtain ⟨some, rfl⟩ := List.mem_replicate.mp mem
      exact ⟨by omega, line, rfl⟩
    · obtain ⟨passedOn, line, rfl⟩ := made r mem
      exact ⟨intercepts ▸ passedOn, line, rfl⟩

theorem tells_readEnvFile (w : World) : w.Tells 0 w.readEnvFile := by
  obtain ⟨rs, received, made⟩ :=
    receives_malformed ((w.envFile.map EnvFile.malformedLines).getD []) w.log
  refine tells_of_ne received (fun r mem => ?_) fun r mem => ?_
  · obtain ⟨passedOn, line, rfl⟩ := made r mem
    exact .malformed passedOn line
  · obtain ⟨-, line, rfl⟩ := made r mem
    exact malformedStatement_ne_invalidSettings line

theorem tells_noteInvalid (w : World) :
    w.Tells 1 (w.note .warning "loxrt.config.settings" "settings.invalid errors=1") := by
  rw [note_eq]
  cases heard : w.log.hears .warning with
  | false => exact tells_of_log_eq (by simp) 1
  | true =>
    refine ⟨[invalidSettings], ?_, fun r mem => ?_, by simp⟩
    · simp only [if_true]
      exact w.log.receives_offer invalidSettings
    · obtain rfl := List.mem_singleton.mp mem
      exact .invalid heard

/-- How often the settings that rendering goes by are read on the way from one world to another: once or
never. -/
def fills (w after : World) : Nat := if w.cache.isNone && after.cache.isSome then 1 else 0

/-- Reading the settings that rendering goes by warns of invalid ones at most once, and only if they had
not been read. -/
theorem tells_getSettings (w : World) : w.Tells (w.fills w.getSettings.2) w.getSettings.2 := by
  cases cached : w.cache with
  | some s =>
    rw [getSettings_of_cached cached]
    exact tells_of_log_eq rfl _
  | none =>
    have filled : w.fills w.getSettings.2 = 1 := by
      rw [fills, cached, cache_getSettings]
      rfl
    have read := w.tells_readEnvFile
    rw [filled, getSettings, cached, loadSettings]
    cases Settings.load w.environment w.envFile with
    | ok s => exact read.mono (Nat.zero_le 1)
    | error issue => exact read.trans w.readEnvFile.tells_noteInvalid

/-- The records of some pieces are received where debugging is heard, and otherwise none. -/
theorem receives_record (w : World) (pieces : List Piece) :
    ∃ rs, w.log.Receives rs (w.record pieces).log ∧
      ∀ r ∈ rs, w.log.hears .debug = true ∧ ∃ why depth, .ellipsis why depth ∈ pieces ∧
        r = ⟨.debug, "loxrt.eval.value", Omission.event why ++ " depth=" ++ Nat.repr depth⟩ := by
  rw [record, Log.offerDebug]
  split
  · next heard =>
    refine ⟨_, Log.receives_foldl _ _, fun r mem => ⟨heard, ?_⟩⟩
    obtain ⟨piece, written, made⟩ := List.mem_filterMap.mp mem
    cases piece with
    | plain s => cases made
    | ellipsis why depth => exact ⟨why, depth, written, (Option.some.inj made).symm⟩
  · exact ⟨[], .refl w.log, List.forall_mem_nil _⟩

theorem tells_record (w : World) (pieces : List Piece) : w.Tells 0 (w.record pieces) := by
  obtain ⟨rs, received, made⟩ := w.receives_record pieces
  refine tells_of_ne received (fun r mem => ?_) fun r mem => ?_
  · obtain ⟨heard, why, depth, -, rfl⟩ := made r mem
    exact .rendering heard why depth
  · obtain ⟨-, why, depth, -, rfl⟩ := made r mem
    exact debug_ne_invalidSettings _ _

theorem tells_render (w : World) (v : Value) : w.Tells (w.fills (w.render v).2) (w.render v).2 := by
  have prepared : w.Tells (w.fills (w.prepared v)) (w.prepared v) := by
    rcases w.prepared_cases v with same | read
    · rw [same]
      exact tells_of_log_eq rfl _
    · rw [read]
      exact w.tells_getSettings
  rw [render_eq]
  exact prepared.trans ((w.prepared v).tells_record _)

end World
end LoxValues
