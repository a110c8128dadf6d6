import LoxValues.Proofs.Records

/-!
# Records of refused values

A conversion that refuses a value renders it for the record that it leaves.  So the record is the last
of those that it leaves: the others are what rendering the value would leave in its place, and so is
everything else that the refusal changes.

## What is here

* `Step.conversion` — the operation that expects something of a value, as a step, and
  `Expectation.admits` — the values that it takes.
* `Sink.AcceptsDebugging` — a sink that takes the records for debugging of all the library's modules.
* `World.perform_of_step` — a step answers with the lines of the records received on the way.
* `World.conversion_records` — **a refusal is a rendering and one more record.**
-/

set_option autoImplicit false
namespace LoxValues

/-! ## Conversions -/

/-- The operation that expects something of a value, with the box for a float that is made. -/
def Step.conversion : Expectation → Value → Nat → Step
  | .double, v, _ => .toFloat v
  | .integer, v, _ => .toInteger v
  | .number, v, box => .negate v box
  | .string, v, _ => .toText v

namespace Expectation

/-- Is the value what is expected? -/
def admits : Expectation → Value → Bool
  | .string, .string _ => true
  | .string, _ => false
  | _, v => v.isNumber

/-- The record of a value that is refused, with the text of the value. -/
def record (expected : Expectation) (text : String) : Record :=
  ⟨.debug, expected.module, expected.complaint ++ text⟩

end Expectation

/-- The sink accepts every record for debugging from the library's modules. -/
def Sink.AcceptsDebugging (s : Sink) : Prop :=
  ∀ r : Record, r.severity = .debug → "loxrt" ∈ covering r.module → s.accepts r = true

/-- A sink that accepts a record accepts a graver one from the same module. -/
theorem Sink.accepts_of_le {s : Sink} {r graver : Record} (accepted : s.accepts r = true)
    (module : graver.module = r.module) (le : r.severity.number ≤ graver.severity.number) :
    s.accepts graver = true := by
  simp only [accepts, hears, Bool.and_eq_true, decide_eq_true_eq] at accepted ⊢
  obtain ⟨heard, admitted⟩ := accepted
  refine ⟨Int.le_trans heard le, ?_⟩
  rw [module]
  split at admitted
  · rfl
  · cases admitted
  · exact decide_eq_true (Int.le_trans (of_decide_eq_true admitted) le)

/-- Where the one sink accepts a record, graver ones are heard. -/
theorem Log.hears_of_accepts {l : Log} {s : Sink} {r : Record} {severity : Severity}
    (enabled : l.enabled = true) (single : l.sinks = [s]) (accepted : s.accepts r = true)
    (le : r.severity.number ≤ severity.number) : l.hears severity = true := by
  have reached : s.hears r.severity = true := (Bool.and_eq_true_iff.mp accepted).1
  simp only [hears, enabled, single, Sink.hears, decide_eq_true_eq] at reached ⊢
  simpa using Int.le_trans reached le

theorem Log.linesOf_of_accepts {l : Log} {s : Sink} {r : Record} (single : l.sinks = [s])
    (accepted : s.accepts r = true) : l.linesOf r = [s.line r] := by
  simp [linesOf, single, accepted]

namespace World

/-- A conversion has a result for the values that it takes, and hands it on. -/
theorem exists_step_conversion (expected : Expectation) (v : Value) (box : Nat) (w : World) :
    ∃ (α : Type) (result : Option α) (answer : α → Answer), result.isSome = expected.admits v ∧
      w.step (.conversion expected v box) =
        ((w.expect expected v result).1.map answer, (w.expect expected v result).2) := by
  cases expected with
  | double => exact ⟨_, v.toFloat?, .double, by cases v <;> rfl, rfl⟩
  | integer => exact ⟨_, v.toInteger?, .integer, by cases v <;> rfl, rfl⟩
  | number => exact ⟨_, v.negated? box, .value, by cases v <;> rfl, rfl⟩
  | string => exact ⟨_, v.toText?, .text, by cases v <;> rfl, rfl⟩

theorem step_conversion_of_admits {expected : Expectation} {v : Value}
    (admits : expected.admits v = true) (box : Nat) (w : World) :
    ∃ answer, w.step (.conversion expected v box) = (.ok answer, w) := by
  obtain ⟨α, result, answer, same, step⟩ := exists_step_conversion expected v box w
  rw [admits, Option.isSome_iff_exists] at same
  obtain ⟨r, rfl⟩ := same
  exact ⟨answer r, step⟩

theorem step_conversion_of_refuses {expected : Expectation} {v : Value}
    (refuses : expected.admits v = false) (box : Nat) (w : World) :
    w.step (.conversion expected v box) =
      (.error (.mismatch ⟨expected, some v⟩), w.complain expected v) := by
  obtain ⟨α, result, answer, same, step⟩ := exists_step_conversion expected v box w
  rw [refuses, Option.isSome_eq_false_iff, Option.isNone_iff_eq_none] at same
  rw [step, same]
  rfl

theorem complain_eq {w : World} (heard : w.log.hears .debug = true) (expected : Expectation)
    (v : Value) :
    w.complain expected v =
      { (w.render v).2 with log := (w.render v).2.log.offer (expected.record (w.render v).1) } := by
  rw [complain, tell, if_pos heard]
  rfl

/-! ## Lines -/

/-- The lines that a step answers with are those of the records received on the way. -/
theorem perform_of_step {w after : World} {s : Step} {answer : Except Fault Answer} {rs : List Record}
    (step : w.step s = (answer, after)) (received : w.log.Receives rs after.log) :
    w.perform s = (⟨answer, rs.flatMap w.log.linesOf⟩, after) := by
  simp only [perform, step, received.written, List.drop_left]

/-! ## Invalid settings -/

/-- Settings that are found invalid while they are read are the last thing told about it. -/
theorem receives_invalidSettings {w : World} {issue : DepthIssue} (empty : w.cache = none)
    (invalid : Settings.load w.environment w.envFile = .error issue)
    (heard : w.log.hears .warning = true) :
    w.getSettings.2.cache = some .default ∧
      ∃ rs, w.log.Receives (rs ++ [invalidSettings]) w.getSettings.2.log := by
  obtain ⟨rs, received, -⟩ := w.tells_readEnvFile
  have heard' : w.readEnvFile.log.hears .warning = true := by
    rwa [Log.hears_eq_of_setup received.setup]
  have told : w.getSettings.2.log = w.readEnvFile.log.offer invalidSettings := by
    rw [getSettings, empty, loadSettings, invalid]
    dsimp only
    rw [note_eq, if_pos heard']
    rfl
  refine ⟨?_, rs, ?_⟩
  · rw [getSettings, empty, loadSettings, invalid]
  · rw [told]
    exact received.trans (Log.receives_offer _ _)

/-- Where the settings are read for an array and found invalid, rendering it tells of that and goes on
with the defaults. -/
theorem receives_render_of_invalid {w : World} {a : ArrayRef} {issue : DepthIssue}
    (new : a ∉ w.rendering) (empty : w.cache = none)
    (invalid : Settings.load w.environment w.envFile = .error issue)
    (heard : w.log.hears .warning = true) :
    (w.render (.array a)).2.cache = some .default ∧
      ∃ rs, w.log.Receives rs (w.render (.array a)).2.log ∧ invalidSettings ∈ rs := by
  obtain ⟨cache, rs, read⟩ := receives_invalidSettings empty invalid heard
  rw [render_eq, prepared, if_neg new]
  obtain ⟨qs, written, -⟩ := w.getSettings.2.receives_record
    (w.heap.unfolding w.depthLimit w.rendering (.array a))
  exact ⟨cache, _, read.trans written, by simp⟩

/-! ## Refusals -/

/-- **A refusal is a rendering and one more record.**  Where the library's records are wanted and the one
sink accepts all of those for debugging, a conversion that takes a value answers without a line and
leaves the world as it is.  One that does not take it fails with the value itself.  It writes the lines
that rendering the value writes, and after them one that names the conversion and has the text of the
value; in everything else, the settings read among them, the world is as that rendering leaves it.
Where the value is an array, for which the settings are read and found invalid, the warning of that is
among the lines, and rendering goes by the defaults from then on. -/
theorem conversion_records {w : World} {s : Sink} (enabled : w.log.enabled = true)
    (single : w.log.sinks = [s]) (debugging : s.AcceptsDebugging) (expected : Expectation)
    (v : Value) (box : Nat) :
    (expected.admits v = true →
      ∃ answer, w.perform (.conversion expected v box) = (⟨.ok answer, []⟩, w)) ∧
    (expected.admits v = false →
      w.perform (.conversion expected v box) =
        (⟨.error (.mismatch ⟨expected, some v⟩),
          (w.perform (.render v)).1.lines ++ [s.line (expected.record (w.render v).1)]⟩,
        { (w.perform (.render v)).2 with
          log := (w.perform (.render v)).2.log.offer (expected.record (w.render v).1) })) ∧
    ∀ a issue, v = .array a → a ∉ w.rendering → w.cache = none →
      Settings.load w.environment w.envFile = .error issue →
        s.line invalidSettings ∈ (w.perform (.render v)).1.lines ∧
          (w.perform (.render v)).2.cache = some .default := by
  have own : "loxrt" ∈ covering expected.module := by
    cases expected <;> decide +kernel
  have accepted : s.accepts (expected.record (w.render v).1) = true := debugging _ rfl own
  have heard (severity : Severity) (le : Severity.debug.number ≤ severity.number) :
      w.log.hears severity = true := Log.hears_of_accepts enabled single accepted le
  obtain ⟨rs, received, -⟩ := w.tells_render v
  have rendered : w.perform (.render v) =
      (⟨.ok (.text (w.render v).1), rs.flatMap w.log.linesOf⟩, (w.render v).2) :=
    perform_of_step rfl received
  refine ⟨fun admits => ?_, fun refuses => ?_, ?_⟩
  · obtain ⟨answer, step⟩ := step_conversion_of_admits admits box w
    exact ⟨answer, perform_of_step step (.refl w.log)⟩
  · have step := step_conversion_of_refuses refuses box w
    rw [complain_eq (heard .debug (Int.le_refl _))] at step
    rw [perform_of_step step (received.trans (Log.receives_offer _ _)), rendered,
      List.flatMap_append, List.flatMap_singleton, Log.linesOf_of_accepts single accepted]
  · rintro a issue rfl new empty invalid
    obtain ⟨cache, qs, told, mem⟩ :=
      receives_render_of_invalid new empty invalid (heard .warning (by decide))
    have debug := debugging ⟨.debug, invalidSettings.module, ""⟩ rfl (by decide +kernel)
    have warned : s.accepts invalidSettings = true := s.accepts_of_le debug rfl (by decide)
    rw [perform_of_step (s := .render (.array a)) rfl told]
    refine ⟨List.mem_flatMap.mpr ⟨_, mem, ?_⟩, cache⟩
    rw [Log.linesOf_of_accepts single warned]
    exact List.mem_singleton_self _

/-- A world whose settings have not been read and are not valid, with an array that has itself. -/
def misset : World :=
  { fresh (.ofList [("LOXRT_MAX_RENDER_DEPTH", "0")]) none .listening with
    heap := { Heap.empty with arrays := [⟨2, [.array ⟨0⟩, .nil]⟩] } }

theorem acceptsDebugging_of_unfiltered : Sink.AcceptsDebugging ⟨.plain, 10, .empty⟩ := by
  intro r debug _
  have nothing : ruleFor? (.empty : Table (Rule Int)) r.module = none := by
    simp [ruleFor?, Table.get?_empty]
  simp [Sink.accepts, Sink.hears, debug, nothing, Severity.debug]

/-- Converting the array of `misset` to an integer warns of the settings, tells of the cycle, and then of
the array, which is written in full. -/
theorem refused_misset :
    (misset.perform (.toInteger (.array ⟨0⟩))).1.lines.map (fun l => (l.severity, l.message)) =
      [("WARNING", "settings.invalid errors=1"), ("DEBUG", "render.cycle depth=1"),
        ("DEBUG", "coerce.fail kind=integer value=[[...], Nil]")] ∧
    (misset.perform (.toInteger (.array ⟨0⟩))).2.cache = some .default := by
  have refused : misset.perform (.toInteger (.array ⟨0⟩)) = _ :=
    (conversion_records rfl rfl acceptsDebugging_of_unfiltered .integer (.array ⟨0⟩) 0).2.1 rfl
  rw [refused]
  exact ⟨by decide +kernel, by decide +kernel⟩

end World
end LoxValues
