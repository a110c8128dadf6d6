import LoxValues.World

/-!
# What records and settings leave alone

Records change the lines of the log, and asking a logger of the host makes it exist.  Everything
else about the log is its *set-up*, which only configuring changes: `Log.setup` is a log without its
lines and loggers, and two logs with the same set-up hear the same severities.

Reading the settings writes to the log, puts the settings into the cache, and leaves everything else
in the world alone (`World.getSettings_eq`).
-/

set_option autoImplicit false
namespace LoxValues

namespace Log

/-- What configuring decides about a log: everything but its lines and the loggers of the host. -/
def setup (l : Log) : Log := { l with loggers := .initial, written := [] }

variable {l m : Log}

/-- What a log hears depends on its set-up only. -/
theorem hears_eq_of_setup (same : l.setup = m.setup) (severity : Severity) :
    l.hears severity = m.hears severity := by
  show l.setup.hears severity = m.setup.hears severity
  rw [same]

/-- Two logs with the same set-up agree in everything that configuring decides about. -/
theorem fields_eq_of_setup (same : l.setup = m.setup) :
    l.enabled = m.enabled ∧ l.sinks = m.sinks ∧ l.profile = m.profile ∧
      l.intercepts = m.intercepts := by
  simpa [setup] using same

@[simp] theorem setup_offer (l : Log) (r : Record) : (l.offer r).setup = l.setup := rfl

@[simp] theorem setup_setThreshold (l : Log) (logger : String) (number : Int) :
    (l.setThreshold logger number).setup = l.setup := rfl

@[simp] theorem setup_askHost (l : Log) (logger : String) (severity : Severity) :
    (l.askHost logger severity).2.setup = l.setup := rfl

/-- Whatever leaves the set-up alone each time leaves it alone when it is done again and again. -/
theorem setup_foldl {α : Type} {f : Log → α → Log} (each : ∀ l x, (f l x).setup = l.setup)
    (xs : List α) (l : Log) : (xs.foldl f l).setup = l.setup := by
  induction xs generalizing l with
  | nil => rfl
  | cons x xs ih => rw [List.foldl_cons, ih, each]

@[simp] theorem setup_passOn (l : Log) (r : Record) : (l.passOn r).setup = l.setup :=
  setup_foldl setup_offer _ l

@[simp] theorem setup_offerHost (l : Log) (logger : String) (r : Record) :
    (l.offerHost logger r).setup = l.setup := by
  simp only [offerHost]
  split
  · rw [setup_passOn, setup_askHost]
  · rw [setup_askHost]

end Log

namespace World

/-- A record with a known message changes the log at most. -/
theorem note_eq (severity : Severity) (module message : String) (w : World) :
    w.note severity module message =
      { w with log := if w.log.hears severity then w.log.offer ⟨severity, module, message⟩
                      else w.log } := by
  rw [note, tell]
  split <;> rfl

/-- Reading the environment file changes the log's lines at most. -/
theorem readEnvFile_eq (w : World) :
    ∃ log : Log, log.setup = w.log.setup ∧ w.readEnvFile = { w with log := log } :=
  ⟨_, Log.setup_foldl (fun l r => l.setup_offerHost envFileModule r) _ _, rfl⟩

/-- **Reading the settings** fills the cache with them and changes the log's lines at most. -/
theorem getSettings_eq (w : World) :
    ∃ log : Log, log.setup = w.log.setup ∧
      w.getSettings.2 = { w with cache := some w.getSettings.1, log := log } := by
  obtain ⟨log, setup, read⟩ := w.readEnvFile_eq
  cases cached : w.cache with
  | some s =>
    refine ⟨w.log, rfl, ?_⟩
    rw [getSettings, cached]
    exact congrArg (fun c => { w with cache := c }) cached
  | none =>
    rw [getSettings, cached]
    cases loaded : Settings.load w.environment w.envFile with
    | ok s =>
      refine ⟨log, setup, ?_⟩
      simp only [loadSettings, loaded, read]
    | error issue =>
      simp only [loadSettings, loaded, read, note_eq]
      refine ⟨_, ?_, rfl⟩
      split
      · rw [Log.setup_offer, setup]
      · exact setup

theorem getSettings_of_cached {w : World} {s : Settings} (cached : w.cache = some s) :
    w.getSettings = (s, w) := by
  rw [getSettings, cached]

section GetSettings

variable (w : World)

theorem cache_getSettings : w.getSettings.2.cache = some w.getSettings.1 := by
  obtain ⟨log, -, after⟩ := w.getSettings_eq
  rw [after]

theorem heap_getSettings : w.getSettings.2.heap = w.heap := by
  obtain ⟨log, -, after⟩ := w.getSettings_eq
  rw [after]

theorem rendering_getSettings : w.getSettings.2.rendering = w.rendering := by
  obtain ⟨log, -, after⟩ := w.getSettings_eq
  rw [after]

theorem callLimit_getSettings : w.getSettings.2.callLimit = w.callLimit := by
  obtain ⟨log, -, after⟩ := w.getSettings_eq
  rw [after]

theorem setup_getSettings : w.getSettings.2.log.setup = w.log.setup := by
  obtain ⟨log, setup, after⟩ := w.getSettings_eq
  rw [after, setup]

end GetSettings

end World
end LoxValues
