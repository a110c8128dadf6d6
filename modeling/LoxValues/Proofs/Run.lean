import LoxValues.Proofs.Configuring
import LoxValues.Proofs.Unfolding
import LoxValues.World.Step

/-!
# Runs

A run is one step after another.  Steps other than configuring leave the log's set-up alone
(`World.frame_step`), and no step leaves anything in the middle of being rendered
(`World.rendering_step`): so what holds of rendering when nothing is being rendered holds of every
rendering that a host asks for (`World.rendering_run`).
-/

set_option autoImplicit false
namespace LoxValues.World

/-- The world after some steps. -/
def run (w : World) (steps : List Step) : World := steps.foldl (fun w s => (w.step s).2) w

@[simp] theorem run_nil (w : World) : w.run [] = w := rfl

@[simp] theorem run_cons (w : World) (s : Step) (steps : List Step) :
    w.run (s :: steps) = (w.step s).2.run steps := rfl

theorem run_append (w : World) (steps more : List Step) :
    w.run (steps ++ more) = (w.run steps).run more :=
  List.foldl_append

/-! ## What a step leaves alone -/

/-- What a world has apart from its descriptors, variables, settings, log lines and loggers. -/
def frame (w : World) : List ArrayRef × Nat × Log := (w.rendering, w.callLimit, w.log.setup)

theorem frame_getSettings (w : World) : w.getSettings.2.frame = w.frame := by
  rw [frame, rendering_getSettings, callLimit_getSettings, setup_getSettings, frame]

theorem frame_loadSettings (w : World) : w.loadSettings.2.frame = w.frame := by
  obtain ⟨log, setup, after⟩ := w.readEnvFile_eq
  rw [loadSettings, after, frame, setup, frame]

theorem frame_render (w : World) (v : Value) : (w.render v).2.frame = w.frame := by
  have prepared : (w.prepared v).frame = w.frame := by
    rcases w.prepared_cases v with same | read
    · rw [same]
    · rw [read, frame_getSettings]
  rw [render_eq, ← prepared, frame, record, Log.setup_offerDebug]
  rfl

theorem frame_tell {severity : Severity} {module : String} {message : World → String × World}
    {w : World} (made : (message w).2.frame = w.frame) :
    (w.tell severity module message).frame = w.frame := by
  rw [tell]
  split
  · exact made
  · rfl

theorem frame_expect {α : Type} (expected : Expectation) (v : Value) (result : Option α) (w : World) :
    (w.expect expected v result).2.frame = w.frame := by
  cases result with
  | some r => rfl
  | none => exact frame_tell (w.frame_render v)

/-- **A step other than configuring** leaves alone what is being rendered and the log's set-up. -/
theorem frame_step {s : Step} (other : ∀ p, s ≠ .configure p) (w : World) :
    (w.step s).2.frame = w.frame := by
  cases s with
  | render v => exact w.frame_render v
  | negate v box => exact w.frame_expect .number v _
  | toInteger v => exact w.frame_expect .integer v _
  | toFloat v => exact w.frame_expect .double v _
  | toText v => exact w.frame_expect .string v _
  | getSettings => exact w.frame_getSettings
  | loadSettings =>
    rw [← w.frame_loadSettings, step]
    split
    · next read => rw [read]
    · next read => rw [read]
  | configure p => exact absurd rfl (other p)
  | writeElement a index v =>
    rw [step]
    split <;> rfl
  | popElement a =>
    rw [step]
    split <;> rfl
  | readField o name =>
    rw [step]
    split <;> rfl
  | findMethod c name =>
    rw [step]
    split <;> rfl
  | setVariable name value =>
    cases value with
    | none => rfl
    | some value =>
      rw [step, setVariable]
      cases variableFault? name value with
      | some fault => rfl
      | none => rfl
  | hostRecord module logger number message arguments =>
    simp only [step]
    split
    · split
      · rw [frame, Log.setup_passOn]
        rfl
      · rfl
    · rfl
  | _ => rfl

/-! ## Nothing is being rendered between steps -/

/-- Every step leaves alone what is being rendered and how many calls may nest. -/
theorem surroundings_step (w : World) (s : Step) :
    (w.step s).2.rendering = w.rendering ∧ (w.step s).2.callLimit = w.callLimit := by
  by_cases configuring : ∃ p, s = .configure p
  · obtain ⟨p, rfl⟩ := configuring
    obtain ⟨log, after⟩ := configure_eq p w
    show (w.configure p).2.rendering = w.rendering ∧ (w.configure p).2.callLimit = w.callLimit
    rw [after]
    exact ⟨rfl, rfl⟩
  · have other : ∀ p, s ≠ .configure p := fun p same => configuring ⟨p, same⟩
    have same := frame_step other w
    exact ⟨congrArg Prod.fst same, congrArg (·.2.1) same⟩

theorem rendering_step (w : World) (s : Step) : (w.step s).2.rendering = w.rendering :=
  (w.surroundings_step s).1

/-- **No step leaves anything in the middle of being rendered.** -/
theorem rendering_run (w : World) (steps : List Step) : (w.run steps).rendering = w.rendering := by
  induction steps generalizing w with
  | nil => rfl
  | cons s steps ih => rw [run_cons, ih, rendering_step]

end LoxValues.World
