import LoxValues.Proofs.Run
import Mathlib.Data.List.Induction

/-!
# What logging can be seen by

Configuring the log is meant to change what is written and nothing else.  There is one way in which
it changes more.  An operation that fails has the value it was given rendered for its record, but
only if some sink hears the record; rendering an array reads the settings, and settings once read are
kept.  So whether the log is configured may decide *when* the settings are read, and if the
environment changes in between, which settings rendering goes by from then on.

A run is compared here with the same run without its attempts at configuring.

## What is here

* `World.rest` — a world without its log and the settings it has read.  It is the same in both runs
  at every moment (`World.rest_run`).
* `World.answer_step` — the answer of a step depends on the rest alone, except that rendering an array
  and asking for the settings also depend on what the settings are.
* `World.Undisturbed` — the settings that the environment has never change at a moment when they have
  been read in one of the two runs only.  This is exactly what keeps the settings the same in both
  (`World.undisturbed_iff`).
-/

set_option autoImplicit false
namespace LoxValues

/-! ## Kinds of steps -/

namespace Step

/-- Does the step configure the log? -/
def isConfigure : Step → Bool
  | .configure _ => true
  | _ => false

/-- Is the step about the log itself? -/
def isAboutLog : Step → Bool
  | .configure _ | .logState | .setThreshold _ _ | .hostRecord _ _ _ _ _ => true
  | _ => false

/-- Does the step have nothing to do with the log and with the settings that were read? -/
def isPlain : Step → Bool
  | .render _ | .negate _ _ | .toInteger _ | .toFloat _ | .toText _ => false
  | .clearCache | .getSettings | .loadSettings => false
  | s => !s.isAboutLog

/-- Does the answer depend on the settings that rendering goes by? -/
def goesBySettings : Step → Bool
  | .render (.array _) | .getSettings => true
  | _ => false

/-- Is the step about something other than the log? -/
def isOrdinary (s : Step) : Bool := !s.isAboutLog

/-- Is the step about something other than the log, with an answer that does not depend on the settings
that rendering goes by? -/
def ignoresSettings (s : Step) : Bool := !s.isAboutLog && !s.goesBySettings

theorem isConfigure_of_isOrdinary {s : Step} (ordinary : s.isOrdinary = true) :
    s.isConfigure = false := by
  cases s with
  | configure => cases ordinary
  | _ => rfl

theorem eq_configure_of_isConfigure {s : Step} (configures : s.isConfigure = true) :
    ∃ p, s = .configure p := by
  cases s with
  | configure p => exact ⟨p, rfl⟩
  | _ => cases configures

end Step

/-- The steps of a run without the attempts at configuring. -/
def withoutConfiguring (steps : List Step) : List Step := steps.filter fun s => !s.isConfigure

theorem withoutConfiguring_concat (steps : List Step) (s : Step) :
    withoutConfiguring (steps ++ [s]) =
      withoutConfiguring steps ++ if s.isConfigure then [] else [s] := by
  rw [withoutConfiguring, List.filter_append, withoutConfiguring]
  cases configures : s.isConfigure <;> simp [configures]

namespace World

/-- The answers of the steps of a run that are of some kind, in order. -/
def answers (w : World) (kind : Step → Bool) : List Step → List (Except Fault Answer)
  | [] => []
  | s :: steps => (if kind s then [(w.step s).1] else []) ++ (w.step s).2.answers kind steps

theorem answers_concat (w : World) (kind : Step → Bool) (steps : List Step) (s : Step) :
    w.answers kind (steps ++ [s]) =
      w.answers kind steps ++ if kind s then [((w.run steps).step s).1] else [] := by
  induction steps generalizing w with
  | nil => rw [List.nil_append, answers, answers, answers, List.append_nil, List.nil_append, run_nil]
  | cons first steps ih => rw [List.cons_append, answers, answers, ih, List.append_assoc, run_cons]

/-! ## Worlds that differ in the log and the settings read -/

/-- A world without its log and without the settings it has read. -/
def rest (w : World) : World := { w with cache := none, log := .silent }

/-- A world with other settings read and another log. -/
def alter (w : World) (cache : Option Settings) (log : Log) : World :=
  { w with cache := cache, log := log }

theorem eq_alter_of_rest {v w : World} (same : v.rest = w.rest) : v = w.alter v.cache v.log := by
  have : v.rest.alter v.cache v.log = w.rest.alter v.cache v.log := by rw [same]
  exact this

/-- A plain step answers and does the same whatever the log and the settings read are. -/
theorem step_alter {s : Step} (plain : s.isPlain = true) (w : World) (cache : Option Settings)
    (log : Log) : (w.alter cache log).step s = ((w.step s).1, (w.step s).2.alter cache log) := by
  cases s with
  | render | negate | toInteger | toFloat | toText | clearCache | getSettings | loadSettings
  | configure | logState | setThreshold | hostRecord => cases plain
  | writeElement a index v =>
    rw [step, step, alter]
    cases w.heap.writeElement a index v <;> rfl
  | popElement a =>
    rw [step, step, alter]
    cases w.heap.lastElement? a <;> rfl
  | readField o name =>
    rw [step, step, alter]
    cases w.heap.field? o name <;> rfl
  | findMethod c name =>
    rw [step, step, alter]
    cases w.heap.findMethod c name <;> rfl
  | setVariable name value =>
    cases value with
    | none => rfl
    | some value =>
      rw [step, step, setVariable, setVariable]
      cases variableFault? name value <;> rfl
  | _ => rfl

theorem cache_of_isPlain {s : Step} (plain : s.isPlain = true) (w : World) :
    (w.step s).2.cache = w.cache :=
  congrArg (fun r => r.2.cache) (step_alter plain w w.cache w.log)

/-- The step leaves the rest alone, and the settings read as they are unless it reads those that
rendering goes by. -/
structure Reads (w after : World) : Prop where
  /-- The rest is as before. -/
  rest : after.rest = w.rest
  /-- The settings read are as before, or those that rendering goes by. -/
  cache : after.cache = w.cache ∨ after.cache = some w.getSettings.1

theorem reads_of_log {w after : World} (log : Log) (same : after = { w with log := log }) :
    w.Reads after := by
  rw [same]
  exact ⟨rfl, .inl rfl⟩

theorem reads_getSettings (w : World) : w.Reads w.getSettings.2 := by
  obtain ⟨log, -, after⟩ := w.getSettings_eq
  rw [after]
  exact ⟨rfl, .inr rfl⟩

theorem reads_render (w : World) (v : Value) : w.Reads (w.render v).2 := by
  have prepared : w.Reads (w.prepared v) := by
    rcases w.prepared_cases v with same | read
    · exact reads_of_log w.log same
    · rw [read]
      exact w.reads_getSettings
  rw [render_eq]
  exact ⟨prepared.rest, prepared.cache⟩

theorem reads_expect {α : Type} (expected : Expectation) (v : Value) (result : Option α) (w : World) :
    w.Reads (w.expect expected v result).2 := by
  cases result with
  | some r => exact reads_of_log w.log rfl
  | none =>
    rw [expect, complain, tell]
    split
    · exact ⟨(w.reads_render v).rest, (w.reads_render v).cache⟩
    · exact reads_of_log w.log rfl

/-- **A step that is not plain** changes nothing but the log and the settings read. -/
theorem reads_step {s : Step} (special : s.isPlain = false) (keeps : s ≠ .clearCache) (w : World) :
    w.Reads (w.step s).2 := by
  cases s with
  | clearCache => exact absurd rfl keeps
  | render v => exact w.reads_render v
  | negate v box => exact w.reads_expect .number v (v.negated? box)
  | toInteger v => exact w.reads_expect .integer v v.toInteger?
  | toFloat v => exact w.reads_expect .double v v.toFloat?
  | toText v => exact w.reads_expect .string v v.toText?
  | getSettings => exact w.reads_getSettings
  | loadSettings =>
    obtain ⟨log, -, after⟩ := w.readEnvFile_eq
    refine reads_of_log log ?_
    rw [step, loadSettings, after]
    cases Settings.load w.environment w.envFile <;> rfl
  | configure p =>
    obtain ⟨log, after⟩ := configure_eq p w
    exact reads_of_log log after
  | logState => exact reads_of_log w.log rfl
  | setThreshold logger number => exact reads_of_log _ rfl
  | hostRecord module logger number message arguments =>
    simp only [step]
    split
    · split <;> exact reads_of_log _ rfl
    · exact reads_of_log _ rfl
  | _ => cases special

/-- **The rest moves on its own**: a step takes worlds that differ in the log and the settings read to
worlds that do so again. -/
theorem rest_step {v w : World} (same : v.rest = w.rest) (s : Step) :
    (v.step s).2.rest = (w.step s).2.rest := by
  cases plain : s.isPlain with
  | true =>
    rw [eq_alter_of_rest same, step_alter plain]
    rfl
  | false =>
    by_cases clears : s = .clearCache
    · subst clears
      exact same
    · rw [(v.reads_step plain clears).rest, (w.reads_step plain clears).rest, same]

theorem cache_step {s : Step} (keeps : s ≠ .clearCache) (w : World) :
    (w.step s).2.cache = w.cache ∨ (w.step s).2.cache = some w.getSettings.1 := by
  cases plain : s.isPlain with
  | true => exact .inl (cache_of_isPlain plain w)
  | false => exact (w.reads_step plain keeps).cache

/-! ## The settings that rendering goes by -/

/-- The settings that the environment has now; the defaults where it has none that can be read. -/
def settingsNow (w : World) : Settings :=
  match Settings.load w.environment w.envFile with
  | .ok s => s
  | .error _ => .default

theorem settingsNow_eq_of_rest {v w : World} (same : v.rest = w.rest) :
    v.settingsNow = w.settingsNow := by
  show v.rest.settingsNow = w.rest.settingsNow
  rw [same]

/-- Rendering goes by the settings that were read, or else by those that the environment has now. -/
theorem getSettings_fst (w : World) : w.getSettings.1 = w.cache.getD w.settingsNow := by
  rw [getSettings, settingsNow]
  cases w.cache with
  | some s => rfl
  | none =>
    cases loaded : Settings.load w.environment w.envFile with
    | ok s => simp only [loadSettings, loaded, Option.getD_none]
    | error issue => simp only [loadSettings, loaded, Option.getD_none]

/-- Where the settings of the environment change, the step is plain. -/
theorem isPlain_of_settingsNow {s : Step} {w : World}
    (changed : (w.step s).2.settingsNow ≠ w.settingsNow) : s.isPlain = true := by
  cases plain : s.isPlain with
  | true => rfl
  | false =>
    refine absurd (settingsNow_eq_of_rest ?_) changed
    by_cases clears : s = .clearCache
    · subst clears
      rfl
    · exact (w.reads_step plain clears).rest

/-- What rendering goes by changes only where the settings read are cleared or those of the environment
change. -/
theorem getSettings_step {s : Step} (keeps : s ≠ .clearCache) {w : World}
    (same : (w.step s).2.settingsNow = w.settingsNow) :
    (w.step s).2.getSettings.1 = w.getSettings.1 := by
  rw [getSettings_fst, same]
  rcases cache_step keeps w with kept | read
  · rw [kept, ← getSettings_fst]
  · rw [read, Option.getD_some]

/-! ## Answers -/

/-- The text of a value depends on the rest alone, and that of an array also on the settings. -/
theorem text_render_alter {w : World} {cache : Option Settings} {log : Log} {v : Value}
    (settings : ∀ a, v = .array a → (w.alter cache log).getSettings.1 = w.getSettings.1) :
    ((w.alter cache log).render v).1 = (w.render v).1 := by
  rcases v.array_or_other with ⟨a, rfl⟩ | other
  · rw [render_eq, render_eq, depthLimit, settings a rfl]
    rfl
  · rw [render, render, renderWithin_of_ne_array other, renderWithin_of_ne_array other]
    rfl

/-- Whether a conversion applies does not depend on the world. -/
theorem expect_fst_eq {α : Type} (expected : Expectation) (x : Value) (result : Option α)
    (v w : World) : (v.expect expected x result).1 = (w.expect expected x result).1 := by
  cases result <;> rfl

/-- **The answer of a step about something other than the log** depends on the rest alone, and on the
settings that rendering goes by where an array is rendered or they are asked for. -/
theorem answer_step {v w : World} (same : v.rest = w.rest) {s : Step} (ordinary : s.isOrdinary = true)
    (settings : s.goesBySettings = true → v.getSettings.1 = w.getSettings.1) :
    (v.step s).1 = (w.step s).1 := by
  obtain ⟨cache, log, rfl⟩ : ∃ cache log, v = w.alter cache log := ⟨_, _, eq_alter_of_rest same⟩
  cases plain : s.isPlain with
  | true => rw [step_alter plain]
  | false =>
    cases s with
    | render v =>
      have text : ((w.alter cache log).render v).1 = (w.render v).1 :=
        text_render_alter fun a array => settings (by rw [array]; rfl)
      exact congrArg (fun t => Except.ok (Answer.text t)) text
    | negate v box =>
      exact congrArg (Except.map Answer.value) (expect_fst_eq .number v (v.negated? box) _ _)
    | toInteger v =>
      exact congrArg (Except.map Answer.integer) (expect_fst_eq .integer v v.toInteger? _ _)
    | toFloat v => exact congrArg (Except.map Answer.double) (expect_fst_eq .double v v.toFloat? _ _)
    | toText v => exact congrArg (Except.map Answer.text) (expect_fst_eq .string v v.toText? _ _)
    | clearCache => rfl
    | getSettings => exact congrArg (fun s => Except.ok (Answer.settings s)) (settings rfl)
    | loadSettings =>
      rw [step, step, loadSettings, loadSettings, alter]
      cases Settings.load w.environment w.envFile <;> rfl
    | configure | logState | setThreshold | hostRecord => cases ordinary
    | _ => cases plain

/-! ## The two runs -/

/-- Two worlds that differ in the log and in whether the settings have been read, but not in what the
settings are. -/
structure Alike (v w : World) : Prop where
  /-- The rest is the same. -/
  rest : v.rest = w.rest
  /-- Rendering goes by the same settings. -/
  settings : v.getSettings.1 = w.getSettings.1

/-- **A step keeps worlds alike** unless it changes the settings of the environment while these have
been read in one of the two worlds only. -/
theorem Alike.step {v w : World} (alike : v.Alike w) {s : Step}
    (undisturbed : v.cache.isSome = w.cache.isSome ∨ (v.step s).2.settingsNow = v.settingsNow) :
    (v.step s).2.Alike (w.step s).2 := by
  have now := settingsNow_eq_of_rest alike.rest
  have nowAfter := settingsNow_eq_of_rest (rest_step alike.rest s)
  refine ⟨rest_step alike.rest s, ?_⟩
  by_cases clears : s = .clearCache
  · subst clears
    rw [getSettings_fst, getSettings_fst, nowAfter]
    rfl
  by_cases same : (v.step s).2.settingsNow = v.settingsNow
  · rw [getSettings_step clears same, alike.settings, getSettings_step clears]
    rw [← nowAfter, same, now]
  · have plain := isPlain_of_settingsNow same
    have both := undisturbed.resolve_right same
    have settings := alike.settings
    rw [getSettings_fst, getSettings_fst] at settings ⊢
    rw [cache_of_isPlain plain, cache_of_isPlain plain, nowAfter]
    revert both settings
    cases v.cache <;> cases w.cache <;> simp

theorem Alike.refl (w : World) : w.Alike w := ⟨rfl, rfl⟩

theorem rest_configure (w : World) (p : Profile) : (w.step (.configure p)).2.rest = w.rest := by
  obtain ⟨log, after⟩ := configure_eq p w
  exact (reads_of_log log after).rest

/-- An attempt at configuring in one of two worlds keeps them alike. -/
theorem Alike.configure {v w : World} (alike : v.Alike w) (p : Profile) :
    (v.step (.configure p)).2.Alike w := by
  have keeps : Step.configure p ≠ .clearCache := nofun
  have rest := v.rest_configure p
  refine ⟨rest.trans alike.rest, ?_⟩
  rw [getSettings_step keeps (settingsNow_eq_of_rest rest), alike.settings]

/-- If a step leaves worlds alike that were so before, it has not changed the settings of the
environment while these had been read in one of the two worlds only. -/
theorem Alike.undisturbed {v w : World} (alike : v.Alike w) {s : Step}
    (after : (v.step s).2.Alike (w.step s).2) :
    v.cache.isSome = w.cache.isSome ∨ (v.step s).2.settingsNow = v.settingsNow := by
  by_cases same : (v.step s).2.settingsNow = v.settingsNow
  · exact .inr same
  have plain := isPlain_of_settingsNow same
  have now := settingsNow_eq_of_rest alike.rest
  have nowAfter := settingsNow_eq_of_rest after.rest
  have settings := alike.settings
  have settingsAfter := after.settings
  rw [getSettings_fst, getSettings_fst] at settings settingsAfter
  rw [cache_of_isPlain plain, cache_of_isPlain plain] at settingsAfter
  -- a world that has not read the settings goes by those of the environment, and so moves with them
  cases hv : v.cache <;> cases hw : w.cache
  all_goals simp only [hv, hw, Option.getD_none, Option.getD_some] at settings settingsAfter
  case none.none => exact .inl rfl
  case none.some => exact absurd (settingsAfter.trans settings.symm) same
  case some.none =>
    exact absurd (nowAfter.trans (settingsAfter.symm.trans (settings.trans now.symm))) same
  case some.some => exact .inl rfl

/-- The world after a run without its attempts at configuring. -/
def runCalm (w : World) (steps : List Step) : World := w.run (withoutConfiguring steps)

theorem runCalm_concat_configure (w : World) (steps : List Step) (p : Profile) :
    w.runCalm (steps ++ [.configure p]) = w.runCalm steps := by
  have configures : (Step.configure p).isConfigure = true := rfl
  rw [runCalm, withoutConfiguring_concat, if_pos configures, List.append_nil, runCalm]

theorem runCalm_concat (w : World) (steps : List Step) {s : Step} (other : s.isConfigure = false) :
    w.runCalm (steps ++ [s]) = ((w.runCalm steps).step s).2 := by
  rw [runCalm, withoutConfiguring_concat, other, if_neg Bool.false_ne_true, run_append, run_cons,
    run_nil, runCalm]

/-- **The rest is the same in both runs.** -/
theorem rest_run (w : World) (steps : List Step) : (w.run steps).rest = (w.runCalm steps).rest := by
  induction steps using List.reverseRecOn with
  | nil => rfl
  | append_singleton steps s ih =>
    rw [run_append]
    cases configures : s.isConfigure with
    | false =>
      rw [runCalm_concat w steps configures]
      exact rest_step ih s
    | true =>
      obtain ⟨p, rfl⟩ := Step.eq_configure_of_isConfigure configures
      rw [runCalm_concat_configure]
      exact (rest_configure _ p).trans ih

/-- At no moment of a run are the settings of the environment changed while they have been read in only
one of the run itself and the run without its attempts at configuring. -/
def Undisturbed (w : World) (steps : List Step) : Prop :=
  ∀ i < steps.length,
    (w.run (steps.take i)).cache.isSome = (w.runCalm (steps.take i)).cache.isSome ∨
      (w.run (steps.take (i + 1))).settingsNow = (w.run (steps.take i)).settingsNow

instance (w : World) (steps : List Step) : Decidable (w.Undisturbed steps) :=
  Nat.decidableBallLT steps.length _

/-- A run that is not disturbed stays like the run without its attempts at configuring. -/
theorem Undisturbed.alike {w : World} {steps : List Step} (undisturbed : w.Undisturbed steps) {i : Nat}
    (le : i ≤ steps.length) : (w.run (steps.take i)).Alike (w.runCalm (steps.take i)) := by
  induction i with
  | zero => exact .refl w
  | succ i ih =>
    have alike := ih (by omega)
    have calm := undisturbed i le
    rw [List.take_succ_eq_append_getElem le, run_append] at calm ⊢
    cases configures : steps[i].isConfigure with
    | false =>
      rw [runCalm_concat w _ configures]
      exact alike.step calm
    | true =>
      obtain ⟨p, same⟩ := Step.eq_configure_of_isConfigure configures
      rw [same, runCalm_concat_configure]
      exact alike.configure p

/-- **A run is undisturbed if and only if the settings** that rendering goes by are the same at every
moment in the run without its attempts at configuring. -/
theorem undisturbed_iff {w : World} {steps : List Step} :
    w.Undisturbed steps ↔ ∀ i ≤ steps.length,
      (w.run (steps.take i)).getSettings.1 = (w.runCalm (steps.take i)).getSettings.1 := by
  refine ⟨fun undisturbed i le => (undisturbed.alike le).settings, fun settings i lt => ?_⟩
  have alike (j : Nat) (le : j ≤ steps.length) :
      (w.run (steps.take j)).Alike (w.runCalm (steps.take j)) := ⟨w.rest_run _, settings j le⟩
  have before := alike i (Nat.le_of_lt lt)
  have after := alike (i + 1) lt
  rw [List.take_succ_eq_append_getElem lt, run_append] at after ⊢
  cases configures : steps[i].isConfigure with
  | false =>
    rw [runCalm_concat w _ configures] at after
    exact before.undisturbed after
  | true =>
    obtain ⟨p, same⟩ := Step.eq_configure_of_isConfigure configures
    rw [same]
    exact .inr (settingsNow_eq_of_rest (rest_configure _ p))

/-- Answers of some kind are the same in both runs if each of them is. -/
theorem answers_eq_of_each {w : World} {kind : Step → Bool} {steps : List Step}
    (other : ∀ s, kind s = true → s.isConfigure = false)
    (each : ∀ i (lt : i < steps.length), kind steps[i] = true →
      ((w.run (steps.take i)).step steps[i]).1 = ((w.runCalm (steps.take i)).step steps[i]).1) :
    w.answers kind steps = w.answers kind (withoutConfiguring steps) := by
  induction steps using List.reverseRecOn with
  | nil => rfl
  | append_singleton steps s ih =>
    have last := each steps.length (by simp)
    rw [List.getElem_concat_length rfl, List.take_left] at last
    have earlier := ih fun i lt => by
      have here := each i (by simp; omega)
      rwa [List.getElem_append_left lt, List.take_append_of_le_length (Nat.le_of_lt lt)] at here
    rw [answers_concat, withoutConfiguring_concat, earlier]
    cases asked : kind s with
    | true =>
      rw [other s asked, if_neg Bool.false_ne_true, answers_concat, asked, last asked, runCalm]
    | false =>
      rw [if_neg Bool.false_ne_true]
      split
      · rw [List.append_nil, List.append_nil]
      · rw [answers_concat, asked, if_neg Bool.false_ne_true]

/-- **Logging can be observed through the settings alone.**  Of two runs with the same steps, apart from
attempts at configuring in the first of them, every answer is the same that is neither about the log nor
by the settings that rendering goes by.  All answers that are not about the log are the same if the run
is undisturbed; and it is undisturbed if and only if asking for the settings would have the same answer
in both runs at every moment. -/
theorem answers_withoutConfiguring {w : World} {steps : List Step} :
    w.answers Step.ignoresSettings steps =
      w.answers Step.ignoresSettings (withoutConfiguring steps) ∧
    (w.Undisturbed steps →
      w.answers Step.isOrdinary steps = w.answers Step.isOrdinary (withoutConfiguring steps)) ∧
    (w.Undisturbed steps ↔ ∀ i ≤ steps.length,
      ((w.run (steps.take i)).step .getSettings).1 =
        ((w.run (withoutConfiguring (steps.take i))).step .getSettings).1) := by
  refine ⟨?_, fun undisturbed => ?_, ?_⟩
  · refine answers_eq_of_each (fun s asked => ?_) fun i lt asked => ?_
    all_goals obtain ⟨ordinary, ignores⟩ := Bool.and_eq_true_iff.mp asked
    · exact Step.isConfigure_of_isOrdinary ordinary
    · refine answer_step (w.rest_run _) ordinary fun goes => ?_
      simp [goes] at ignores
  · refine answers_eq_of_each (fun s => Step.isConfigure_of_isOrdinary) fun i lt ordinary => ?_
    have alike := undisturbed.alike (Nat.le_of_lt lt)
    exact answer_step alike.rest ordinary fun _ => alike.settings
  · have asked (u : World) : (u.step .getSettings).1 = .ok (.settings u.getSettings.1) := rfl
    simp only [undisturbed_iff, runCalm, asked, Except.ok.injEq, Answer.settings.injEq]

/-- A process that asks for records for debugging. -/
def debugging : World := fresh (.ofList [("LOXRT_LOG_FILTER", "debug")]) none .silent

/-- An array in an array is refused as an integer.  Then no array is to be shown in another any more,
with or without forgetting the settings first, and the outer array is rendered. -/
def lessDepth (forgetting : List Step) : List Step :=
  [.create (.array ⟨1, []⟩), .create (.array ⟨1, [.array ⟨0⟩]⟩), .configure .plain,
    .toInteger (.array ⟨1⟩)] ++ forgetting ++
  [.setVariable "LOXRT_MAX_RENDER_DEPTH" (some "1"), .render (.array ⟨1⟩)]

/-- The record of the refused array has read the settings, so the change comes too late for the last
rendering; without configuring it comes in time. -/
theorem lessDepth_observed :
    debugging.answers Step.isOrdinary (lessDepth []) ≠
      debugging.answers Step.isOrdinary (withoutConfiguring (lessDepth [])) := by
  decide +kernel

/-- When the settings are forgotten in between, configuring cannot be observed. -/
theorem lessDepth_forgetting :
    debugging.Undisturbed (lessDepth [.clearCache]) ∧
    debugging.answers Step.isOrdinary (lessDepth [.clearCache]) =
      debugging.answers Step.isOrdinary (withoutConfiguring (lessDepth [.clearCache])) := by
  have undisturbed : debugging.Undisturbed (lessDepth [.clearCache]) := by decide +kernel
  exact ⟨undisturbed, answers_withoutConfiguring.2.1 undisturbed⟩

end World
end LoxValues
