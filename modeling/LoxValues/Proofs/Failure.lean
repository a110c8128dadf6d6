import LoxValues.Proofs.Levels
import LoxValues.Proofs.Run

/-!
# Attempts at configuring that fail

An attempt at configuring can fail at two points.  Settings that cannot be read are met before
anything is done.  An unknown level in the filter is met only when the new sink is to be put up, and
by then the old sinks have been taken away.

So a failed attempt leaves alone whether the library's own records are wanted, which profile is on
record, and how the host's records are passed on.  The sinks it leaves alone in the first case only;
in the second there is none afterwards (`World.log_of_failed`).
-/

set_option autoImplicit false
namespace LoxValues.World

variable {w : World} {profile : Profile}

/-! ## The two points of failure -/

theorem attempt_eq_refused_iff :
    w.attempt profile = .refused ↔ w.log.profile ≠ some profile ∧
      ∃ issue, Settings.load w.environment w.envFile = .error issue := by
  rw [attempt]
  by_cases recorded : w.log.profile = some profile
  · simp [recorded]
  · rw [if_neg recorded]
    cases Settings.load w.environment w.envFile with
    | error issue => simp [recorded]
    | ok settings =>
      dsimp only
      cases Sink.ofFilter profile (.parse settings.logFilter) <;> simp

theorem attempt_eq_stripped_iff :
    w.attempt profile = .stripped ↔ w.log.profile ≠ some profile ∧
      ∃ settings, Settings.load w.environment w.envFile = .ok settings ∧
        ¬ settings.filter.LevelsKnown := by
  rw [attempt]
  by_cases recorded : w.log.profile = some profile
  · simp [recorded]
  · rw [if_neg recorded]
    cases Settings.load w.environment w.envFile with
    | error issue => simp
    | ok settings =>
      have known : (∃ s, Sink.ofFilter profile (.parse settings.logFilter) = .ok s) ↔
          settings.filter.LevelsKnown := Sink.exists_ofFilter_iff
      dsimp only
      cases made : Sink.ofFilter profile (.parse settings.logFilter) <;>
        simp [recorded, ← known, made]

/-! ## What a failure leaves -/

/-- **What an attempt that fails has changed**: at most lines and loggers where the settings cannot be
read, and besides these the sinks where the filter has an unknown level. -/
theorem failed_cases {fault : Fault} (failed : (w.configure profile).1 = .error fault) :
    ∃ log : Log, log.setup = w.log.setup ∧
      ((w.attempt profile = .refused ∧ (w.configure profile).2 = { w with log := log }) ∨
      (w.attempt profile = .stripped ∧
        (w.configure profile).2 = { w with log := { log with sinks := [] } })) := by
  obtain ⟨-, -, done⟩ | ⟨log, setup, ⟨outcome, issue, done⟩ | ⟨outcome, fault', done⟩ |
    ⟨-, sink, -, done⟩⟩ := configure_cases profile w
  · rw [done] at failed
    cases failed
  · exact ⟨log, setup, .inl ⟨outcome, by rw [done]⟩⟩
  · exact ⟨log, setup, .inr ⟨outcome, by rw [done]⟩⟩
  · rw [done] at failed
    cases failed

theorem exists_fault_iff : (∃ fault, (w.configure profile).1 = .error fault) ↔
    w.attempt profile = .refused ∨ w.attempt profile = .stripped := by
  constructor
  · rintro ⟨fault, failed⟩
    obtain ⟨log, -, ⟨refused, -⟩ | ⟨stripped, -⟩⟩ := failed_cases failed
    · exact .inl refused
    · exact .inr stripped
  · intro outcome
    obtain ⟨kept, -⟩ | ⟨log, -, ⟨-, issue, done⟩ | ⟨-, fault, done⟩ | ⟨established, -⟩⟩ :=
      configure_cases profile w
    · simp [kept] at outcome
    · exact ⟨_, by rw [done]⟩
    · exact ⟨_, by rw [done]⟩
    · simp [established] at outcome

/-- **What a failed attempt at configuring leaves.**  An attempt fails if and only if its profile is
not on record and the settings cannot be read, or can be read and have a level nobody knows in their
filter.  Then it is as before whether records are wanted, which profile is on record and how many
handlers pass on the host's records.  The sinks are as before if the settings could not be read or
there were none to begin with; otherwise there is none any more. -/
theorem log_of_failed :
    ((∃ fault, (w.configure profile).1 = .error fault) ↔ w.log.profile ≠ some profile ∧
      ((∃ issue, Settings.load w.environment w.envFile = .error issue) ∨
        ∃ settings, Settings.load w.environment w.envFile = .ok settings ∧
          ¬ settings.filter.LevelsKnown)) ∧
    ∀ fault, (w.configure profile).1 = .error fault →
      (w.configure profile).2.log.enabled = w.log.enabled ∧
      (w.configure profile).2.log.profile = w.log.profile ∧
      (w.configure profile).2.log.intercepts = w.log.intercepts ∧
      ((w.configure profile).2.log.sinks = w.log.sinks ↔
        (∃ issue, Settings.load w.environment w.envFile = .error issue) ∨ w.log.sinks = []) ∧
      ((w.configure profile).2.log.sinks ≠ w.log.sinks → (w.configure profile).2.log.sinks = []) := by
  refine ⟨?_, fun fault failed => ?_⟩
  · rw [exists_fault_iff, attempt_eq_refused_iff, attempt_eq_stripped_iff, and_or_left]
  · obtain ⟨log, setup, outcome⟩ := failed_cases failed
    obtain ⟨enabled, sinks, recorded, intercepts⟩ := Log.fields_eq_of_setup setup
    obtain ⟨refused, done⟩ | ⟨stripped, done⟩ := outcome
    · obtain ⟨-, unreadable⟩ := attempt_eq_refused_iff.mp refused
      rw [done]
      exact ⟨enabled, recorded, intercepts, iff_of_true sinks (.inl unreadable), absurd sinks⟩
    · obtain ⟨-, settings, loaded, -⟩ := attempt_eq_stripped_iff.mp stripped
      rw [done]
      refine ⟨enabled, recorded, intercepts, ?_, fun _ => rfl⟩
      simp [loaded, eq_comm]

/-- A process that is configured for plain lines and then given a filter with an unknown level. -/
def misfiltered : World :=
  (fresh .empty none .silent).run
    [.configure .plain, .setVariable "LOXRT_LOG_FILTER" (some "bogus")]

/-- Configuring `misfiltered` for pretty lines fails and takes away its sink.  The profile of the sink
stays on record. -/
theorem misfiltered_stripped :
    (misfiltered.configure .pretty).1 = .error (.unknownLevel "BOGUS") ∧
    (misfiltered.configure .pretty).2.log.profile = some .plain ∧
    (misfiltered.configure .pretty).2.log.sinks ≠ misfiltered.log.sinks ∧
    (misfiltered.configure .pretty).2.log.sinks = [] := by
  have failed : (misfiltered.configure .pretty).1 = .error (.unknownLevel "BOGUS") := by
    decide +kernel
  have recorded : misfiltered.log.profile = some .plain := by decide +kernel
  have listening : misfiltered.log.sinks ≠ [] := by decide +kernel
  have loaded : Settings.load misfiltered.environment misfiltered.envFile = .ok ⟨"bogus", 64⟩ := by
    decide +kernel
  obtain ⟨-, profile, -, atomic, otherwise⟩ := log_of_failed.2 _ failed
  have changed : (misfiltered.configure .pretty).2.log.sinks ≠ misfiltered.log.sinks := by
    rw [Ne, atomic, loaded]
    simp [listening]
  exact ⟨failed, profile.trans recorded, changed, otherwise changed⟩

end LoxValues.World
