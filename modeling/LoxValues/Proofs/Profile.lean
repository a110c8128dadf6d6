import LoxValues.Proofs.Run
import Mathlib.Data.List.Induction

/-!
# The recorded profile

An attempt at configuring trusts the recorded profile: if it is the one asked for, nothing is done.
The profile is recorded last, but sinks are taken away before, so an attempt for another profile
that fails in between leaves a profile on record that has no sink any more.

`World.attempts` are the attempts of a run, and `lastDecisive` is the last of them that took away or
put up sinks.  What a run leaves of the log agrees with it (`World.agrees_run`).  So an attempt that
returns has configured the log if and only if the last decisive attempt up to then, perhaps
itself, put up a sink (`World.configuredFor_iff`).
-/

set_option autoImplicit false
namespace LoxValues

/-- A log that nobody has configured, whatever sinks it has. -/
structure Log.Unconfigured (l : Log) : Prop where
  /-- The library's own records are not wanted. -/
  enabled : l.enabled = false
  /-- No profile is recorded. -/
  profile : l.profile = none
  /-- The host's records are not passed on. -/
  intercepts : l.intercepts = 0

/-- A log that is configured for a profile. -/
structure Log.ConfiguredFor (l : Log) (profile : Profile) : Prop where
  /-- There is one sink, and it is that of the profile. -/
  sink : ∃ s : Sink, l.sinks = [s] ∧ s.profile = profile
  /-- The library's own records are wanted. -/
  enabled : l.enabled = true
  /-- One handler passes on the host's records. -/
  intercepts : l.intercepts = 1

/-! ## The attempts of a run -/

/-- What comes of the attempt at configuring that a step is, if it is one. -/
def World.attemptOf? (w : World) : Step → Option Attempt
  | .configure profile => some (w.attempt profile)
  | _ => none

/-- What comes of the attempts at configuring in a run, in order. -/
def World.attempts (w : World) : List Step → List Attempt
  | [] => []
  | s :: steps => (w.attemptOf? s).toList ++ (w.step s).2.attempts steps

theorem World.attempts_concat (w : World) (steps : List Step) (s : Step) :
    w.attempts (steps ++ [s]) = w.attempts steps ++ ((w.run steps).attemptOf? s).toList := by
  induction steps generalizing w with
  | nil => rw [List.nil_append, attempts, attempts, attempts, List.append_nil, List.nil_append, run_nil]
  | cons first steps ih => rw [List.cons_append, attempts, attempts, ih, List.append_assoc, run_cons]

/-- The last attempt that took away or put up sinks. -/
def lastDecisive (attempts : List Attempt) : Option Attempt :=
  (attempts.filter Attempt.isDecisive).getLast?

theorem lastDecisive_concat (attempts : List Attempt) (a : Attempt) :
    lastDecisive (attempts ++ [a]) = if a.isDecisive then some a else lastDecisive attempts := by
  rw [lastDecisive, List.filter_append, List.filter_cons, List.filter_nil]
  split
  · rw [List.getLast?_concat]
  · rw [List.append_nil, lastDecisive]

/-- The log agrees with the last decisive attempt: what is recorded has been configured, and its
sink is still there unless it was taken away. -/
structure Log.Agrees (l : Log) (last : Option Attempt) : Prop where
  /-- Never more than one handler passes on the host's records. -/
  intercepts_le : l.intercepts ≤ 1
  /-- Where a profile is recorded, records are wanted and passed on. -/
  recorded : ∀ p, l.profile = some p → l.enabled = true ∧ l.intercepts = 1
  /-- Where a profile is recorded, its sink is the only one, or it was taken away. -/
  sinks : ∀ p, l.profile = some p →
    (last = some .established ∧ ∃ s : Sink, l.sinks = [s] ∧ s.profile = p) ∨
    (last = some .stripped ∧ l.sinks = [])

namespace Log.Agrees

variable {l m : Log} {last : Option Attempt}

theorem of_setup (agrees : l.Agrees last) (same : m.setup = l.setup) : m.Agrees last := by
  have moved : l.setup.Agrees last := ⟨agrees.intercepts_le, agrees.recorded, agrees.sinks⟩
  rw [← same] at moved
  exact ⟨moved.intercepts_le, moved.recorded, moved.sinks⟩

theorem of_unconfigured (unconfigured : l.Unconfigured) : l.Agrees last where
  intercepts_le := by
    rw [unconfigured.intercepts]
    exact Nat.zero_le 1
  recorded p some := by
    rw [unconfigured.profile] at some
    cases some
  sinks p some := by
    rw [unconfigured.profile] at some
    cases some

/-- When the sinks have been taken away, what is recorded stays. -/
theorem strip (agrees : l.Agrees last) : { l with sinks := [] }.Agrees (some .stripped) where
  intercepts_le := agrees.intercepts_le
  recorded := agrees.recorded
  sinks _ _ := .inr ⟨rfl, rfl⟩

/-- When a sink has been put up, its profile is recorded. -/
theorem establish (agrees : l.Agrees last) (s : Sink) :
    { l with
      sinks := [s]
      enabled := true
      intercepts := if l.intercepts = 0 then 1 else l.intercepts
      profile := some s.profile }.Agrees (some .established) := by
  have one : (if l.intercepts = 0 then 1 else l.intercepts) = 1 := by
    have := agrees.intercepts_le
    split <;> omega
  refine ⟨Nat.le_of_eq one, fun p _ => ⟨rfl, one⟩, fun p recorded => .inl ⟨rfl, s, rfl, ?_⟩⟩
  exact Option.some.inj recorded

end Log.Agrees

namespace World

/-- **A step keeps the log in agreement** with the last decisive attempt. -/
theorem agrees_step {w : World} {attempts : List Attempt}
    (agrees : w.log.Agrees (lastDecisive attempts)) (s : Step) :
    (w.step s).2.log.Agrees (lastDecisive (attempts ++ (w.attemptOf? s).toList)) := by
  by_cases configuring : ∃ p, s = .configure p
  · obtain ⟨p, rfl⟩ := configuring
    show (w.configure p).2.log.Agrees (lastDecisive (attempts ++ [w.attempt p]))
    rw [lastDecisive_concat]
    obtain ⟨outcome, -, done⟩ | ⟨log, setup, ⟨outcome, issue, done⟩ | ⟨outcome, fault, done⟩ |
      ⟨outcome, sink, rfl, done⟩⟩ := configure_cases p w
    · rw [outcome, done]
      exact agrees
    · rw [outcome, done]
      exact agrees.of_setup setup
    · rw [outcome, done]
      exact (agrees.of_setup setup).strip
    · rw [outcome, done]
      exact (agrees.of_setup setup).establish sink
  · have other : ∀ p, s ≠ .configure p := fun p same => configuring ⟨p, same⟩
    have none : w.attemptOf? s = none := by
      rw [attemptOf?]
      exact other
    rw [none, Option.toList_none, List.append_nil]
    exact agrees.of_setup (congrArg (·.2.2) (frame_step other w))

/-- **After every run** from an unconfigured log, the log agrees with the last decisive attempt. -/
theorem agrees_run {w : World} (unconfigured : w.log.Unconfigured) (steps : List Step) :
    (w.run steps).log.Agrees (lastDecisive (w.attempts steps)) := by
  induction steps using List.reverseRecOn with
  | nil => exact .of_unconfigured unconfigured
  | append_singleton steps s ih =>
    rw [attempts_concat, run_append]
    exact agrees_step ih s

/-- An attempt that returns leaves the profile on record. -/
theorem profile_configure {w : World} {p : Profile} (returned : (w.configure p).1 = .ok ()) :
    (w.configure p).2.log.profile = some p := by
  obtain ⟨-, recorded, done⟩ | ⟨log, -, ⟨-, issue, done⟩ | ⟨-, fault, done⟩ | ⟨-, sink, -, done⟩⟩ :=
    configure_cases p w
  · rw [done]
    exact recorded
  · rw [done] at returned
    cases returned
  · rw [done] at returned
    cases returned
  · rw [done]

/-- **When an attempt that returns has configured the log.**  After any run from an unconfigured
log, library records are wanted and the host's are passed on by one handler.  The sink of the
profile is there, and the only one, if and only if of all attempts that took away or put up sinks
the last put one up; otherwise there is none. -/
theorem configuredFor_iff {w : World} {steps : List Step} {p : Profile}
    (unconfigured : w.log.Unconfigured) (returned : ((w.run steps).configure p).1 = .ok ()) :
    ((w.run steps).configure p).2.log.enabled = true ∧
    ((w.run steps).configure p).2.log.intercepts = 1 ∧
    (((w.run steps).configure p).2.log.ConfiguredFor p ↔
      lastDecisive (w.attempts (steps ++ [.configure p])) = some .established) ∧
    (¬ ((w.run steps).configure p).2.log.ConfiguredFor p →
      ((w.run steps).configure p).2.log.sinks = []) := by
  have agrees := agrees_run unconfigured (steps ++ [.configure p])
  rw [run_append] at agrees
  replace agrees : ((w.run steps).configure p).2.log.Agrees _ := agrees
  have profile := profile_configure returned
  obtain ⟨enabled, intercepts⟩ := agrees.recorded p profile
  refine ⟨enabled, intercepts, ?_⟩
  obtain ⟨last, sink⟩ | ⟨last, none⟩ := agrees.sinks p profile
  · have configured : ((w.run steps).configure p).2.log.ConfiguredFor p := ⟨sink, enabled, intercepts⟩
    exact ⟨iff_of_true configured last, fun not => absurd configured not⟩
  · rw [last]
    have unconfigured : ¬ ((w.run steps).configure p).2.log.ConfiguredFor p := by
      rintro ⟨⟨s, one, -⟩, -, -⟩
      rw [none] at one
      cases one
    exact ⟨iff_of_false unconfigured (by simp), fun _ => none⟩

/-- Configured for plain lines; an attempt for pretty ones that fails for its filter; and, with the
filter as it was, an attempt for plain lines again. -/
def failedSwitch : List Step :=
  [.configure .plain, .setVariable "LOXRT_LOG_FILTER" (some "bogus"), .configure .pretty,
    .setVariable "LOXRT_LOG_FILTER" none]

/-- After a switch of profiles that failed, configuring for the old profile returns and leaves the
log without a sink. -/
theorem failedSwitch_not_configured :
    (((fresh .empty none .silent).run failedSwitch).configure .plain).1 = .ok () ∧
    ¬ (((fresh .empty none .silent).run failedSwitch).configure .plain).2.log.ConfiguredFor .plain ∧
    (((fresh .empty none .silent).run failedSwitch).configure .plain).2.log.sinks = [] := by
  have unconfigured : (fresh .empty none .silent).log.Unconfigured := ⟨rfl, rfl, rfl⟩
  have returned : (((fresh .empty none .silent).run failedSwitch).configure .plain).1 = .ok () := by
    decide +kernel
  obtain ⟨-, -, iff, otherwise⟩ := configuredFor_iff unconfigured returned
  have not : ¬ (((fresh .empty none .silent).run failedSwitch).configure .plain).2.log.ConfiguredFor
      .plain := by
    rw [iff]
    decide +kernel
  exact ⟨returned, not, otherwise not⟩

end World
end LoxValues
