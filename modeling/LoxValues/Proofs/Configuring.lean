import LoxValues.Proofs.Frame
import LoxValues.World.Configuration

/-!
# Attempts at configuring

What comes of an attempt at configuring the log is one of four things (`Attempt`), which can be told
beforehand from the world (`World.attempt`).  `World.configure_cases` says what each of the four
answers and changes.
-/

set_option autoImplicit false
namespace LoxValues

/-- What comes of an attempt at configuring the log. -/
inductive Attempt where
  /-- The profile is the recorded one: nothing is done. -/
  | kept
  /-- The settings cannot be read: the attempt fails before anything is changed. -/
  | refused
  /-- The filter has an unknown level: the attempt fails when the sinks have been taken away. -/
  | stripped
  /-- There is a new sink. -/
  | established
  deriving DecidableEq

/-- Does the attempt decide about the sinks? -/
def Attempt.isDecisive : Attempt → Bool
  | .kept | .refused => false
  | .stripped | .established => true

theorem Sink.profile_ofFilter {profile : Profile} {f : LogFilter} {s : Sink}
    (made : Sink.ofFilter profile f = .ok s) : s.profile = profile := by
  revert made
  fun_cases Sink.ofFilter profile f with
  | case1 => intro made; cases made
  | case2 => intro made; cases made
  | case3 =>
    intro made
    cases made
    rfl

namespace World

/-- What comes of an attempt at configuring the log for a profile. -/
def attempt (w : World) (profile : Profile) : Attempt :=
  if w.log.profile = some profile then .kept
  else
    match Settings.load w.environment w.envFile with
    | .error _ => .refused
    | .ok settings =>
      match Sink.ofFilter profile (.parse settings.logFilter) with
      | .error _ => .stripped
      | .ok _ => .established

/-- **What an attempt at configuring answers and changes**, by what comes of it. -/
theorem configure_cases (profile : Profile) (w : World) :
    (w.attempt profile = .kept ∧ w.log.profile = some profile ∧ w.configure profile = (.ok (), w)) ∨
    ∃ log : Log, log.setup = w.log.setup ∧
      ((w.attempt profile = .refused ∧ ∃ issue,
        w.configure profile = (.error (.settings issue), { w with log := log })) ∨
      (w.attempt profile = .stripped ∧ ∃ fault,
        w.configure profile = (.error fault, { w with log := { log with sinks := [] } })) ∨
      (w.attempt profile = .established ∧ ∃ sink : Sink, sink.profile = profile ∧
        w.configure profile = (.ok (), { w with log := { log with
          sinks := [sink]
          enabled := true
          intercepts := if log.intercepts = 0 then 1 else log.intercepts
          profile := some profile } }))) := by
  rw [attempt, configure]
  by_cases recorded : w.log.profile = some profile
  · exact .inl ⟨if_pos recorded, recorded, if_pos recorded⟩
  · obtain ⟨log, setup, read⟩ := w.readEnvFile_eq
    refine .inr ⟨log, setup, ?_⟩
    rw [if_neg recorded, if_neg recorded, loadSettings, read]
    cases Settings.load w.environment w.envFile with
    | error issue => exact .inl ⟨rfl, issue, rfl⟩
    | ok settings =>
      dsimp only
      cases made : Sink.ofFilter profile (.parse settings.logFilter) with
      | error fault => exact .inr (.inl ⟨rfl, fault, rfl⟩)
      | ok sink => exact .inr (.inr ⟨rfl, sink, Sink.profile_ofFilter made, rfl⟩)

/-- Configuring changes the log at most. -/
theorem configure_eq (profile : Profile) (w : World) :
    ∃ log, (w.configure profile).2 = { w with log := log } := by
  obtain ⟨-, -, done⟩ | ⟨log, -, ⟨-, issue, done⟩ | ⟨-, fault, done⟩ | ⟨-, sink, -, done⟩⟩ :=
    configure_cases profile w
  all_goals
    rw [done]
    exact ⟨_, rfl⟩

end World
end LoxValues
