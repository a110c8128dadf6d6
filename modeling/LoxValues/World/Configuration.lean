import LoxValues.World

/-!
# Configuring the log

Configuring reads the settings, takes away all sinks, puts up the one that the log filter describes,
enables the library's own records, and has the host's records passed on.  A profile that is already
configured is left as it is, whatever the settings say by now.

The steps happen in this order, and a failure leaves what was done before it: settings that cannot
be read change nothing but the lines written, while a filter with an unknown level leaves no sink at
all.
-/

set_option autoImplicit false
namespace LoxValues.World

/-- Configure the log for a profile. -/
def configure (profile : Profile) (w : World) : Except Fault Unit × World :=
  if w.log.profile = some profile then (.ok (), w)
  else
    match w.loadSettings with
    | (.error issue, w) => (.error (.settings issue), w)
    | (.ok settings, w) =>
      let cleared := { w.log with sinks := [] }
      match Sink.ofFilter profile (.parse settings.logFilter) with
      | .error fault => (.error fault, { w with log := cleared })
      | .ok sink =>
        (.ok (), { w with log := { cleared with
          sinks := [sink]
          enabled := true
          intercepts := if w.log.intercepts = 0 then 1 else w.log.intercepts
          profile := some profile } })

end LoxValues.World
