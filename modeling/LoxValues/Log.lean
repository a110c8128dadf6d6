import LoxValues.Log.Loggers
import LoxValues.Log.Sink

/-!
# The log

Everything about logging that outlives a call: whether the library's own records are wanted at all,
the sinks, the profile that was configured last, what connects the host's logging to the sinks, and
all lines written so far.
-/

set_option autoImplicit false
namespace LoxValues

/-- The state of logging. -/
structure Log where
  /-- Are the library's own records wanted? -/
  enabled : Bool
  /-- Where records are written. -/
  sinks : List Sink
  /-- The profile that was configured last. -/
  profile : Option Profile
  /-- How many handlers pass on the host's records. -/
  intercepts : Nat
  /-- The loggers of the host. -/
  loggers : Loggers
  /-- All lines written, in order. -/
  written : List Line
  deriving DecidableEq

namespace Log

/-- Logging before anybody configured it. -/
def silent : Log := ⟨false, [], none, 0, .initial, []⟩

/-- Logging with a sink that takes everything from debugging on, which nobody configured. -/
def listening : Log := { silent with enabled := true, sinks := [⟨.plain, 10, .empty⟩] }

/-- Is one of the library's own records of this severity worth making? -/
def hears (l : Log) (severity : Severity) : Bool :=
  l.enabled && l.sinks.any fun s => s.hears severity

/-- A record is given to every sink. -/
def offer (l : Log) (r : Record) : Log :=
  { l with written := l.written ++ (l.sinks.filter fun s => s.accepts r).map fun s => s.line r }

/-! ## The host's logging -/

/-- The log with the threshold of a logger of the host set. -/
def setThreshold (l : Log) (logger : String) (number : Int) : Log :=
  { l with loggers := l.loggers.setThreshold logger number }

/-- Ask a logger of the host if a record of this severity is passed on. -/
def askHost (l : Log) (logger : String) (severity : Severity) : Bool × Log :=
  let (heard, loggers) := l.loggers.ask logger severity.number
  (heard && 0 < l.intercepts, { l with loggers := loggers })

/-- A record from the host's logging is given to every sink by every handler. -/
def passOn (l : Log) (r : Record) : Log := (List.replicate l.intercepts r).foldl offer l

/-- A record from the host's logging, which is passed on if its logger takes it. -/
def offerHost (l : Log) (logger : String) (r : Record) : Log :=
  let (heard, l) := l.askHost logger r.severity
  if heard then l.passOn r else l

end Log
end LoxValues
