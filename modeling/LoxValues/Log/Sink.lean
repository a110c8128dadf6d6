import LoxValues.Fault
import LoxValues.Log.Filter
import LoxValues.Log.Severity

/-!
# Sinks

A sink is where log records are written.  It takes a record in two steps: `Sink.hears` asks for the
severity alone and decides whether the record's message is worth making; `Sink.accepts` then asks
for the module as well.
-/

set_option autoImplicit false
namespace LoxValues

/-- How a sink writes. -/
inductive Profile where
  /-- In plain lines that name the module. -/
  | plain
  /-- For the eye, without the module. -/
  | pretty
  deriving DecidableEq

/-- A log record. -/
structure Record where
  /-- How grave it is. -/
  severity : Severity
  /-- The module it comes from. -/
  module : String
  /-- What it says. -/
  message : String
  deriving DecidableEq

/-- A record as a sink writes it. -/
structure Line where
  /-- The name of the severity. -/
  severity : String
  /-- The module, where it is written. -/
  module : Option String
  /-- What the record says. -/
  message : String
  deriving DecidableEq

/-- A place where records are written. -/
structure Sink where
  /-- How it writes. -/
  profile : Profile
  /-- The severity from which on it hears records. -/
  threshold : Int
  /-- What it accepts from single modules. -/
  rules : Table (Rule Int)
  deriving DecidableEq

namespace Sink

/-- Is a record of this severity worth making for the sink? -/
def hears (s : Sink) (severity : Severity) : Bool := decide (s.threshold ≤ severity.number)

/-- Is the record written? -/
def accepts (s : Sink) (r : Record) : Bool :=
  s.hears r.severity &&
    match ruleFor? s.rules r.module with
    | none => true
    | some .silent => false
    | some (.atLeast n) => decide (n ≤ r.severity.number)

/-- The record as the sink writes it. -/
def line (s : Sink) (r : Record) : Line :=
  ⟨r.severity.name, if s.profile = .pretty then none else some r.module, r.message⟩

/-- The rules of a filter with the levels' numbers for their names, if all names are known. -/
def numbered : List (String × Rule String) → Except Fault (List (String × Rule Int))
  | [] => .ok []
  | (module, .silent) :: rest => (numbered rest).map fun rules => (module, .silent) :: rules
  | (module, .atLeast level) :: rest =>
    match Severity.named? level with
    | none => .error (.unknownModuleLevel module level)
    | some s => (numbered rest).map fun rules => (module, .atLeast s.number) :: rules

/-- The sink for a filter.  The levels of modules are looked up before the level for everything. -/
def ofFilter (profile : Profile) (f : LogFilter) : Except Fault Sink :=
  match numbered f.modules.entries with
  | .error fault => .error fault
  | .ok rules =>
    let level := String.ofList (Text.upper f.level.toList)
    match Severity.named? level with
    | none => .error (.unknownLevel level)
    | some s => .ok ⟨profile, s.number, .ofList rules⟩

end Sink
end LoxValues
