import LoxValues.Decimal.Notation

/-!
# Severities

How grave a log record is: a number, and the name it is written under.  Seven severities have names
of their own.  The host's logging knows five of these by number; any other number it uses is
written out as it is.
-/

set_option autoImplicit false
namespace LoxValues

/-- A severity. -/
structure Severity where
  /-- The name. -/
  name : String
  /-- The number; graver is greater. -/
  number : Int
  deriving DecidableEq

namespace Severity

/-- Finer than debugging. -/
def trace : Severity := ⟨"TRACE", 5⟩

/-- For debugging. -/
def debug : Severity := ⟨"DEBUG", 10⟩

/-- For information. -/
def info : Severity := ⟨"INFO", 20⟩

/-- Good news. -/
def success : Severity := ⟨"SUCCESS", 25⟩

/-- A warning. -/
def warning : Severity := ⟨"WARNING", 30⟩

/-- An error. -/
def error : Severity := ⟨"ERROR", 40⟩

/-- An error that ends everything. -/
def critical : Severity := ⟨"CRITICAL", 50⟩

/-- The severities with names of their own. -/
def known : List Severity := [trace, debug, info, success, warning, error, critical]

/-- The severity with a given name. -/
def named? (name : String) : Option Severity := known.find? fun s => s.name == name

/-- The severities that the host's logging has names for. -/
def knownToHost : List Severity := [debug, info, warning, error, critical]

/-- The severity of a record from the host's logging. -/
def ofHost (number : Int) : Severity :=
  (knownToHost.find? fun s => s.number == number).getD ⟨"Level " ++ intText number, number⟩

end Severity
end LoxValues
