import LoxValues.Settings.Depth
import LoxValues.Settings.EnvFile
import LoxValues.Text.CaseMap

/-!
# Settings

Two settings come from the environment: the log filter and the number of arrays that may be
rendered inside one another.  A variable of the process wins over the environment file, also when
its value is invalid, and the file wins over the defaults.  Letter case does not count in the
names; of two names that differ only in case, the later one counts.
-/

set_option autoImplicit false
namespace LoxValues

open Text

/-- The settings. -/
structure Settings where
  /-- Which log records are written, in the notation of `LogFilter.parse`. -/
  logFilter : String
  /-- How many arrays may be rendered inside one another. -/
  maxRenderDepth : Nat
  deriving DecidableEq

namespace Settings

/-- The settings where nothing is said. -/
def default : Settings := ⟨"info", 64⟩

/-- The name of the log filter among the variables, in lower case. -/
def logFilterName : String := "loxrt_log_filter"

/-- The name of the rendering depth among the variables, in lower case. -/
def maxRenderDepthName : String := "loxrt_max_render_depth"

/-! ## Loading -/

/-- What the last of the entries with a given name, up to letter case, says. -/
def lastNamed? {α : Type} (name : String) (t : Table α) : Option α :=
  (t.entries.reverse.find? fun e => String.ofList (lower e.1.toList) == name).map Prod.snd

/-- What the process's variables, or else the environment file, say under a name. -/
def text? (environment : Table String) (file : Option String) (name : String) : Option String :=
  match lastNamed? name environment with
  | some s => some s
  | none => ((file.map (EnvFile.read environment)).bind (lastNamed? name)).join

/-- The settings of a process with these variables and this environment file. -/
def load (environment : Table String) (file : Option String) : Except DepthIssue Settings :=
  let logFilter := (text? environment file logFilterName).getD default.logFilter
  match text? environment file maxRenderDepthName with
  | none => .ok ⟨logFilter, default.maxRenderDepth⟩
  | some s => (Depth.read s).map fun n => ⟨logFilter, n⟩

end Settings
end LoxValues
