import LoxValues.Heap
import LoxValues.Log

/-!
# The world

Everything that operations read and change: the heap, the environment with its file, the settings
once they have been read, the arrays that are being rendered, how deep the host lets calls nest, and
the log.

A record of the library's own is made lazily: `World.tell` takes a function that makes the message,
and calls it only if some sink hears records of that severity.  Making a message may itself change
the world — rendering a value reads the settings and may leave records — and those changes come
before the record.
-/

set_option autoImplicit false
namespace LoxValues

/-- What operations read and change. -/
structure World where
  /-- The descriptors. -/
  heap : Heap
  /-- The variables of the process. -/
  environment : Table String
  /-- The text of the environment file, if there is one. -/
  envFile : Option String
  /-- The settings that rendering goes by, once they have been read. -/
  cache : Option Settings
  /-- The arrays that are being rendered, outermost first. -/
  rendering : List ArrayRef
  /-- How many calls the host lets nest. -/
  callLimit : Nat
  /-- The log. -/
  log : Log
  deriving DecidableEq

namespace World

/-- How many calls the host lets nest if nobody tells it otherwise. -/
def usualCallLimit : Nat := 1000

/-- A fresh world with nothing in the heap and nothing configured. -/
def fresh (environment : Table String) (envFile : Option String) (log : Log) : World :=
  ⟨.empty, environment, envFile, none, [], usualCallLimit, log⟩

/-! ## Records -/

/-- A record of the library's own, whose message is only made if some sink hears it. -/
def tell (severity : Severity) (module : String) (message : World → String × World) (w : World) :
    World :=
  if w.log.hears severity then
    let (text, w) := message w
    { w with log := w.log.offer ⟨severity, module, text⟩ }
  else w

/-- A record whose message is known. -/
def note (severity : Severity) (module message : String) (w : World) : World :=
  w.tell severity module fun w => (message, w)

/-! ## Settings -/

/-- The module and the logger that warn of statements in the environment file. -/
def envFileModule : String := "dotenv.main"

/-- The warning of a statement in the environment file that has none of the known forms. -/
def malformedStatement (line : Nat) : Record :=
  ⟨.warning, envFileModule,
    "python-dotenv could not parse statement starting at line " ++ Nat.repr line⟩

/-- Read the environment file: the host's logging is told of every malformed statement. -/
def readEnvFile (w : World) : World :=
  let warnings := ((w.envFile.map EnvFile.malformedLines).getD []).map malformedStatement
  { w with log := warnings.foldl (fun l r => l.offerHost envFileModule r) w.log }

/-- The settings as the environment has them now. -/
def loadSettings (w : World) : Except DepthIssue Settings × World :=
  (Settings.load w.environment w.envFile, w.readEnvFile)

/-- The settings that rendering goes by.  They are read once, when they are first asked for;
invalid ones are replaced by the defaults with a warning. -/
def getSettings (w : World) : Settings × World :=
  match w.cache with
  | some s => (s, w)
  | none =>
    match w.loadSettings with
    | (.ok s, w) => (s, { w with cache := some s })
    | (.error _, w) =>
      let w := w.note .warning "loxrt.config.settings" "settings.invalid errors=1"
      (.default, { w with cache := some .default })

/-- Forget the settings that were read. -/
def clearCache (w : World) : World := { w with cache := none }

/-- What is wrong with a variable that is to be set. -/
def variableFault? (name value : String) : Option Fault :=
  if '\x00' ∈ name.toList ∨ '\x00' ∈ value.toList then some .nullCharacter
  else if '=' ∈ name.toList then some .variableName
  else if name = "" then some .namelessVariable
  else none

/-- Set a variable of the process. -/
def setVariable (w : World) (name value : String) : Except Fault World :=
  match variableFault? name value with
  | some fault => .error fault
  | none => .ok { w with environment := w.environment.insert name value }

/-- Remove a variable of the process. -/
def removeVariable (w : World) (name : String) : World :=
  { w with environment := w.environment.erase name }

end World
end LoxValues
