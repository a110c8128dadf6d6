import LoxValues.Table
import LoxValues.Text.Blank
import LoxValues.Text.CaseMap

/-!
# Log filters

A log filter is a text such as `info,loxrt.eval=debug,loxrt.config=false`: a level for everything,
and levels for single modules, with `false` for a module that is to be silent.  The parts may come
in any order; blanks around them and empty parts do not count, nor does letter case, and what is
said later wins.
-/

set_option autoImplicit false
namespace LoxValues

open Text

/-- What a filter says about a module. -/
inductive Rule (α : Type) where
  /-- Nothing from it is written. -/
  | silent
  /-- What is at least this grave is written. -/
  | atLeast (level : α)
  deriving DecidableEq

/-- A log filter. -/
structure LogFilter where
  /-- The level for everything, in lower case. -/
  level : String
  /-- What is said about single modules, with levels in upper case. -/
  modules : Table (Rule String)
  deriving DecidableEq

namespace LogFilter

/-- The filter of an empty text. -/
def default : LogFilter := ⟨"info", .empty⟩

/-- What is said about a module by the text behind its `=`. -/
def rule (level : List Char) : Rule String :=
  if level = ['f', 'a', 'l', 's', 'e'] then .silent else .atLeast (String.ofList (upper level))

/-- The filter with one more part taken into account. -/
def add (f : LogFilter) (part : List Char) : LogFilter :=
  match cut? '=' part with
  | some (module, level) =>
    let name := String.ofList (trim isBlank module)
    { f with modules := f.modules.insert name (rule (trim isBlank level)) }
  | none => { f with level := String.ofList part }

/-- The parts of a text that are not empty, in lower case and without blanks around them. -/
def parts (text : List Char) : List (List Char) :=
  ((pieces ',' (lower text)).map (trim isBlank)).filter fun part => !part.isEmpty

/-- The filter that a text describes. -/
def parse (text : String) : LogFilter := (parts text.toList).foldl add default

end LogFilter

/-- The dotted names that a name lies under, the nearest first. -/
def enclosing : List Char → List (List Char)
  | [] => []
  | c :: rest => (enclosing rest).map (c :: ·) ++ if c = '.' then [[]] else []

/-- The names under which something may be said about a module, the most specific first: its own
name, the dotted names it lies under, and the empty name. -/
def covering (module : String) : List String :=
  module :: (enclosing module.toList).map String.ofList ++ [""]

/-- What the rules say about a module: the most specific rule decides, if there is any. -/
def ruleFor? {α : Type} (rules : Table (Rule α)) (module : String) : Option (Rule α) :=
  (covering module).findSome? rules.get?

end LoxValues
