import LoxValues.Log.Severity
import LoxValues.Table

/-!
# The host's loggers

A logger of the host is called by a name and comes into being when it is first asked for.  It takes
records from a severity on, its threshold; where it has none of its own, that of the logger it
stands below holds.

## Who stands below whom

A name may be cut at its dots, from the right, and a logger stands below the nearest one that exists
among those called by what is left of a cut (`above`, `parent?`).  Where none exists it stands below
the root.  Two points need care when dots follow each other or names are short.

* A dot right in front of a cut is no cut itself, so `a..b` may stand below `a.` but not below `a`.
  Yet `a.` stands below `a`, which is why what `a..b` goes by depends on whether `a.` exists.
* A logger that comes into being takes in those below it that exist already, unless they stand below
  a logger whose name starts with its own.  That is meant for nearer loggers, but the root's name
  is no exception: a logger called `r` leaves those below it with the root.

## What is remembered

A logger decides once on each severity and remembers the verdict until any threshold is set
(`ask`), also when loggers that come into being meanwhile would make it decide otherwise.
-/

set_option autoImplicit false
namespace LoxValues

/-- The loggers of the host. -/
structure Loggers where
  /-- The threshold of the root. -/
  root : Int
  /-- The thresholds of the loggers that exist, oldest first; zero where none was set. -/
  named : Table Int
  /-- What loggers decided on severities since a threshold was last set. -/
  verdicts : List ((String × Int) × Bool)
  deriving DecidableEq

namespace Loggers

/-- The loggers before anybody asked for one. -/
def initial : Loggers := ⟨Severity.warning.number, .empty, []⟩

/-- The name of the root, which is also meant when no name is given. -/
def rootName : String := "root"

/-- Is the root meant? -/
def isRoot (logger : String) : Bool := logger == "" || logger == rootName

/-! ## Who stands below whom -/

/-- What is left of a name at each of its cuts, nearest first.  All names are spelled backwards.
Each is shorter than the one before it, so their number is bounded. -/
def aboveBackwards : (bound : Nat) → List Char → List (List Char)
  | 0, _ => []
  | bound + 1, cs =>
    match cs.dropWhile (· != '.') with
    | _ :: c :: rest => (c :: rest) :: aboveBackwards bound rest
    | _ => []

/-- The names of the loggers that one may stand below, nearest first, the root left out. -/
def above (logger : String) : List String :=
  let backwards := logger.toList.reverse
  (aboveBackwards backwards.length backwards).map fun cs => String.ofList cs.reverse

/-- Would a logger stand below another one, if there were none nearer? -/
def takesIn (l : Loggers) (other logger : String) : Bool :=
  let known := names l.named.entries
  if other.toList.isPrefixOf rootName.toList then (known.takeWhile (· != logger)).contains other
  else known.contains other

/-- The logger that one stands below, if it is not the root. -/
def parent? (l : Loggers) (logger : String) : Option String :=
  (above logger).find? fun other => l.takesIn other logger

/-! ## Thresholds -/

/-- The threshold that holds for a logger other than the root.  A logger's name is longer than that
of the one it stands below, which bounds the way to the root. -/
def thresholdUpward (l : Loggers) : (bound : Nat) → (logger : String) → Int
  | 0, _ => l.root
  | bound + 1, logger =>
    let own := (l.named.get? logger).getD 0
    if own != 0 then own
    else
      match l.parent? logger with
      | some other => l.thresholdUpward bound other
      | none => l.root

/-- The threshold that holds for a logger. -/
def threshold (l : Loggers) (logger : String) : Int :=
  if isRoot logger then l.root else l.thresholdUpward logger.length logger

/-- The loggers after one was asked for, which exists from then on. -/
def withLogger (l : Loggers) (logger : String) : Loggers :=
  if isRoot logger || (l.named.get? logger).isSome then l
  else { l with named := l.named.insert logger 0 }

/-- The loggers with a threshold set; zero takes it away, except from the root. -/
def setThreshold (l : Loggers) (logger : String) (number : Int) : Loggers :=
  if isRoot logger then { l with root := number, verdicts := [] }
  else { l with named := l.named.insert logger number, verdicts := [] }

/-- A threshold that is set is the threshold from then on; zero is one for the root only. -/
theorem threshold_setThreshold {l : Loggers} {logger : String} {number : Int}
    (set : number ≠ 0 ∨ isRoot logger = true) :
    (l.setThreshold logger number).threshold logger = number := by
  by_cases root : isRoot logger = true
  · simp [threshold, setThreshold, root]
  · have nonzero : number ≠ 0 := set.resolve_right root
    have named : logger ≠ "" := by
      rintro rfl
      simp [isRoot] at root
    obtain ⟨n, length⟩ : ∃ n, logger.length = n + 1 :=
      Nat.exists_eq_succ_of_ne_zero fun none => named (String.length_eq_zero_iff.1 none)
    simp [threshold, setThreshold, root, length, thresholdUpward, Table.get?_insert, nonzero]

/-! ## Verdicts -/

/-- Does a logger take records of a severity?  It takes none of severity zero and below. -/
def takes (l : Loggers) (logger : String) (number : Int) : Bool :=
  0 < number && l.threshold logger ≤ number

/-- Ask a logger if it takes records of a severity. -/
def ask (l : Loggers) (logger : String) (number : Int) : Bool × Loggers :=
  let l := l.withLogger logger
  let key := (if isRoot logger then rootName else logger, number)
  match l.verdicts.lookup key with
  | some verdict => (verdict, l)
  | none =>
    let verdict := l.takes logger number
    (verdict, { l with verdicts := (key, verdict) :: l.verdicts })

end Loggers
end LoxValues
