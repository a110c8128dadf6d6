import LoxValues.Settings.Expansion
import LoxValues.Table

/-!
# Environment files

A text file that gives values to names, one to a line: `NAME = value # note`.

* A line may start with `export`; blank lines and lines that start with `#` say nothing.
* A name ends at `=`, `#` or a blank, or stands between single quotes.
* A bare value runs to the end of the line or to a `#` that follows a blank; blanks at its ends do
  not count.  A value between quotes may run over several lines; between double quotes the usual
  backslash escapes hold, between single quotes only those of the quote and the backslash.
* A name without `=` is listed with no value.  A statement of any other form is passed over, and the
  line that it starts on is remembered (`malformedLines`).

Values of every form may refer to entries further up and to the variables of the process, of which
the entries win.  Line ends of every kind count as `\n` from the start, and a byte order mark at the
beginning does not count.
-/

set_option autoImplicit false
namespace LoxValues.EnvFile

open Text

/-- The text with every line end written as a line feed. -/
def lineFeeds : List Char → List Char
  | '\r' :: '\n' :: rest => '\n' :: lineFeeds rest
  | '\r' :: rest => '\n' :: lineFeeds rest
  | c :: rest => c :: lineFeeds rest
  | [] => []

/-- A blank within a line. -/
def isSpace (c : Char) : Bool := isBlank c && c != '\n'

/-- What follows the current line. -/
def skipLine (cs : List Char) : List Char := (cs.dropWhile (· != '\n')).drop 1

/-- What follows the word `export`, where it stands in front of a name. -/
def skipExport (cs : List Char) : List Char :=
  match cs with
  | 'e' :: 'x' :: 'p' :: 'o' :: 'r' :: 't' :: c :: rest =>
    if isSpace c then rest.dropWhile isSpace else cs
  | _ => cs

/-- The text up to the next quote, and what follows it.  A backslash takes the character after it
along, so that a quote behind it does not count, not even where no other quote follows. -/
def upToQuote (quote : Char) : List Char → Option (List Char × List Char)
  | '\\' :: c :: rest =>
    (upToQuote quote rest).map fun (inside, after) => ('\\' :: c :: inside, after)
  | c :: rest =>
    if c = quote then some ([], rest)
    else (upToQuote quote rest).map fun (inside, after) => (c :: inside, after)
  | [] => none

/-- The character that an escape between double quotes stands for. -/
def escaped? : Char → Option Char
  | '\\' => some '\\'
  | '\'' => some '\''
  | '"' => some '"'
  | 'a' => some (Char.ofNat 7)
  | 'b' => some (Char.ofNat 8)
  | 'f' => some (Char.ofNat 12)
  | 'n' => some '\n'
  | 'r' => some '\r'
  | 't' => some '\t'
  | 'v' => some (Char.ofNat 11)
  | _ => none

/-- The character that an escape between single quotes stands for. -/
def escapedPlain? : Char → Option Char
  | '\\' => some '\\'
  | '\'' => some '\''
  | _ => none

/-- The text with its escapes replaced; a backslash before any other character stays. -/
def unescape (meaning : Char → Option Char) : List Char → List Char
  | '\\' :: c :: rest =>
    match meaning c with
    | some d => d :: unescape meaning rest
    | none => '\\' :: unescape meaning (c :: rest)
  | c :: rest => c :: unescape meaning rest
  | [] => []

/-- A bare value up to a `#` that follows a blank; `afterBlank` says if a blank stands before it. -/
def beforeNote (afterBlank : Bool) : List Char → List Char
  | [] => []
  | c :: rest => if afterBlank ∧ c = '#' then [] else c :: beforeNote (isBlank c) rest

/-- The name at the start of a line and what follows it; no name in front of a `#`. -/
def name? (cs : List Char) : Option (Option String × List Char) :=
  match cs with
  | '#' :: _ => some (none, cs)
  | '\'' :: rest =>
    match cut? '\'' rest with
    | some (c :: inside, after) => some (some (String.ofList (c :: inside)), after)
    | _ => none
  | _ =>
    match cs.takeWhile fun c => c != '=' && c != '#' && !isBlank c with
    | [] => none
    | name => some (some (String.ofList name), cs.drop name.length)

/-- The value that follows `=` and what follows the value. -/
def value? (afterEquals : List Char) : Option (String × List Char) :=
  let cs := afterEquals.dropWhile isSpace
  match cs with
  | '\'' :: rest =>
    (upToQuote '\'' rest).map fun (inside, after) =>
      (String.ofList (unescape escapedPlain? inside), after)
  | '"' :: rest =>
    (upToQuote '"' rest).map fun (inside, after) =>
      (String.ofList (unescape escaped? inside), after)
  | _ =>
    let line := cs.takeWhile (· != '\n')
    let afterBlank := decide (cs.length < afterEquals.length)
    some (String.ofList (trimEnd isBlank (beforeNote afterBlank line)), cs.drop line.length)

/-- Is there nothing but blanks and a note up to the end of the line? -/
def endsLine (cs : List Char) : Bool :=
  match cs.dropWhile isSpace with
  | [] => true
  | c :: _ => c == '\n' || c == '#'

/-- A statement of a file. -/
inductive Statement where
  /-- A name, and a value if it has one. -/
  | entry (name : String) (value : Option String)
  /-- A note. -/
  | note
  /-- None of the known forms. -/
  | malformed
  deriving DecidableEq

/-- A statement with this name and value, where it ends as it should. -/
def Statement.of (name : Option String) (value : Option String) (after : List Char) : Statement :=
  if endsLine after then
    match name with
    | some n => .entry n value
    | none => .note
  else .malformed

/-- The statement at the start of a text and what follows its last line. -/
def statement (cs : List Char) : Statement × List Char :=
  let cs := skipExport cs
  match name? cs with
  | none => (.malformed, skipLine cs)
  | some (name, cs) =>
    match cs.dropWhile isSpace with
    | '=' :: rest =>
      match value? rest with
      | none => (.malformed, skipLine (rest.dropWhile isSpace))
      | some (value, after) => (.of name (some value) after, skipLine after)
    | after => (.of name none after, skipLine after)

/-- The statements of a text that begins on a given line, each with its own line.  A statement's
line is the one after the statement before it, which may be blank.  Each takes at least one
character, so their number is bounded. -/
def statements : (bound line : Nat) → List Char → List (Nat × Statement)
  | 0, _, _ => []
  | bound + 1, line, cs =>
    match cs.dropWhile isBlank with
    | [] => []
    | c :: rest =>
      let (s, after) := statement (c :: rest)
      (line, s) :: statements bound (line + (cs.count '\n' - after.count '\n')) after

/-- A text without the byte order mark in front. -/
def skipMark (cs : List Char) : List Char :=
  match cs with
  | '\ufeff' :: rest => rest
  | _ => cs

/-- What a file consists of. -/
def parse (text : String) : List (Nat × Statement) :=
  statements text.length 1 (lineFeeds (skipMark text.toList))

/-- The lines on which statements of no known form start. -/
def malformedLines (text : String) : List Nat :=
  (parse text).filterMap fun (line, s) => if s = .malformed then some line else none

/-- What a name means to a value: the entries so far win over the variables of the process, and a
name listed without a value stands for nothing. -/
def meaning (environment : Table String) (entries : Table (Option String)) (name : String) :
    Option String :=
  match entries.get? name with
  | some value => some (value.getD "")
  | none => environment.get? name

/-- The entries so far, and what a statement adds to them. -/
def extend (environment : Table String) (entries : Table (Option String)) :
    Statement → Table (Option String)
  | .entry name value => entries.insert name (value.map (expand (meaning environment entries)))
  | .note | .malformed => entries

/-- What a file says: the last entry for a name counts. -/
def read (environment : Table String) (text : String) : Table (Option String) :=
  ((parse text).map Prod.snd).foldl (extend environment) .empty

end LoxValues.EnvFile
