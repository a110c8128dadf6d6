import LoxValues.Text.CaseTable

/-!
# Upper and lower case

The full case mappings of a text: a character may become several, and a capital sigma becomes the
final small sigma where it ends a word — after a letter and not before one, with case-ignorable
characters passed over on both sides.  All other characters are mapped on their own.
-/

set_option autoImplicit false
namespace LoxValues.Text

/-- Does the range hold this code point? -/
def CaseRange.holds (r : CaseRange) (n : Nat) : Bool :=
  decide (r.first ≤ n) && decide (n ≤ r.last) && (n - r.first) % r.step == 0

/-- Is the character in one of the runs of a table? -/
def inRuns (runs : List (Nat × Nat)) (c : Char) : Bool :=
  runs.any fun (first, last) => decide (first ≤ c.toNat) && decide (c.toNat ≤ last)

/-- A character's other case, by the two tables for one direction. -/
def mapCase (many : List (Nat × List Nat)) (ranges : List CaseRange) (c : Char) : List Char :=
  match many.find? fun (n, _) => n == c.toNat with
  | some (_, others) => others.map Char.ofNat
  | none =>
    match ranges.find? fun r => r.holds c.toNat with
    | some r => [Char.ofNat ((c.toNat : Int) + r.shift).toNat]
    | none => [c]

/-- The lower case of a character outside any word. -/
def lowerChar (c : Char) : List Char := mapCase lowerMany lowerRanges c

/-- The upper case of a character. -/
def upperChar (c : Char) : List Char := mapCase upperMany upperRanges c

/-- Is the next character that counts one with letter case? -/
def meetsCased (cs : List Char) : Bool :=
  (cs.dropWhile (inRuns caseIgnorable)).head?.any (inRuns cased)

/-- The lower case of `rest`, where `before` are the characters in front of it, nearest first. -/
def lowerAfter (before : List Char) : (rest : List Char) → List Char
  | [] => []
  | c :: rest =>
    (if c = 'Σ' then [if meetsCased before && !meetsCased rest then 'ς' else 'σ'] else lowerChar c) ++
      lowerAfter (c :: before) rest

/-- The lower case of a text. -/
def lower (cs : List Char) : List Char := lowerAfter [] cs

/-- The upper case of a text. -/
def upper (cs : List Char) : List Char := cs.flatMap upperChar

end LoxValues.Text
