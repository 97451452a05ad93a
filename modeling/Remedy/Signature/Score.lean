import Remedy.Candidate.Basic
import Remedy.Signature.Basic

/-!
How well a candidate fits a signature.

A candidate of another tag scores nothing. Otherwise the score adds up: the tag, the text, the id, every shared class
and every shared attribute; nothing is ever taken away. Ranked candidates come by score, the best first, and of
equal ones the one in the shorter path, then the one further up.
-/

namespace Remedy

/-- What each piece of evidence weighs. -/
structure Weights where
  tag : Nat := 10
  sameText : Nat := 50
  partOfText : Nat := 20
  id : Nat := 100
  perClass : Nat := 5
  perAttribute : Nat := 10

def weights : Weights := {}

namespace Signature

/-- Whether a text stands somewhere in another. -/
def isWithin (part : List Char) : List Char → Bool
  | [] => part.isEmpty
  | c :: rest => part.isPrefixOf (c :: rest) || isWithin part rest

def textScore (expected found : String) : Nat :=
  let left := (Text.lower (Text.strip expected)).toList
  let right := (Text.lower (Text.strip found)).toList
  if left.isEmpty || right.isEmpty then 0
  else if left == right then weights.sameText
  else if isWithin left right || isWithin right left then weights.partOfText
  else 0

def idScore (s : Signature) (c : Candidate) : Nat :=
  match s.attributes.lookup "id" with
  | some id => if !id.isEmpty && c.attributes.lookup "id" == some id then weights.id else 0
  | none => 0

/-- Classes count once, however often they are written. -/
def classScore (s : Signature) (c : Candidate) : Nat :=
  weights.perClass * (s.classes.filter fun name => c.classes.contains name).length

/-- Attributes that are scored in ways of their own. -/
def isScoredApart (name : String) : Bool := ["class", "classname", "id"].contains (Text.lower name)

def attributeScore (s : Signature) (c : Candidate) : Nat :=
  weights.perAttribute *
    (s.attributes.filter fun (k, v) => !isScoredApart k && c.attributes.lookup k == some v).length

def score (s : Signature) (c : Candidate) : Nat :=
  if Text.lower s.tag == Text.lower c.tag then
    weights.tag + textScore (s.text.getD "") c.text + s.idScore c + s.classScore c + s.attributeScore c
  else 0

end Signature

namespace Candidate

/-- Whether a candidate stands before another one of the same score, or level with it. -/
def precedes (c d : Candidate) : Bool :=
  if c.file.length != d.file.length then c.file.length < d.file.length
  else if c.file != d.file then c.file < d.file
  else if c.location.line != d.location.line then c.location.line < d.location.line
  else c.location.column ≤ d.location.column

end Candidate

/-- A candidate with its score. -/
abbrev Scored := Nat × Candidate

def Scored.precedes (a b : Scored) : Bool := if a.1 == b.1 then a.2.precedes b.2 else b.1 < a.1

/-- The candidates that fit at all, the best first. -/
def Signature.rank (s : Signature) (cs : List Candidate) : List Scored :=
  ((cs.map fun c => (s.score c, c)).filter fun sc => 0 < sc.1).mergeSort Scored.precedes

end Remedy
