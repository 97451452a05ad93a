import Remedy.Text.Blank

/-!
Open tags in the raw lines of a template.

`scan` walks from a `<` to the `>` that ends the tag, over as many lines as it takes; quoted text in between does not
count. `fallback` takes the last `>` of a line, for when the place of a tag is not known well. A negative column
counts from the end of its line, and a walk from there goes on over the whole line.
-/

namespace Remedy.Component

abbrev Line := List Char

/-- A stretch of a line. -/
structure Segment where
  line : Nat
  start : Int
  stop : Int
  deriving DecidableEq, Repr

/-- An open tag: the stretches it covers, where a new attribute goes, and whether it closes itself. -/
structure OpenTag where
  segments : List Segment
  line : Nat
  column : Int
  selfClosing : Bool
  deriving DecidableEq, Repr

/-- Where a column falls in a line of a given length. -/
def columnIn (length : Nat) (column : Int) : Nat :=
  if column < 0 then (column + length).toNat else min column.toNat length

/-- The characters of a line from one column up to another. -/
def between (line : Line) (start stop : Int) : Line :=
  (line.take (columnIn line.length stop)).drop (columnIn line.length start)

/-- The characters that a walk from a column comes across. -/
def walkFrom (line : Line) (column : Int) : Line :=
  if column < 0 then line.drop (columnIn line.length column) ++ line else line.drop column.toNat

/-- What a walk over one line comes to: the `>` that ends the tag, another `<`, or the end of the line, perhaps inside of
quotes. -/
inductive Walk where
  | ended (column : Int) (afterSlash : Bool)
  | blocked
  | open (quote : Option Char)
  deriving DecidableEq, Repr

def walk (quote previous : Option Char) (column : Int) : Line → Walk
  | [] => .open quote
  | c :: rest =>
    match quote with
    | some q => walk (if c == q then none else quote) (some c) (column + 1) rest
    | none =>
      if c == '"' || c == '\'' then walk (some c) (some c) (column + 1) rest
      else if c == '<' then .blocked
      else if c == '>' then .ended column (0 < column && previous == some '/')
      else walk none (some c) (column + 1) rest

/-- Walks on over whole lines, from the line of a given number; `before` are the stretches covered so far. -/
def scanLines (quote : Option Char) (before : List Segment) (number : Nat) : List Line → Option OpenTag
  | [] => none
  | line :: rest =>
    match walk quote none 0 line with
    | .blocked => none
    | .ended column afterSlash =>
      some ⟨before ++ [⟨number, 0, column + 1⟩], number, if afterSlash then column - 1 else column, afterSlash⟩
    | .open quote => scanLines quote (before ++ [⟨number, 0, line.length⟩]) (number + 1) rest

/-- The open tag whose `<` stands at a column of a line. -/
def scan (lines : List Line) (number : Nat) (column : Int) : Option OpenTag :=
  match lines.drop number with
  | [] => none
  | line :: rest =>
    if between line column (column + 1) != ['<'] then none
    else match walk none none (column + 1) (walkFrom line (column + 1)) with
      | .blocked => none
      | .ended last afterSlash =>
        some ⟨[⟨number, column, last + 1⟩], number, if afterSlash then last - 1 else last, afterSlash⟩
      | .open quote => scanLines quote [⟨number, column, line.length⟩] (number + 1) rest

/-- The last place of a line at which its rest passes a test. -/
def lastPlace? (test : Line → Bool) (line : Line) : Option Nat :=
  ((List.range line.length).reverse).find? fun i => test (line.drop i)

/-- The tag that begins last on a line, as far as that line goes: it ends at the last `/>` after its `<`, or else at the
last `>` there that does not belong to an arrow. -/
def fallback (line : Line) (number : Nat) : Option OpenTag :=
  match lastPlace? (fun cs => cs.head? == some '<') line with
  | none => none
  | some opened =>
    let whole : List Segment := [⟨number, 0, line.length⟩]
    if ['<', '/'].isPrefixOf (line.drop opened) then none
    else match (lastPlace? (['/', '>'].isPrefixOf ·) line).filter (opened < ·) with
      | some i => some ⟨whole, number, i, true⟩
      | none =>
        let plain (i : Nat) : Bool := opened < i && (line.drop i).head? == some '>' && (line.drop (i - 1)).head? != some '='
        (((List.range line.length).reverse).find? plain).map fun i => ⟨whole, number, i, false⟩

end Remedy.Component
