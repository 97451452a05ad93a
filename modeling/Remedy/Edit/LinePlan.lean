import Remedy.Component.OpenTag
import Remedy.Fix.Notice

/-!
The edits of one pass over the lines of a text.

A batch is taken whole or not at all, but for edits that write an attribute which another one is already writing: these
are left out. All columns are those of the lines as they were, so the last edit of a line is made first.
-/

namespace Remedy

open Component (Line columnIn)

/-- Columns `start` up to `stop` of a line give way to `text`. -/
structure LineEdit where
  line : Nat
  start : Int
  stop : Int
  text : String
  /-- The attribute that is written, by the place where its tag takes new ones. -/
  claim : Option (Nat × Int × String) := none
  deriving DecidableEq, Repr

namespace LineEdit

def overlaps (a b : LineEdit) : Bool := a.line == b.line && a.start < b.stop && b.start < a.stop

/-- Whether an edit stands before another, or level with it. -/
def notAfter (a b : LineEdit) : Bool :=
  if a.line != b.line then a.line < b.line
  else if a.start != b.start then a.start < b.start
  else a.stop ≤ b.stop

def applyToLine (e : LineEdit) (line : Line) : Line :=
  line.take (columnIn line.length e.start) ++ e.text.toList ++ line.drop (columnIn line.length e.stop)

def applyTo (e : LineEdit) (lines : List Line) : List Line := lines.modify e.line e.applyToLine

end LineEdit

structure LinePlan where
  edits : List LineEdit
  claims : List (Nat × Int × String)
  deriving DecidableEq, Repr

namespace LinePlan

def empty : LinePlan := ⟨[], []⟩

/-- A batch being gathered beside a plan: what is taken so far, what is passed over, and whether all of it is refused. -/
structure Batch where
  accepted : List LineEdit
  claims : List (Nat × Int × String)
  notices : List Notice
  refused : Bool

def gather (p : LinePlan) (f : Fix) : List LineEdit → Batch → Batch
  | [], b => b
  | e :: rest, b =>
    match e.claim.filter fun c => p.claims.contains c || b.claims.contains c with
    | some (_, _, name) =>
      gather p f rest { b with notices := b.notices ++ [.skipped f (.alreadyWritten name)] }
    | none =>
      if (p.edits ++ b.accepted).any e.overlaps then
        { b with notices := b.notices ++ [.skipped f .overlaps], refused := true }
      else gather p f rest { b with accepted := b.accepted ++ [e], claims := b.claims ++ e.claim.toList }

/-- The plan with the edits of a fix; a refused batch leaves it as it is. -/
def addFor (p : LinePlan) (edits : List LineEdit) (f : Fix) : LinePlan × List Notice :=
  let b := gather p f edits ⟨[], [], [], false⟩
  if b.refused then (p, b.notices) else (⟨p.edits ++ b.accepted, p.claims ++ b.claims⟩, b.notices)

/-- Whether a batch leaves an edit in the plan. -/
def accepts (p : LinePlan) (edits : List LineEdit) (f : Fix) : Bool :=
  let b := gather p f edits ⟨[], [], [], false⟩
  !b.refused && !b.accepted.isEmpty

/-- The lines after all edits. -/
def apply (p : LinePlan) (lines : List Line) : List Line :=
  (p.edits.mergeSort LineEdit.notAfter).foldr LineEdit.applyTo lines

end LinePlan

end Remedy
