import Remedy.Edit.Splice
import Remedy.Fix.Notice
import Remedy.Text.Case

/-!
The edits of one pass over a text, gathered fix by fix.

A batch is taken whole or not at all: one that overlaps an edit taken before is refused. An attribute of an element
is claimed by the first fix that sets it.
-/

namespace Remedy

structure EditPlan where
  edits : List Replacement
  /-- Where elements begin whose attributes are spoken for, with their names in small letters. -/
  claims : List (Nat × String)
  deriving DecidableEq, Repr

namespace EditPlan

def empty : EditPlan := ⟨[], []⟩

def isClaimed (p : EditPlan) (element : Nat) (name : String) : Bool := p.claims.contains (element, Text.lower name)

/-- Claims an attribute, if it is still free. -/
def claim (p : EditPlan) (element : Nat) (name : String) : Bool × EditPlan :=
  if p.isClaimed element name then (false, p)
  else (true, { p with claims := p.claims ++ [(element, Text.lower name)] })

def conflicts (p : EditPlan) (batch : List Replacement) : Bool := batch.any fun r => p.edits.any r.overlaps

/-- The plan with a batch, unless the batch is refused. -/
def add? (p : EditPlan) (batch : List Replacement) : Option EditPlan :=
  if p.conflicts batch then none else some { p with edits := p.edits ++ batch }

/-- Adds the batch of a fix, with a notice if it is refused; the plan is then as it was. -/
def addFor (p : EditPlan) (batch : List Replacement) (f : Fix) : EditPlan × List Notice :=
  match p.add? batch with
  | some q => (q, [])
  | none => (p, [.skipped f .overlaps])

end EditPlan

end Remedy
