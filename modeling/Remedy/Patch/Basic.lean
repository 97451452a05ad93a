import Remedy.Edit.Plan
import Remedy.Fix.Distinct
import Remedy.Markup.Event
import Remedy.Node.Source

/-!
Patches: what becomes of a text when fixes are applied to it, and what is worth a word on the way.
-/

namespace Remedy

/-- Why a text cannot be patched at all. -/
inductive PatchError where
  /-- An edit begins or ends inside a character. -/
  | cutsCharacter (fault : Text.DecodeFault)
  | rejectedMarkup (r : Markup.Rejection)
  | atRule (offset : Nat)
  | pseudoElement (offset : Nat)
  deriving Repr

def PatchError.message : PatchError → String
  | cutsCharacter fault => fault.message
  | rejectedMarkup r =>
    "The markup you provided was rejected by the parser. Trying a different parser or a different encoding may help."
      ++ s!"\n\nOriginal error(s) from parser:\n AssertionError: {r.message}"
  | atRule offset => s!"At-rules found at position {offset}"
  | pseudoElement offset => s!"Pseudo-element found at position {offset}"

/-- The outcome of a pass over a text. -/
structure Patched where
  text : Except PatchError String
  notices : List Notice

namespace Patch

/-- The text after the edits of a plan; without any it is left alone. -/
def finish (source : String) (bytes : Text.Bytes) (plan : EditPlan) : Except PatchError String :=
  if plan.edits.isEmpty then .ok source
  else
    let spliced := spliceBytes bytes plan.edits
    match Text.decode? spliced with
    | some cs => .ok (String.ofList cs)
    | none => .error (.cutsCharacter ((Text.fault? spliced).getD ⟨0, 0, 0, ""⟩))

/-- The first element on a line, or the one at a column of it if there is one. -/
def elementAt? (source : Text.Bytes) (elements : List Node) (p : Position) : Option Node :=
  let onLine := elements.filter fun e => (e.position source).line == p.line
  (onLine.find? fun e => (e.position source).column == p.column).or onLine.head?

/-- The edits that set attributes, one for each that is still free on the element that begins at `start`; the others
are passed over. -/
def updateEdits (f : Fix) (start : Nat) (edit : String → String → Replacement) :
    List (String × String) → EditPlan → List Replacement × EditPlan × List Notice
  | [], plan => ([], plan, [])
  | (name, value) :: rest, plan =>
    match plan.claim start name with
    | (true, claimed) =>
      let (edits, last, notices) := updateEdits f start edit rest claimed
      (edit name value :: edits, last, notices)
    | (false, _) =>
      let (edits, last, notices) := updateEdits f start edit rest plan
      (edits, last, .skipped f (.alreadySet name) :: notices)

end Patch

end Remedy
