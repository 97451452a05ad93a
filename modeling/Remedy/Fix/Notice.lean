import Remedy.Fix.Basic
import Remedy.Text.Quotation

/-!
What is worth a word while fixes are applied.
-/

namespace Remedy

/-- Why a fix, or one attribute of it, is passed over. -/
inductive SkipReason where
  | overlaps
  | noPlaceOrSelector
  | noElementAtLine (line : Int)
  | openTagUnterminated
  /-- An attribute that this pass has set before. -/
  | alreadySet (name : String)
  | cannotHoldChildren (tag : String)
  | jsxNeedsLocation
  | noJsxElementOnLine (line : Int)
  | notPlainTag (tag : String)
  | selfClosing
  | componentNeedsLocation
  | lineOutside
  | columnOffTag (column : Int)
  | closingTagMoved (line column : Int)
  | noTagEnd (line : Int)
  | boundDynamically (name : String)
  | noBody
  | alreadyWritten (name : String)
  deriving DecidableEq, Repr

def SkipReason.message : SkipReason → String
  | overlaps => "it overlaps an edit already planned in this pass"
  | noPlaceOrSelector => "no source location or matching selector"
  | noElementAtLine line => s!"no element starts at line {line}"
  | openTagUnterminated => "opening tag is not terminated"
  | alreadySet name => s!"{name} is already set on this element in this pass"
  | cannotHoldChildren tag => s!"<{tag}> cannot hold children"
  | jsxNeedsLocation => "JSX fixes need a resolved source location"
  | noJsxElementOnLine line => s!"no JSX element starts on line {line}"
  | notPlainTag tag => s!"<{tag}> is not a plain tag"
  | selfClosing => "self-closing elements cannot hold children"
  | componentNeedsLocation => "Vue fixes need a resolved source location"
  | lineOutside => "line is outside the file"
  | columnOffTag column => s!"column {column} does not point at '<'"
  | closingTagMoved line column => s!"closing tag moved from {line}:{column}"
  | noTagEnd line => s!"no opening tag end found on line {line}"
  | boundDynamically name => s!"{name} is bound dynamically"
  | noBody => "no element body to insert into"
  | alreadyWritten name => s!"{name} is already being written on this element"

inductive Notice where
  | duplicate (f : Fix)
  | skipped (f : Fix) (reason : SkipReason)
  | invalidSelector (selector : String)

def Notice.message : Notice → String
  | duplicate f => s!"Dropping duplicate {f.kind.name} fix for {Text.quotation f.selector}"
  | skipped f reason => s!"Skipping {f.describe}: {reason.message}"
  | invalidSelector selector => s!"Invalid selector {Text.quotation selector}: SelectorSyntaxError"

end Remedy
