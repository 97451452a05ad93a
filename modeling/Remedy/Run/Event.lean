import Remedy.Patch.Basic
import Remedy.Record.Attempt
import Remedy.Repair.Heal
import Remedy.Search.Basic

/-!
What happens while fixes are resolved and applied, in order: texts that are checked and healed, files that are written,
records that are made, and what is worth a warning.
-/

namespace Remedy

inductive Warning where
  | search (n : SearchNotice)
  | fix (n : Notice)
  /-- There is no way to patch files with such an ending. -/
  | unsupported (file : Path)
  | unreadable (file : Path) (e : ReadError)
  | unpatched (file : Path) (e : PatchError)
  | invalid (file : Path) (errors : Nat)
  | discarded (file : Path) (errors : List String)
  /-- There is no file to apply a fix to. -/
  | dropped (f : Fix)

def Warning.message : Warning → String
  | search n => n.message
  | fix n => n.message
  | unsupported file => s!"Skipping {file.text}: unsupported source type"
  | unreadable file e => s!"Skipping unreadable source {file.text}: {e.message}"
  | unpatched file e => s!"Failed to patch {file.text}: {e.message}"
  | invalid file errors => s!"Validation failed for {file.text} with {errors} errors"
  | discarded file errors => s!"Discarding patch for {file.text}: " ++ "; ".intercalate errors
  | dropped f => s!"Dropping {f.describe}: no source match and no fallback file"

/-- What a check has to say of a text. -/
structure Report where
  isValid : Bool
  errors : List String
  deriving DecidableEq, Repr

/-- A text without errors is valid. -/
def Report.ofErrors (errors : List String) : Report := ⟨errors.isEmpty, errors⟩

/-- The report on a text, if it can be checked at all. -/
abbrev Verdict := Except Markup.Rejection Report

inductive Event where
  | warned (w : Warning)
  | checked (content : String) (verdict : Verdict)
  | healed (content : String) (result : Except HealError String)
  | wrote (file : Path) (content : String)
  | recorded (a : Attempt)

namespace Event

def warning? : Event → Option Warning
  | warned w => some w
  | _ => none

def isCheck : Event → Bool
  | checked .. => true
  | _ => false

end Event

end Remedy
