import Remedy.Component.AttributeText
import Remedy.Edit.LinePlan
import Remedy.Patch.Basic

/-!
Patching single-file components line by line. All edits are planned on the lines as they are and made together.
-/

namespace Remedy.Patch.Component

open Remedy.Component (Line OpenTag between scan fallback findStatic? hasAttribute)

def lineAt (lines : List Line) (i : Nat) : Line := lines.getD i []

/-- Characters of a tag's name. -/
def isTagNamePart (c : Char) : Bool := c.isAlphanum || c == '_' || c == '.' || c == '-'

/-- The columns of the name after a mark that stands at a column. -/
def nameAfter? (line : Line) (column : Int) (mark : List Char) : Option (Int × Int) :=
  if column < 0 || between line column (column + mark.length) != mark then none
  else
    let start := column + mark.length
    let name := (line.drop start.toNat).takeWhile isTagNamePart
    if name.isEmpty then none else some (start, start + name.length)

/-- The number of the line that a place is on, if there is one, counted from zero. -/
def lineIndex? (lines : List Line) (p : Position) : Option Nat :=
  if 1 ≤ p.line && p.line ≤ lines.length then some (p.line - 1).toNat else none

/-- The edits that give an element another tag, at both ends, or why that cannot be done. -/
def renameEdits (lines : List Line) (index : Nat) (l : Location) (new : String) : Except SkipReason (List LineEdit) :=
  match nameAfter? (lineAt lines index) l.start.column ['<'] with
  | none => .error (.columnOffTag l.start.column)
  | some (start, stop) =>
    let opening : LineEdit := { line := index, start, stop, text := new }
    match l.closing with
    | none => .ok [opening]
    | some p =>
      let closing := (lineIndex? lines p).bind fun i =>
        (nameAfter? (lineAt lines i) p.column ['<', '/']).map fun (start, stop) =>
          ({ line := i, start, stop, text := new } : LineEdit)
      match closing with
      | some e => .ok [opening, e]
      | none => .error (.closingTagMoved p.line p.column)

/-- A new attribute where a tag takes them. -/
def insertAttribute (lines : List Line) (tag : OpenTag) (name value : String) : LineEdit :=
  let rendered := name ++ "=\"" ++ Text.escapeAttribute value .double ++ "\""
  let blankBefore := 0 < tag.column && ((lineAt lines tag.line)[(tag.column - 1).toNat]?).any Text.isBlank
  let text := if tag.selfClosing && blankBefore then rendered ++ " " else " " ++ rendered
  { line := tag.line, start := tag.column, stop := tag.column, text
    claim := some (tag.line, tag.column, Text.lower name) }

/-- The edit that gives an attribute of a tag a value, if there is one to make. -/
def attributeEdit (lines : List Line) (tag : OpenTag) (name value : String) (overwrite : Bool) :
    Except SkipReason (Option LineEdit) :=
  let static := tag.segments.findSome? fun s =>
    (findStatic? name.toList (lineAt lines s.line) s).map fun v => (s.line, v)
  match static with
  | some (line, v) =>
    if overwrite then
      let quote := if v.quote == '"' then Text.Quote.double else .single
      .ok (some { line, start := v.start, stop := v.stop, text := Text.escapeAttribute value quote
                  claim := some (tag.line, tag.column, Text.lower name) })
    else .ok none
  | none =>
    if tag.segments.any fun s => hasAttribute name.toList (lineAt lines s.line) s then
      if overwrite then .error (.boundDynamically name) else .ok none
    else .ok (some (insertAttribute lines tag name value))

/-- The edits that set attributes, and why some of them are not set. -/
def updateEdits (lines : List Line) (index : Nat) (l : Location) (f : Fix) (overwrite : Bool) :
    List (String × String) → List LineEdit × List Notice
  | [] => ([], [])
  | (name, value) :: rest =>
    let (edits, notices) := updateEdits lines index l f overwrite rest
    match (scan lines index l.start.column).or (fallback (lineAt lines index) index) with
    | none => (edits, .skipped f (.noTagEnd l.start.line) :: notices)
    | some tag =>
      match attributeEdit lines tag name value overwrite with
      | .ok (some e) => (e :: edits, notices)
      | .ok none => (edits, notices)
      | .error reason => (edits, .skipped f reason :: notices)

/-- The edit that puts markup after an open tag. -/
def insertEdit (lines : List Line) (index : Nat) (l : Location) (html : String) : Except SkipReason LineEdit :=
  match scan lines index l.start.column with
  | none => .error .noBody
  | some tag =>
    if tag.selfClosing then .error .noBody
    else .ok { line := tag.line, start := tag.column + 1, stop := tag.column + 1, text := html }

/-- The edits of a fix whose line is there. -/
def planFix (lines : List Line) (index : Nat) (l : Location) (f : Fix) : List LineEdit × List Notice :=
  match f.change? with
  | none => ([], [])
  | some (.setAttribute overwrite name value) => updateEdits lines index l f overwrite [(name, value)]
  | some (.insert html) =>
    match insertEdit lines index l html with
    | .ok e => ([e], [])
    | .error reason => ([], [.skipped f reason])
  | some (.rename new attributes) =>
    match renameEdits lines index l new with
    | .error reason => ([], [.skipped f reason])
    | .ok names =>
      let (edits, notices) := updateEdits lines index l f true attributes
      (names ++ edits, notices)

/-- Plans one fix. -/
def planOne (lines : List Line) (f : Fix) (plan : LinePlan) : LinePlan × List Notice :=
  match f.location with
  | none => (plan, [.skipped f .componentNeedsLocation])
  | some l =>
    match lineIndex? lines l.start with
    | none => (plan, [.skipped f .lineOutside])
    | some index =>
      let (edits, notices) := planFix lines index l f
      let (next, more) := plan.addFor edits f
      (next, notices ++ more)

def planAll (lines : List Line) : List Fix → LinePlan → LinePlan × List Notice
  | [], plan => (plan, [])
  | f :: rest, plan =>
    let (next, notices) := planOne lines f plan
    let (last, more) := planAll lines rest next
    (last, notices ++ more)

/-- The lines as one text again. -/
def joinLines (lines : List Line) : String := String.ofList (['\n'].intercalate lines)

def apply (source : String) (fixes : List Fix) : Patched :=
  let lines := Text.splitAtNewlines source.toList
  let (distinct, repeated) := Fix.distinct fixes
  let (plan, notices) := planAll lines distinct .empty
  let text := if plan.edits.isEmpty then source else joinLines (plan.apply lines)
  ⟨.ok text, repeated ++ notices⟩

end Remedy.Patch.Component
