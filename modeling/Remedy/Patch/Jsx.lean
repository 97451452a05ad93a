import Remedy.Json.Writer
import Remedy.Patch.Basic
import Remedy.Script.Jsx
import Remedy.Script.Typed

/-!
Patching markup inside of scripts by their syntax tree. All that no edit covers stays as it is.
-/

namespace Remedy.Patch.Jsx

open Text (Bytes)

/-- The elements that fixes can apply to, in document order: all but fragments. -/
def targets (root : Node) : List Node :=
  (Remedy.Jsx.elements root).filter fun e => ((Remedy.Jsx.opening? e).bind Remedy.Jsx.name?).isSome

/-- A value as it is written: in double quotes, or, where these cannot hold it, as an expression. -/
def literal (value : String) : String :=
  if value.toList.any fun c => c == '"' || c == '\n' then
    String.ofList ('\x7b' :: (Json.quoted false value ++ ['\x7d']))
  else "\"" ++ value ++ "\""

/-- The place after everything in a tag but comments. -/
def anchor (tag : Node) : Nat :=
  match (tag.namedChildren.filter fun c => c.kind != "comment").getLast? with
  | some c => c.stop
  | none => tag.stop

/-- Gives an attribute of a tag a value: in place of the one it has, or as a new attribute. -/
def setAttribute (source : Bytes) (tag : Node) (name value : String) : Replacement :=
  match Remedy.Jsx.findAttribute? source tag name with
  | some a =>
    match Remedy.Jsx.valueNode? a with
    | none => ⟨a.stop, a.stop, "=" ++ literal value⟩
    | some v => ⟨v.start, v.stop, literal value⟩
  | none => ⟨anchor tag, anchor tag, " " ++ name ++ "=" ++ literal value⟩

/-- The edits that give an element another tag, at both ends. -/
def renameEdits (element name : Node) (new : String) : List Replacement :=
  let closing := ((Remedy.Jsx.closing? element).bind Remedy.Jsx.name?).filter fun n => n.kind == "identifier"
  ⟨name.start, name.stop, new⟩ :: (closing.map fun n => (⟨n.start, n.stop, new⟩ : Replacement)).toList

/-- The edits of a fix on an element, and what the plan has claimed for it. -/
def planFix (source : Bytes) (element : Node) (f : Fix) (plan : EditPlan) :
    List Replacement × EditPlan × List Notice :=
  match Remedy.Jsx.opening? element, f.change? with
  | some tag, some change =>
    match change with
    | .insert html =>
      if Remedy.Jsx.isSelfClosing element then ([], plan, [.skipped f .selfClosing])
      else ([⟨tag.stop, tag.stop, html⟩], plan, [])
    | .setAttribute _ _ _ => updateEdits f element.start (setAttribute source tag) change.updates plan
    | .rename new _ =>
      match Remedy.Jsx.name? tag with
      | none => ([], plan, [])
      | some name =>
        if name.kind != "identifier" then ([], plan, [.skipped f (.notPlainTag (name.textIn source))])
        else
          let (edits, plan, notices) := updateEdits f element.start (setAttribute source tag) change.updates plan
          (renameEdits element name new ++ edits, plan, notices)
  | _, _ => ([], plan, [])

/-- Plans one fix. -/
def planOne (source : Bytes) (elements : List Node) (f : Fix) (plan : EditPlan) : EditPlan × List Notice :=
  match f.location with
  | none => (plan, [.skipped f .jsxNeedsLocation])
  | some l =>
    match elementAt? source elements l.start with
    | none => (plan, [.skipped f (.noJsxElementOnLine l.start.line)])
    | some element =>
      let (edits, claimed, notices) := planFix source element f plan
      let (next, more) := claimed.addFor edits f
      (next, notices ++ more)

def planAll (source : Bytes) (elements : List Node) : List Fix → EditPlan → EditPlan × List Notice
  | [], plan => (plan, [])
  | f :: rest, plan =>
    let (next, notices) := planOne source elements f plan
    let (last, more) := planAll source elements rest next
    (last, notices ++ more)

/-- Patches a text whose tree is known. -/
def applyTo (source : String) (root : Node) (fixes : List Fix) : Patched :=
  let bytes := Text.encode source.toList
  let (distinct, repeated) := Fix.distinct fixes
  let (plan, notices) := planAll bytes (targets root) distinct .empty
  ⟨finish source bytes plan, repeated ++ notices⟩

def apply (source : String) (fixes : List Fix) : Patched := applyTo source (Script.parse .markup source) fixes

end Remedy.Patch.Jsx
