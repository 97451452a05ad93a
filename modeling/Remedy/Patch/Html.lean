import Remedy.Css.Match
import Remedy.Html.Grammar
import Remedy.Html.Tag
import Remedy.Page.Build
import Remedy.Patch.Basic

/-!
Patching HTML by its syntax tree. All that no edit covers stays as it is.

An element is found by the place of the fix, or else by its selector on the page that the text describes.
-/

namespace Remedy.Patch.Html

open Text (Bytes)

/-- The tag of an element, if it has a name. -/
def opening? (element : Node) : Option Node :=
  (Remedy.Html.openTag? element).filter fun t => (Remedy.Html.tagName? t).isSome

/-- The elements that fixes can apply to, in document order. -/
def targets (root : Node) : List Node := (Remedy.Html.elements root).filter fun e => (opening? e).isSome

def byteAt? (source : Bytes) (i : Nat) : Option UInt8 := source[i]?

def rendered (name value : String) : String := name ++ "=\"" ++ Text.escapeAttribute value .double ++ "\""

/-- A new attribute at the end of a tag, before the slash if there is one. -/
def insertAttribute (source : Bytes) (tag : Node) (name value : String) : Replacement :=
  let last := tag.stop - 1
  let slashed := tag.kind == "self_closing_tag" || (0 < last && byteAt? source (last - 1) == some 0x2F)
  if slashed then
    let place := last - 1
    let blankBefore := 0 < place && ((byteAt? source (place - 1)).map Text.isBlankByte).getD false
    if blankBefore then ⟨place, place, rendered name value ++ " "⟩
    else ⟨place, place, " " ++ rendered name value⟩
  else ⟨last, last, " " ++ rendered name value⟩

/-- The quote that a quoted value begins with. -/
def quoteOf (source : Bytes) (value : Node) : Text.Quote :=
  if (value.textIn source).toList.head? == some '\'' then .single else .double

/-- Gives an attribute of a tag a value: in place of the one it has, or as a new attribute. -/
def setAttribute (source : Bytes) (tag : Node) (name value : String) : Replacement :=
  match Remedy.Html.findAttribute? source tag name with
  | none => insertAttribute source tag name value
  | some a =>
    match Remedy.Html.valueNode? a with
    | none => ⟨a.start, a.stop, rendered name value⟩
    | some v =>
      let whole : Replacement := ⟨v.start, v.stop, "\"" ++ Text.escapeAttribute value .double ++ "\""⟩
      if v.kind == "quoted_attribute_value" then
        match Remedy.Html.quotedText? v with
        | some t => ⟨t.start, t.stop, Text.escapeAttribute value (quoteOf source v)⟩
        | none => whole
      else whole

/-- The edits that give an element another tag, at both ends. -/
def renameEdits (element tag : Node) (new : String) : List Replacement :=
  let at? (t : Option Node) : List Replacement :=
    ((t.bind Remedy.Html.tagName?).map fun n => (⟨n.start, n.stop, new⟩ : Replacement)).toList
  at? (some tag) ++ at? (Remedy.Html.closeTag? element)

/-- The edits of a fix on an element, if there is anything to do, and what the plan has claimed for it. -/
def planFix (source : Bytes) (element : Node) (f : Fix) (plan : EditPlan) :
    Option (List Replacement) × EditPlan × List Notice :=
  match opening? element, f.change? with
  | some tag, some change =>
    if byteAt? source (tag.stop - 1) != some 0x3E then (none, plan, [.skipped f .openTagUnterminated])
    else match change with
      | .insert html =>
        if tag.kind == "self_closing_tag" || (Remedy.Html.closeTag? element).isNone then
          let name := ((Remedy.Html.tagName? tag).map fun n => n.textIn source).getD ""
          (none, plan, [.skipped f (.cannotHoldChildren name)])
        else (some [⟨tag.stop, tag.stop, html⟩], plan, [])
      | .setAttribute _ _ _ =>
        let (edits, plan, notices) := updateEdits f tag.start (setAttribute source tag) change.updates plan
        (some edits, plan, notices)
      | .rename new _ =>
        let (edits, plan, notices) := updateEdits f tag.start (setAttribute source tag) change.updates plan
        (some (renameEdits element tag new ++ edits), plan, notices)
  | _, _ => (none, plan, [])

/-- Plans a fix whose place is known. -/
def planAt (source : Bytes) (elements : List Node) (f : Fix) (p : Position) (plan : EditPlan) :
    EditPlan × List Notice :=
  match elementAt? source elements p with
  | none => (plan, [.skipped f (.noElementAtLine p.line)])
  | some element =>
    match planFix source element f plan with
    | (some edits, claimed, notices) =>
      let (next, more) := claimed.addFor edits f
      (next, notices ++ more)
    | (none, claimed, notices) => (claimed, notices)

/-- Looks up where the first element stands that a selector fits. -/
abbrev Lookup := String → Except PatchError (Option Position × List Notice)

/-- The place that a fix names or that its selector leads to. -/
def targetOf (lookup : Lookup) (f : Fix) : Except PatchError (Option Position × List Notice) :=
  match f.location with
  | some l => .ok (some l.start, [])
  | none => if f.selector.isEmpty then .ok (none, []) else lookup f.selector

/-- Plans fixes one after another; a selector that cannot be looked up ends the pass. -/
def planAll (source : Bytes) (elements : List Node) (lookup : Lookup) :
    List Fix → EditPlan → Except PatchError EditPlan × List Notice
  | [], plan => (.ok plan, [])
  | f :: rest, plan =>
    match targetOf lookup f with
    | .error e => (.error e, [])
    | .ok (none, notices) =>
      let (result, more) := planAll source elements lookup rest plan
      (result, notices ++ .skipped f .noPlaceOrSelector :: more)
    | .ok (some p, notices) =>
      let (next, planned) := planAt source elements f p plan
      let (result, more) := planAll source elements lookup rest next
      (result, notices ++ planned ++ more)

/-- Patches a text whose tree is known. -/
def applyTo (source : String) (root : Node) (lookup : Lookup) (fixes : List Fix) : Patched :=
  let bytes := Text.encode source.toList
  let (distinct, repeated) := Fix.distinct fixes
  let (plan, notices) := planAll bytes (targets root) lookup distinct .empty
  ⟨plan.bind (finish source bytes), repeated ++ notices⟩

/-- Looks selectors up on the page that a text describes. -/
def lookupOn (source : String) : Lookup := fun selector =>
  match Page.ofMarkup source with
  | .error r => .error (.rejectedMarkup r)
  | .ok page =>
    match Css.parse selector with
    | .ok l => .ok ((Css.select? page l).map (·.position), [])
    | .error .invalid => .ok (none, [.invalidSelector selector])
    | .error (.atRule offset) => .error (.atRule offset)
    | .error (.pseudoElement offset) => .error (.pseudoElement offset)

def apply (source : String) (fixes : List Fix) : Patched :=
  applyTo source (Remedy.Html.parse source) (lookupOn source) fixes

end Remedy.Patch.Html
