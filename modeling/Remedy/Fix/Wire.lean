import Remedy.Fix.Basic
import Remedy.Json.Writer

/-!
Fixes as JSON. Reading takes a field by its written name or by its longer one; writing gives every field, by its
written name.
-/

namespace Remedy

open Schema

def FixKind.all : List FixKind := [.addAttribute, .replaceAttribute, .addElement, .convertTag]

def FixKind.read (v : Json) : Checked FixKind :=
  let fault := Fault.notOneOf (FixKind.all.map FixKind.name)
  match v with
  | .str s => match FixKind.all.find? fun k => k.name == s with
    | some k => .ok k
    | none => .fail fault
  | _ => .fail fault

namespace Position

def read (v : Json) : Checked Position := do
  let fields ← record "LinePosition" v
  ((Checked.of Position.mk).and
    (required fields ["line"] asInteger)).and
    (defaulted fields ["column"] 0 asInteger)

def toJson (p : Position) : Json := .obj [("line", .int p.line), ("column", .int p.column)]

end Position

namespace Location

def read (v : Json) : Checked Location := do
  let fields ← record "SourceLocation" v
  ((((Checked.of fun source line column closing => Location.mk source ⟨line, column⟩ closing).and
    (required fields ["source"] asText)).and
    (required fields ["line"] asInteger)).and
    (defaulted fields ["column"] 0 asInteger)).and
    (defaulted fields ["closingLocation", "closing_location"] none (nullable Position.read))

def toJson (l : Location) : Json :=
  .obj [("source", .str l.source), ("line", .int l.start.line), ("column", .int l.start.column),
    ("closingLocation", match l.closing with
      | some p => p.toJson
      | none => .null)]

end Location

namespace Payload

def empty : Payload := ⟨none, none, none, none, []⟩

def read (v : Json) : Checked Payload := do
  let fields ← record "FixPayload" v
  (((((Checked.of Payload.mk).and
    (defaulted fields ["attribute"] none (nullable asText))).and
    (defaulted fields ["value"] none (nullable asText))).and
    (defaulted fields ["html"] none (nullable asText))).and
    (defaulted fields ["tagName", "tag_name"] none (nullable asText))).and
    (defaulted fields ["attributes"] [] asTexts)

def toJson (p : Payload) : Json :=
  .obj [("attribute", Signature.ofText? p.name), ("value", Signature.ofText? p.value),
    ("html", Signature.ofText? p.html), ("tagName", Signature.ofText? p.tagName),
    ("attributes", Signature.ofTexts p.attributes)]

end Payload

namespace Metadata

def empty : Metadata := ⟨.null, none, none, none, []⟩

def locationNames : List String := ["sourceLocation", "source_location"]

/-- The fields that are not read as anything else. -/
def extraFields (fields : List (String × Json)) : List (String × Json) :=
  let used := ["context", "signature", "reasoning"] ++ ((present? fields locationNames).map (·.1)).toList
  fields.filter fun (k, _) => !used.contains k

def read (v : Json) : Checked Metadata := do
  let fields ← record "FixMetadata" v
  (((((Checked.of Metadata.mk).and
    (defaulted fields ["context"] .null .ok)).and
    (defaulted fields ["signature"] none (nullable Signature.read))).and
    (defaulted fields ["reasoning"] none (nullable asText))).and
    (defaulted fields locationNames none (nullable Location.read))).and
    (.ok (extraFields fields))

def signatureJson (m : Metadata) : Json :=
  match m.signature with
  | some s => s.toJson
  | none => .null

def locationJson (m : Metadata) : Json :=
  match m.location with
  | some l => l.toJson
  | none => .null

def toJson (m : Metadata) : Json :=
  .obj ([("context", m.context), ("signature", m.signatureJson), ("reasoning", Signature.ofText? m.reasoning),
    ("sourceLocation", m.locationJson)] ++ m.extras)

end Metadata

namespace Fix

/-- The rule that a payload breaks if it describes no change. -/
def payloadRule (kind : FixKind) : String :=
  match kind with
  | .addAttribute => s!"{kind.name} requires payload.attribute and payload.value"
  | .replaceAttribute => s!"{kind.name} requires payload.attribute and payload.value"
  | .convertTag => "convert-tag requires a valid payload.tagName"
  | .addElement => "add-element requires payload.html"

def read (v : Json) : Checked Fix := do
  let fields ← record "Fix" v
  let f ← ((((Checked.of Fix.mk).and
    (required fields ["fixType", "fix_type"] FixKind.read)).and
    (defaulted fields ["selector"] "" asText)).and
    (defaulted fields ["payload"] .empty Payload.read)).and
    (defaulted fields ["metadata"] .empty Metadata.read)
  if f.change?.isSome then .ok f else .fail (.rule (payloadRule f.kind))

def toJson (f : Fix) : Json :=
  .obj [("fixType", .str f.kind.name), ("selector", .str f.selector), ("payload", f.payload.toJson),
    ("metadata", f.metadata.toJson)]

end Fix

mutual

/-- The value with nothing in place of every real beyond all numbers. -/
def Json.finite : Json → Json
  | .real x => match x with
    | .finite _ _ _ => .real x
    | _ => .null
  | .arr vs => .arr (Json.finiteAll vs)
  | .obj fields => .obj (Json.finiteFields fields)
  | v => v

def Json.finiteAll : List Json → List Json
  | [] => []
  | v :: rest => v.finite :: Json.finiteAll rest

def Json.finiteFields : List (String × Json) → List (String × Json)
  | [] => []
  | (k, v) :: rest => (k, v.finite) :: Json.finiteFields rest

end

namespace Fix

/-- What tells fixes apart: everything but why the fix was made and what was around it. -/
def identity (f : Fix) : Json :=
  .obj [("fixType", .str f.kind.name), ("selector", .str f.selector), ("payload", f.payload.toJson),
    ("metadata", .obj ([("signature", f.metadata.signatureJson), ("sourceLocation", f.metadata.locationJson)] ++
      Json.finiteFields f.metadata.extras))]

/-- The identity as a text: fixes of one identity have one text. -/
def identityText (f : Fix) : String := f.identity.compact

end Fix

end Remedy
