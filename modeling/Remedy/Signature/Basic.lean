import Remedy.Json.Shown
import Remedy.Schema.Reader
import Remedy.Text.Blank

/-!
Signatures: what was seen of a rendered element, by which its source is found again.
-/

namespace Remedy

/-- Where on the page the element was seen. -/
structure Surroundings where
  landmark : Option String
  parentComponent : Option String
  text : Option String
  deriving DecidableEq, Repr

structure Signature where
  tag : String
  text : Option String
  /-- A set: sorted, without repetitions. -/
  classes : List String
  attributes : List (String × String)
  /-- The tags from the page's root to the element. -/
  ancestry : List String
  context : Option Surroundings
  deriving DecidableEq, Repr

namespace Signature

open Schema

/-- Sorts texts by code point and drops repetitions. -/
def asSet (texts : List String) : List String := texts.eraseDups.mergeSort fun a b => decide (a ≤ b)

/-- A tag without the blanks around it, of which something must be left. -/
def readTag (v : Json) : Checked String := do
  let tag := Text.strip (← asText v)
  if tag.isEmpty then .fail (.rule "tag must not be empty") else .ok tag

/-- Attribute values may be of any kind: nothing stands for the empty text. -/
def attributeText : Json → String
  | .null => ""
  | v => v.plain

def readAttributes : Json → Checked (List (String × String))
  | .obj fields => .ok (fields.map fun (k, v) => (k, attributeText v))
  | _ => .fail .notObject

def readSurroundings (v : Json) : Checked Surroundings := do
  let fields ← record "SignatureContext" v
  (((Checked.of Surroundings.mk).and
    (defaulted fields ["landmark"] none (nullable asText))).and
    (defaulted fields ["parentComponent", "parent_component"] none (nullable asText))).and
    (defaulted fields ["surroundingText", "surrounding_text"] none (nullable asText))

def read (v : Json) : Checked Signature := do
  let fields ← record "Signature" v
  ((((((Checked.of Signature.mk).and
    (required fields ["tag"] readTag)).and
    (defaulted fields ["text"] none (nullable asText))).and
    (defaulted fields ["classes"] [] fun v => (asList .notSet asText v).map asSet)).and
    (defaulted fields ["attributes"] [] readAttributes)).and
    (defaulted fields ["structure"] [] (asList .notTuple asText))).and
    (defaulted fields ["context"] none (nullable readSurroundings))

/-! ### Writing -/

def ofText? : Option String → Json
  | some s => .str s
  | none => .null

def ofTexts (kvs : List (String × String)) : Json := .obj (kvs.map fun (k, v) => (k, .str v))

def surroundingsJson (s : Surroundings) : Json :=
  .obj [("landmark", ofText? s.landmark), ("parentComponent", ofText? s.parentComponent),
    ("surroundingText", ofText? s.text)]

def toJson (s : Signature) : Json :=
  .obj [("tag", .str s.tag), ("text", ofText? s.text), ("classes", .arr (s.classes.map .str)),
    ("attributes", ofTexts s.attributes), ("structure", .arr (s.ancestry.map .str)),
    ("context", match s.context with
      | some c => surroundingsJson c
      | none => .null)]

end Signature

end Remedy
