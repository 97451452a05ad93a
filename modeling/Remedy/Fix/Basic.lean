import Remedy.Signature.Basic
import Remedy.Text.Position

/-!
Fixes: one change each, to one element of a source file.
-/

namespace Remedy

inductive FixKind where
  | addAttribute
  | replaceAttribute
  | addElement
  | convertTag
  deriving DecidableEq, Repr

def FixKind.name : FixKind → String
  | addAttribute => "add-attribute"
  | replaceAttribute => "replace-attribute"
  | addElement => "add-element"
  | convertTag => "convert-tag"

/-- Where the element stands: its file, its first character and, where known, that of its end tag. -/
structure Location where
  source : String
  start : Position
  closing : Option Position
  deriving DecidableEq, Repr

structure Payload where
  /-- The name of the attribute to set. -/
  name : Option String
  value : Option String
  html : Option String
  tagName : Option String
  attributes : List (String × String)
  deriving DecidableEq, Repr

/-- What comes with a fix. The extra fields are kept as they came. -/
structure Metadata where
  context : Json
  signature : Option Signature
  reasoning : Option String
  location : Option Location
  extras : List (String × Json)

structure Fix where
  kind : FixKind
  selector : String
  payload : Payload
  metadata : Metadata

/-- What a fix does to its element. -/
inductive Change where
  /-- Gives an attribute a value; without `overwrite` only if there is none yet. -/
  | setAttribute (overwrite : Bool) (name value : String)
  /-- Puts markup before everything else in the element. -/
  | insert (html : String)
  /-- Gives the element another tag, and sets attributes in the order given. -/
  | rename (tag : String) (attributes : List (String × String))
  deriving DecidableEq, Repr

/-- A tag that may be written: a letter, then letters, digits and hyphens. One line feed at the end is let pass. -/
def isTagName (s : String) : Bool :=
  match s.toList with
  | [] => false
  | c :: rest =>
    let rest := if rest.getLast? == some '\n' then rest.dropLast else rest
    c.isAlpha && rest.all fun d => d.isAlphanum || d == '-'

/-- The change a payload describes, unless it lacks what the kind needs. -/
def Payload.change? (p : Payload) : FixKind → Option Change
  | .addAttribute => setAttribute? false
  | .replaceAttribute => setAttribute? true
  | .addElement =>
    match p.html with
    | some html => if html.isEmpty then none else some (.insert html)
    | none => none
  | .convertTag =>
    match p.tagName with
    | some tag => if isTagName tag then some (.rename tag p.attributes) else none
    | none => none
where
  setAttribute? (overwrite : Bool) : Option Change :=
    match p.name, p.value with
    | some name, some value => if name.isEmpty then none else some (.setAttribute overwrite name value)
    | _, _ => none

/-- The attributes that a change sets, in order. -/
def Change.updates : Change → List (String × String)
  | .setAttribute _ name value => [(name, value)]
  | .insert _ => []
  | .rename _ attributes => attributes

namespace Fix

def change? (f : Fix) : Option Change := f.payload.change? f.kind

def location (f : Fix) : Option Location := f.metadata.location

/-- The attributes that the fix sets, in order. -/
def updates (f : Fix) : List (String × String) :=
  match f.change? with
  | some c => c.updates
  | none => []

/-- The fix in a few words: what it does, and where. -/
def describe (f : Fix) : String :=
  let place := match f.location with
    | some l => s!"{l.start.line}:{l.start.column}"
    | none => if f.selector.isEmpty then "<no selector>" else f.selector
  s!"{f.kind.name} at {place}"

/-- The fix, once its element is known to stand at a place. -/
def locate (f : Fix) (l : Location) : Fix :=
  let metadata := { f.metadata with location := some l }
  { f with metadata := metadata }

end Fix

end Remedy
