import Remedy.Candidate.Basic
import Remedy.Json.Value

/-!
Elements and attributes as they stand in the tree of a script with markup.
-/

namespace Remedy.Jsx

open Text (Bytes)

def elementKinds : List String := ["jsx_element", "jsx_self_closing_element"]

/-- The elements of a tree, in document order. -/
def elements (root : Node) : List Node := root.select elementKinds

def isSelfClosing (element : Node) : Bool := element.kind == "jsx_self_closing_element"

/-- The tag that opens an element; a self-closing element is one itself. -/
def opening? (element : Node) : Option Node :=
  if isSelfClosing element then some element
  else (element.childInRole? "open_tag").or (element.child? ["jsx_opening_element"])

def closing? (element : Node) : Option Node :=
  if isSelfClosing element then none
  else (element.childInRole? "close_tag").or (element.child? ["jsx_closing_element"])

/-- The name of a tag; fragments have none. -/
def name? (tag : Node) : Option Node := tag.childInRole? "name"

/-- Components that are reached through others are all known by one name. -/
def tagText (source : Bytes) (name : Node) : String :=
  if ["member_expression", "nested_identifier"].contains name.kind then "Component" else name.textIn source

def attributes (tag : Node) : List Node := tag.namedChildren.filter fun c => c.kind == "jsx_attribute"

def attributeName (source : Bytes) (a : Node) : String :=
  match a.namedChildren with
  | n :: _ => n.textIn source
  | [] => ""

def valueNode? (a : Node) : Option Node := a.namedChildren[1]?

/-- The text between the quotes of a string. -/
def unquoted (source : Bytes) (s : Node) : String :=
  String.ofList ((s.textIn source).toList.drop 1).dropLast

/-- The first attribute of a name. -/
def findAttribute? (source : Bytes) (tag : Node) (name : String) : Option Node :=
  (attributes tag).find? fun a => attributeName source a == name

/-- The names and values of the attributes that have none or a plain one. -/
def readAttributes (source : Bytes) (tag : Node) : List (String × String) :=
  (attributes tag).foldl (fun kvs a =>
    match valueNode? a with
    | none => Json.put kvs (attributeName source a) ""
    | some v =>
      if v.kind == "string" then Json.put kvs (attributeName source a) (Text.unescape (unquoted source v)) else kvs) []

/-- What a child adds to the text of its element. -/
def childText (source : Bytes) (child : Node) : String :=
  if child.kind == "jsx_text" then Text.strip (child.textIn source)
  else if child.kind == "html_character_reference" then Text.unescape (child.textIn source)
  else if child.kind == "jsx_expression" then
    match child.namedChildren with
    | s :: _ => if s.kind == "string" then unquoted source s else ""
    | [] => ""
  else ""

/-- The text of an element's own children, one space between the parts. -/
def elementText (source : Bytes) (element : Node) : String :=
  if isSelfClosing element then ""
  else
    let parts := (element.namedChildren.map (childText source)).filter fun s => !s.isEmpty
    Text.normalize (" ".intercalate parts)

end Remedy.Jsx
