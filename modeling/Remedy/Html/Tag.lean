import Remedy.Candidate.Basic
import Remedy.Json.Value
import Remedy.Text.Case

/-!
Elements, tags and attributes as they stand in the tree of an HTML text.

Of attributes with one name the last one counts.
-/

namespace Remedy.Html

open Text (Bytes)

def elementKinds : List String := ["element", "script_element", "style_element"]

/-- The elements of a tree, in document order. -/
def elements (root : Node) : List Node := root.select elementKinds

def openTag? (element : Node) : Option Node := element.child? ["start_tag", "self_closing_tag"]

def closeTag? (element : Node) : Option Node := element.child? ["end_tag"]

def tagName? (tag : Node) : Option Node := tag.child? ["tag_name"]

def attributes (tag : Node) : List Node := tag.childrenOf "attribute"

def attributeName (source : Bytes) (a : Node) : String :=
  match a.child? ["attribute_name"] with
  | some n => n.textIn source
  | none => ""

/-- What stands after the equals sign, quotes and all. -/
def valueNode? (a : Node) : Option Node := a.child? ["attribute_value", "quoted_attribute_value"]

/-- What stands between the quotes. -/
def quotedText? (value : Node) : Option Node := value.child? ["attribute_value"]

def attributeValue (source : Bytes) (a : Node) : String :=
  match valueNode? a with
  | none => ""
  | some v =>
    if v.kind == "quoted_attribute_value" then
      match quotedText? v with
      | some t => Text.unescape (t.textIn source)
      | none => ""
    else Text.unescape (v.textIn source)

/-- The first attribute of a name, small and capital letters alike. -/
def findAttribute? (source : Bytes) (tag : Node) (name : String) : Option Node :=
  (attributes tag).find? fun a => Text.lower (attributeName source a) == Text.lower name

/-- The names and values of a tag's attributes. -/
def readAttributes (source : Bytes) (tag : Node) (lowercase : Bool) : List (String × String) :=
  (attributes tag).foldl (fun kvs a =>
    let name := attributeName source a
    Json.put kvs (if lowercase then Text.lower name else name) (attributeValue source a)) []

end Remedy.Html
