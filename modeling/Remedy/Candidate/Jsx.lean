import Remedy.Script.Jsx

/-!
The candidates in a script with markup.
-/

namespace Remedy.Candidate

open Text (Bytes)

/-- The classes of an element, under either of their names. -/
def jsxClasses (attributes : List (String × String)) : List String :=
  let named := (attributes.lookup "className").getD ""
  Text.words (if named.isEmpty then (attributes.lookup "class").getD "" else named)

/-- The candidate that an element is, unless it has no name. -/
def ofJsxElement? (source : Bytes) (file : String) (element : Node) : Option Candidate := do
  let tag ← Jsx.opening? element
  let name ← Jsx.name? tag
  let attributes := Jsx.readAttributes source tag
  some {
    tag := Jsx.tagText source name
    text := Jsx.elementText source element
    classes := jsxClasses attributes
    attributes
    location := element.position source
    closing := (Jsx.closing? element).map fun n => n.position source
    file }

/-- The candidates of a tree, in document order. -/
def ofJsx (source : Bytes) (root : Node) (file : String) : List Candidate :=
  (Jsx.elements root).filterMap (ofJsxElement? source file)

end Remedy.Candidate
