import Remedy.Html.Tag

/-!
The candidates in an HTML text.
-/

namespace Remedy.Candidate

open Text (Bytes)

/-- How the candidates of a text are told: names in small letters or as written, tags left out, and where the text
begins in its file. -/
structure HtmlView where
  lowercase : Bool := true
  skipped : List String := []
  lines : Int := 0
  columns : Int := 0

/-- The candidate that an element is, unless it has no tag or one left out. -/
def ofHtmlElement? (view : HtmlView) (source : Bytes) (file : String) (element : Node) : Option Candidate := do
  let tag ← Html.openTag? element
  let name ← Html.tagName? tag
  let written := name.textIn source
  if view.skipped.contains (Text.lower written) then none else
    let attributes := Html.readAttributes source tag view.lowercase
    let place (n : Node) := (n.position source).shift view.lines view.columns
    some {
      tag := if view.lowercase then Text.lower written else written
      text := Text.joined source (element.select ["text", "entity"])
      classes := Text.words ((attributes.lookup "class").getD "")
      attributes
      location := place element
      closing := (Html.closeTag? element).map place
      file }

/-- The candidates of a tree, in document order. -/
def ofHtml (view : HtmlView) (source : Bytes) (root : Node) (file : String) : List Candidate :=
  (Html.elements root).filterMap (ofHtmlElement? view source file)

end Remedy.Candidate
