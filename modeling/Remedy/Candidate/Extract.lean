import Remedy.Candidate.Html
import Remedy.Candidate.Jsx
import Remedy.Component.Block
import Remedy.Path.Basic
import Remedy.Script.Typed

/-!
The candidates of a source file, found in the way that suits its ending.
-/

namespace Remedy

/-- No way is known to read files with an ending. -/
structure UnsupportedSource where
  extension : String
  deriving DecidableEq, Repr

def UnsupportedSource.message (u : UnsupportedSource) : String :=
  let ending := if u.extension.isEmpty then "extensionless" else u.extension
  s!"No candidate extractor for {ending} files"

namespace Candidate

def inHtml (source file : String) : List Candidate :=
  ofHtml {} (Text.encode source.toList) (Html.parse source) file

def inJsx (source file : String) : List Candidate :=
  ofJsx (Text.encode source.toList) (Script.parse .markup source) file

/-- Tags that a page has whether they are written or not. -/
def pageTags : List String := ["html", "head", "body"]

/-- The candidates of a template block, placed where they stand in the file. -/
def inTemplate (template : Component.Block) (file : String) : List Candidate :=
  if Text.isBlankText template.content then []
  else
    let view : HtmlView := ⟨false, pageTags, template.start.line - 1, template.start.column⟩
    ofHtml view (Text.encode template.content.toList) (Html.parse template.content) file

def inComponent (source file : String) : List Candidate :=
  match Component.template? (Component.blocks source) with
  | some template => inTemplate template file
  | none => []

/-- The ways to find candidates, by the ending of the file. -/
def finder? (extension : String) : Option (String → String → List Candidate) :=
  match extension with
  | ".html" => some inHtml
  | ".jsx" => some inJsx
  | ".tsx" => some inJsx
  | ".vue" => some inComponent
  | _ => none

/-- The candidates of a file, in document order. -/
def extract (source file : String) : Except UnsupportedSource (List Candidate) :=
  let extension := (Path.ofString file).extension
  match finder? extension with
  | some find => .ok (find source file)
  | none => .error ⟨extension⟩

end Candidate

end Remedy
