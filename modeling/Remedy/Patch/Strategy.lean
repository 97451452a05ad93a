import Remedy.Patch.Component
import Remedy.Patch.Html
import Remedy.Patch.Jsx
import Remedy.Path.Basic

/-!
The ways to patch a file, by its ending.
-/

namespace Remedy.Patch

/-- What a source file is written in. -/
inductive Dialect where
  | html
  | jsx
  | component
  deriving DecidableEq, Repr

def Dialect.of? (path : Path) : Option Dialect :=
  match path.extension with
  | ".html" => some .html
  | ".jsx" => some .jsx
  | ".tsx" => some .jsx
  | ".vue" => some .component
  | _ => none

/-- What becomes of a text when fixes are applied to it. -/
abbrev Strategy := String → List Fix → Patched

def strategy : Dialect → Strategy
  | .html => Html.apply
  | .jsx => Jsx.apply
  | .component => Component.apply

def strategy? (path : Path) : Option Strategy := (Dialect.of? path).map strategy

end Remedy.Patch
