import Remedy.Check.Balance
import Remedy.Component.Block
import Remedy.Path.Basic
import Remedy.Script.Typed

/-!
Whether a source file parses: scripts by their grammar, components block by block. Files of other kinds pass.
-/

namespace Remedy.Check

open Text (Bytes)

/-- What is wrong at a place of a file. -/
structure Diagnostic where
  position : Position
  message : String
  deriving DecidableEq, Repr

/-- The diagnostic as a line of text; columns are counted from one there. -/
def Diagnostic.text (label : String) (d : Diagnostic) : String :=
  s!"{label}({d.position.line},{d.position.column + 1}): {d.message}"

/-- How much of an unexpected text is shown. -/
def snippetLength : Nat := 40

/-- The beginning of an unexpected text. -/
def unexpected (source : Bytes) (n : Node) : String :=
  match Text.firstLine? (Text.trim (n.textIn source).toList) with
  | some line => s!"unexpected '{String.ofList (line.take snippetLength)}'"
  | none => "unexpected token"

mutual

/-- The nodes at which parsing failed, the outermost ones, in document order. Subtrees without errors are passed over. -/
def failures : Node → List Node
  | .mk kind named missing hasError start stop field children =>
    if missing || kind == "ERROR" then [.mk kind named missing hasError start stop field children]
    else if hasError then failuresAll children
    else []

def failuresAll : List Node → List Node
  | [] => []
  | n :: rest => failures n ++ failuresAll rest

end

def diagnosticOf (source : Bytes) (n : Node) : Diagnostic :=
  ⟨n.position source, if n.isMissing then s!"missing '{n.kind}'" else unexpected source n⟩

/-- What is wrong with a text, by its tree. -/
def treeDiagnostics (source : Bytes) (root : Node) : List Diagnostic :=
  if root.hasError then (failures root).map (diagnosticOf source) else []

def scriptDiagnostics (kind : Script.Kind) (content : String) : List Diagnostic :=
  treeDiagnostics (Text.encode content.toList) (Script.parse kind content)

/-- Moves a diagnostic of a block to where the block stands. -/
def Diagnostic.shift (start : Position) (d : Diagnostic) : Diagnostic :=
  { d with position := d.position.shift (start.line - 1) start.column }

/-- The grammar of a script file, by its ending. -/
def grammarOfExtension? (extension : String) : Option Script.Kind :=
  if [".js", ".mjs", ".cjs"].contains extension then some .plain
  else if [".ts", ".mts"].contains extension then some .typed
  else if [".jsx", ".tsx"].contains extension then some .markup
  else none

/-- The grammar of a script block, by the language named; plain scripts name none, or one not known. -/
def grammarOfLanguage (language : Option String) : Script.Kind :=
  let name := Text.lower (language.getD "js")
  if ["ts", "typescript"].contains name then .typed
  else if ["jsx", "tsx"].contains name then .markup
  else .plain

def templateDiagnostics (b : Component.Block) : Except Markup.Rejection (List Diagnostic) :=
  (markupImbalances b.content).map fun is =>
    is.map fun i => Diagnostic.shift b.start ⟨i.position, s!"Template error: {i.message}"⟩

def scriptBlockDiagnostics (b : Component.Block) : List Diagnostic :=
  (scriptDiagnostics (grammarOfLanguage b.language?) b.content).map (Diagnostic.shift b.start)

/-- What is wrong with a component: its template first, then each script. -/
def componentDiagnostics (content : String) : Except Markup.Rejection (List Diagnostic) := do
  let bs := Component.blocks content
  let inTemplate ← match Component.template? bs with
    | some b => templateDiagnostics b
    | none => .ok []
  return inTemplate ++ (Component.scripts bs).flatMap scriptBlockDiagnostics

/-- What is wrong with a file, each fault as a line of text; none if the file is valid. -/
def validate (path content : String) : Except Markup.Rejection (List String) :=
  let extension := (Path.ofString path).extension
  let lines (ds : List Diagnostic) := ds.map (Diagnostic.text path)
  match grammarOfExtension? extension with
  | some kind => .ok (lines (scriptDiagnostics kind content))
  | none => if extension == ".vue" then (componentDiagnostics content).map lines else .ok []

end Remedy.Check
