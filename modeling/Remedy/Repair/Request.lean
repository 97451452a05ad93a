import Remedy.Json.Value
import Remedy.Path.Basic

/-!
Requests for the repair of a file that does not parse any more.
-/

namespace Remedy

structure RepairRequest where
  file : String
  language : String
  errors : List String
  content : String
  deriving DecidableEq, Repr

namespace RepairRequest

/-- The language of a file, by its ending. -/
def languageOf (file : String) : String :=
  match (Path.ofString file).extension with
  | ".vue" => "vue"
  | ".tsx" => "tsx"
  | ".jsx" => "jsx"
  | ".ts" => "typescript"
  | ".js" => "javascript"
  | ".html" => "html"
  | _ => "text"

def of (content : String) (errors : List String) (file : String) : RepairRequest :=
  { file := file, language := languageOf file, errors := errors, content := content }

def toJson (r : RepairRequest) : Json :=
  .obj [("file_path", .str r.file), ("language", .str r.language), ("errors", .arr (r.errors.map .str)),
    ("content", .str r.content)]

end RepairRequest

end Remedy
