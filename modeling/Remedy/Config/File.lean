import Remedy.Config.Basic
import Remedy.Json.Reader
import Remedy.Text.Utf8

/-!
Settings out of a file.
-/

namespace Remedy

/-- Why a file gives no settings. -/
inductive ConfigError where
  | notText
  | notJson
  | invalid (issues : List Schema.Issue)
  deriving Repr

def Config.ofBytes (bytes : Text.Bytes) : Except ConfigError Config :=
  match Text.decode? bytes with
  | none => .error .notText
  | some cs => match Json.parse? (String.ofList cs) with
    | none => .error .notJson
    | some v => match Config.read v with
      | .ok c => .ok c
      | .error issues => .error (.invalid issues)

end Remedy
