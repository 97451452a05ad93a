import Remedy.Json.Value
import Remedy.Text.Quotation

/-!
Values as texts show them: `None` for nothing, capitals for truth values, quotations for strings inside of others.
-/

namespace Remedy.Json

mutual

def shown : Json → String
  | .null => "None"
  | .bool b => if b then "True" else "False"
  | .int n => toString n
  | .real x => x.text
  | .str s => Text.quotation s
  | .arr vs => "[" ++ ", ".intercalate (shownAll vs) ++ "]"
  | .obj fields => "\x7b" ++ ", ".intercalate (shownFields fields) ++ "\x7d"

def shownAll : List Json → List String
  | [] => []
  | v :: rest => shown v :: shownAll rest

def shownFields : List (String × Json) → List String
  | [] => []
  | (k, v) :: rest => (Text.quotation k ++ ": " ++ shown v) :: shownFields rest

end

/-- The same, but a string by itself stands as it is. -/
def plain : Json → String
  | .str s => s
  | v => shown v

end Remedy.Json
