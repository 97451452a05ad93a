import Remedy.Json.Reader
import Remedy.Json.Writer
import Remedy.Path.Basic
import Remedy.Text.Blank

/-!
The log of attempts: a record for every pass over a file, one on a line.
-/

namespace Remedy

/-- What was tried on a file and what came of it. -/
structure Attempt where
  file : String
  status : String
  fixTypes : List String
  errors : List String
  provider : String
  healed : Bool
  /-- Where the records are that were written for it, by what they hold. -/
  artifacts : List (String × Json)

def Attempt.toJson (a : Attempt) : Json :=
  .obj [("file", .str a.file), ("status", .str a.status), ("fix_types", .arr (a.fixTypes.map .str)),
    ("validation_errors", .arr (a.errors.map .str)), ("heal_provider", .str a.provider), ("healed", .bool a.healed),
    ("artifact_paths", .obj a.artifacts)]

namespace AttemptLog

def path (root : Path) : Path := root.child "patch_attempts.jsonl"

/-- The line of a record; no line feed is in it but the one at its end. -/
def line (a : Attempt) : String := a.toJson.render ++ "\n"

/-- The records of a log; nothing if a line is none. Blank lines do not count. -/
def read? (log : String) : Option (List Json) :=
  ((Text.splitAtNewlines log.toList).filter fun l => !l.all Text.isBlank).mapM fun l => Json.parse? (String.ofList l)

end AttemptLog

end Remedy
