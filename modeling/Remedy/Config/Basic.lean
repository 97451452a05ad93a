import Remedy.Schema.Reader

/-!
Settings: which files are searched, what is done with a patch, and where its record is kept.
-/

namespace Remedy

structure SearchConfig where
  /-- Endings of the files to search, each with its point. -/
  extensions : List String := [".tsx", ".jsx", ".vue", ".html"]
  excludeDirs : List String := ["node_modules", "dist", "build", ".git", ".next", ".nuxt", "coverage", "out"]
  cacheCandidates : Bool := true
  deriving DecidableEq, Repr

structure PatchConfig where
  apply : Bool := true
  verify : Bool := true
  writeDiffs : Bool := true
  deriving DecidableEq, Repr

structure HealingConfig where
  enabled : Bool := true
  deriving DecidableEq, Repr

structure Config where
  search : SearchConfig := {}
  patch : PatchConfig := {}
  healing : HealingConfig := {}
  artifactsRoot : String := "artifacts"
  deriving DecidableEq, Repr

open Schema

namespace SearchConfig

def supported : List String := [".html", ".jsx", ".tsx", ".vue"]

/-- An ending in small letters, with its point. -/
def normalizeExtension (s : String) : String :=
  if s.startsWith "." then Text.lower s else "." ++ Text.lower s

def readExtensions (v : Json) : Checked (List String) := do
  let given ← asList .notList asText v
  let normalized := given.map normalizeExtension
  match normalized.filter fun e => !supported.contains e with
  | [] => .ok normalized
  | invalid => .fail (.rule ("Unsupported source extensions: " ++ ", ".intercalate invalid))

def read (v : Json) : Checked SearchConfig := do
  let fields ← record "SearchConfig" v
  let standard : SearchConfig := {}
  (((Checked.of SearchConfig.mk).and
    (defaulted fields ["extensions"] standard.extensions readExtensions)).and
    (defaulted fields ["exclude_dirs"] standard.excludeDirs (asList .notList asText))).and
    (defaulted fields ["cache_candidates"] standard.cacheCandidates asBool)

def toJson (c : SearchConfig) : Json :=
  .obj [("extensions", .arr (c.extensions.map .str)), ("exclude_dirs", .arr (c.excludeDirs.map .str)),
    ("cache_candidates", .bool c.cacheCandidates)]

end SearchConfig

namespace PatchConfig

def read (v : Json) : Checked PatchConfig := do
  let fields ← record "PatchConfig" v
  (((Checked.of PatchConfig.mk).and
    (defaulted fields ["apply"] true asBool)).and
    (defaulted fields ["verify"] true asBool)).and
    (defaulted fields ["write_diffs"] true asBool)

def toJson (c : PatchConfig) : Json :=
  .obj [("apply", .bool c.apply), ("verify", .bool c.verify), ("write_diffs", .bool c.writeDiffs)]

end PatchConfig

namespace HealingConfig

def read (v : Json) : Checked HealingConfig := do
  let fields ← record "HealingConfig" v
  (Checked.of HealingConfig.mk).and (defaulted fields ["enabled"] true asBool)

def toJson (c : HealingConfig) : Json := .obj [("enabled", .bool c.enabled)]

end HealingConfig

namespace Config

def read (v : Json) : Checked Config := do
  let fields ← record "ForgeConfig" v
  ((((Checked.of Config.mk).and
    (defaulted fields ["search"] {} SearchConfig.read)).and
    (defaulted fields ["patch"] {} PatchConfig.read)).and
    (defaulted fields ["healing"] {} HealingConfig.read)).and
    (defaulted fields ["artifacts_root"] "artifacts" asText)

def toJson (c : Config) : Json :=
  .obj [("search", c.search.toJson), ("patch", c.patch.toJson), ("healing", c.healing.toJson),
    ("artifacts_root", .str c.artifactsRoot)]

end Config

end Remedy
