import Remedy.Path.Basic

/-!
Names of the files that record what was done: differences under `patches`, logs of runs under `run_logs`.
-/

namespace Remedy.Artifact

def isSafe (c : Char) : Bool := c.isAlphanum || c == '.' || c == '_' || c == '-'

/-- A name with one underscore in place of every run of other characters; `afterGap` tells that one was just written. -/
def safeFrom (afterGap : Bool) : List Char → List Char
  | [] => []
  | c :: rest =>
    if isSafe c then c :: safeFrom false rest
    else if afterGap then safeFrom true rest
    else '_' :: safeFrom true rest

def isUnderscore (c : Char) : Bool := c == '_'

/-- A name fit for a file, made of another one. -/
def slug (name : String) : String :=
  let safe := safeFrom false name.toList
  let trimmed := ((safe.dropWhile isUnderscore).reverse.dropWhile isUnderscore).reverse
  if trimmed.isEmpty then "source" else String.ofList trimmed

def patches (root : Path) : Path := root.child "patches"

def runLogs (root : Path) : Path := root.child "run_logs"

/-- Where the difference of a file is kept. -/
def patchPath (root : Path) (stamp name : String) : Path := (patches root).join (.ofString s!"{stamp}_{slug name}.diff")

/-- Where the log of a run is kept. -/
def runLogPath (root : Path) (stamp : String) : Path := (runLogs root).join (.ofString s!"{stamp}.log")

/-- The directories of the records. -/
def directories (root : Path) : List Path := [root, patches root, runLogs root]

end Remedy.Artifact
