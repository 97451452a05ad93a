import Remedy.Patch.Strategy
import Remedy.Record.Artifact
import Remedy.Run.Event
import Remedy.Check.Validate

/-!
What a run works with: the tools, which stay the same, and the workspace, which changes.
-/

namespace Remedy

/-- How files are patched, checked and healed. `σ` is the state of those who check and heal. -/
structure Tools (σ : Type) where
  config : Config
  patch : Patch.Dialect → Patch.Strategy
  check : Path → String → σ → Verdict × σ
  healer : Option (Healer σ)
  /-- The stamp of the record with a number, counted from one. -/
  stamp : Nat → String

namespace Tools

/-- The tools of this library. -/
def standard (config : Config) (healer : Option (Healer σ)) (stamp : Nat → String) : Tools σ :=
  { config := config, patch := Patch.strategy
    check := fun file content s => ((Check.validate file.text content).map Report.ofErrors, s)
    healer := healer, stamp := stamp }

/-- The healer, unless healing is turned off. -/
def activeHealer? (tools : Tools σ) : Option (Healer σ) := if tools.config.healing.enabled then tools.healer else none

/-- The directory of the records. -/
def root (tools : Tools σ) : Path := .ofString tools.config.artifactsRoot

end Tools

structure Workspace (σ : Type) where
  tree : FileTree
  cache : CandidateCache
  healing : σ
  /-- The time of the next writing: none is the same as another. -/
  clock : Nat
  /-- How many differences and logs of runs have been written. -/
  records : Nat

namespace Workspace

/-- A workspace with the directories for records made. -/
def start (root : Path) (tree : FileTree) (clock : Nat) (healing : σ) : Workspace σ :=
  let made := (Artifact.directories root).foldl (fun t d => t.makeDirectory (t.home.resolve d)) tree
  { tree := made, cache := [], healing := healing, clock := clock, records := 0 }

/-- The workspace after a file is changed. -/
def putTree (w : Workspace σ) (tree : FileTree) : Workspace σ := { w with tree := tree, clock := w.clock + 1 }

/-- Writes the text of a source file. -/
def writeSource (w : Workspace σ) (file : Path) (content : String) : Workspace σ :=
  w.putTree (w.tree.writeText file content w.clock)

/-- Writes a difference or the log of a run. -/
def writeRecord (w : Workspace σ) (file : Path) (content : String) : Workspace σ :=
  let next := w.putTree (w.tree.putText (w.tree.home.resolve file) content w.clock)
  { next with records := w.records + 1 }

/-- Makes the directory in which the log of attempts is kept. -/
def openLog (w : Workspace σ) (root : Path) : Workspace σ :=
  { w with tree := w.tree.makeDirectory (w.tree.home.resolve root) }

/-- Adds a record to the log of attempts. -/
def logAttempt (w : Workspace σ) (root : Path) (a : Attempt) : Workspace σ :=
  let file := w.tree.home.resolve (AttemptLog.path root)
  let before := match w.tree.file? file with
    | some f => f.bytes
    | none => []
  w.putTree (w.tree.put file ⟨before ++ Text.encode (AttemptLog.line a).toList, w.clock⟩)

/-- What the log of attempts tells, if it can be read and every line is a record; nothing as long as there is no log. -/
def attempts (w : Workspace σ) (root : Path) : Except ReadError (Option (List Json)) :=
  match w.tree.file? (w.tree.home.resolve (AttemptLog.path root)) with
  | some log => (FileTree.textOf log).map AttemptLog.read?
  | none => .ok (some [])

/-- A path as it is shown: from the working directory if it leads below it, else its last name. -/
def displayName (w : Workspace σ) (file : Path) : String :=
  match w.tree.home.below? (w.tree.home.resolve file) with
  | some shown => shown.text
  | none => file.name

end Workspace

end Remedy
