import Remedy.Diff.Unified
import Remedy.Run.Outcome
import Remedy.Run.Target
import Remedy.Run.Verification

/-!
Fixes applied to files: each file is read, patched, verified and written, in that order, as far as it gets; then a
record is made of it. A run resolves fixes, does this for every file, and leaves a log.

A text that cannot even be checked ends a run, and no record is made of its file.
-/

namespace Remedy

/-- What is done in a workspace: a result unless a text cannot be checked, and all that happened. -/
abbrev Progress (σ α : Type) := Except Markup.Rejection α × Workspace σ × List Event

/-- What a run leaves: the outcomes, and the fixes with all that was found out about them. -/
structure Ran where
  outcomes : List Outcome
  fixes : List Fix

namespace Tools

/-- Records an outcome after what led to it. -/
def conclude (tools : Tools σ) (o : Outcome) (fixes : List Fix) (w : Workspace σ) (events : List Event) :
    Progress σ Outcome :=
  let (w, recorded) := tools.record o fixes w
  (.ok o, w, events ++ recorded)

/-- Takes a text that has been accepted in the place of another one, and writes it unless the run is a dry one. -/
def accept (tools : Tools σ) (o : Outcome) (fixes : List Fix) (before content : String) (w : Workspace σ)
    (events : List Event) : Progress σ Outcome :=
  let isWritten := tools.config.patch.apply
  let outcome := { o with written := isWritten, diff := Diff.unified before content (w.displayName o.file) }
  if isWritten then
    tools.conclude outcome fixes (w.writeSource o.file content) (events ++ [.wrote o.file content])
  else tools.conclude outcome fixes w events

/-- Verifies a text that is new for a file, and takes or discards it. -/
def settle (tools : Tools σ) (file : Path) (fixes : List Fix) (before content : String) (w : Workspace σ)
    (events : List Event) : Progress σ Outcome :=
  let (verification, healing, seen) := tools.verify file content w.healing
  let w := { w with healing := healing }
  let events := events ++ seen
  match verification with
  | .rejected r => (.error r, w, events)
  | .refused errors =>
    tools.conclude (.kept file .discarded fixes errors) fixes w (events ++ [.warned (.discarded file errors)])
  | .sound accepted => tools.accept (.kept file .applied fixes []) fixes before accepted w events
  | .mended accepted errors => tools.accept (.kept file .healed fixes errors) fixes before accepted w events

/-- Applies fixes to one file. -/
def applyFile (tools : Tools σ) (file : Path) (fixes : List Fix) (w : Workspace σ) : Progress σ Outcome :=
  match Patch.Dialect.of? file with
  | none => tools.conclude (.kept file .unsupported fixes []) fixes w [.warned (.unsupported file)]
  | some dialect =>
    match w.tree.readText file with
    | .error e => tools.conclude (.kept file .missing fixes [e.message]) fixes w [.warned (.unreadable file e)]
    | .ok before =>
      let patched := tools.patch dialect before fixes
      let notices : List Event := patched.notices.map fun n => .warned (.fix n)
      match patched.text with
      | .error e =>
        tools.conclude (.kept file .unchanged fixes []) fixes w (notices ++ [.warned (.unpatched file e)])
      | .ok content =>
        if content == before then tools.conclude (.kept file .unchanged fixes []) fixes w notices
        else tools.settle file fixes before content w notices

/-- Applies fixes to many files, one after the other, up to the first text that cannot be checked. -/
def apply (tools : Tools σ) : List (Path × List Fix) → Workspace σ → Progress σ (List Outcome)
  | [], w => (.ok [], w, [])
  | (file, fixes) :: rest, w =>
    match tools.applyFile file fixes w with
    | (.error r, w, events) => (.error r, w, events)
    | (.ok outcome, w, events) =>
      let (others, w, more) := tools.apply rest w
      (others.map (outcome :: ·), w, events ++ more)

/-- Looks for the targets of fixes below a directory. A fallback that was built stands for its source. -/
def resolve (tools : Tools σ) (fixes : List Fix) (root : Path) (fallback : Option Path) (w : Workspace σ) :
    List Resolution × Workspace σ × List Event :=
  let fallback := fallback.map (Target.redirect w.tree)
  let (resolutions, cache, events) := Resolution.ofAll tools.config.search w.tree root fallback w.cache fixes
  (resolutions, { w with cache := cache }, events)

/-- Resolves fixes and applies them, and leaves a log. -/
def run (tools : Tools σ) (fixes : List Fix) (root : Path) (fallback : Option Path) (w : Workspace σ) :
    Progress σ Ran :=
  let (resolutions, w, found) := tools.resolve fixes root fallback w
  match tools.apply (Resolution.groups resolutions) w with
  | (.error r, w, events) => (.error r, w, found ++ events)
  | (.ok outcomes, w, events) =>
    let file := Artifact.runLogPath tools.root (tools.stamp (w.records + 1))
    (.ok ⟨outcomes, resolutions.map (·.fix)⟩, w.writeRecord file (runLog w outcomes), found ++ events)

end Tools

end Remedy
