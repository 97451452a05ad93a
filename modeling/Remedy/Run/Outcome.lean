import Remedy.Run.Workspace

/-!
Outcomes: what came of the fixes for each file, and the log of a run that tells of them.
-/

namespace Remedy

inductive Status where
  | unsupported
  | missing
  | unchanged
  | discarded
  | applied
  | healed
  deriving DecidableEq, Repr

def Status.name : Status → String
  | unsupported => "unsupported"
  | missing => "missing"
  | unchanged => "unchanged"
  | discarded => "discarded"
  | applied => "applied"
  | healed => "healed"

structure Outcome where
  file : Path
  status : Status
  /-- How many fixes there were for the file. -/
  fixes : Nat
  errors : List String
  written : Bool
  diff : String
  deriving Repr

namespace Outcome

def isHealed (o : Outcome) : Bool := o.status == .healed

/-- The outcome for a file that stays as it is. -/
def kept (file : Path) (status : Status) (fixes : List Fix) (errors : List String) : Outcome :=
  { file := file, status := status, fixes := fixes.length, errors := errors, written := false, diff := "" }

/-- The lines of a log about an outcome. -/
def logLines (w : Workspace σ) (o : Outcome) : List String :=
  s!"{o.status.name}\t{w.displayName o.file}" :: o.errors.map fun e => "\t" ++ e

end Outcome

/-- The log of a run. -/
def runLog (w : Workspace σ) (outcomes : List Outcome) : String :=
  let lines := s!"{outcomes.length} file(s) processed" :: outcomes.flatMap (Outcome.logLines w)
  "\n".intercalate lines ++ "\n"

namespace Tools

def providerName (tools : Tools σ) (s : σ) : String :=
  match tools.activeHealer? with
  | some healer => healer.provider s
  | none => "none"

/-- Writes down the difference, if there is one and it is wanted. -/
def recordDiff (tools : Tools σ) (o : Outcome) (w : Workspace σ) : Workspace σ × List (String × Json) :=
  if o.diff.isEmpty || !tools.config.patch.writeDiffs then (w, [])
  else
    let file := Artifact.patchPath tools.root (tools.stamp (w.records + 1)) (w.displayName o.file)
    (w.writeRecord file o.diff, [("diff", .str file.text)])

/-- The record of an outcome, with the files that were written for it. -/
def attempt (tools : Tools σ) (o : Outcome) (fixes : List Fix) (artifacts : List (String × Json)) (s : σ) : Attempt :=
  { file := o.file.text, status := o.status.name, fixTypes := fixes.map fun f => f.kind.name, errors := o.errors
    provider := tools.providerName s, healed := o.isHealed, artifacts := artifacts }

/-- Makes the record of an outcome. -/
def record (tools : Tools σ) (o : Outcome) (fixes : List Fix) (w : Workspace σ) : Workspace σ × List Event :=
  let (w, artifacts) := tools.recordDiff o w
  let made := tools.attempt o fixes artifacts w.healing
  (w.logAttempt tools.root made, [.recorded made])

end Tools

end Remedy
