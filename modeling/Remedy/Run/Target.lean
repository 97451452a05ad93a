import Remedy.Run.Event

/-!
Targets: the file that each fix goes to.

A fix that says where its element stands goes to that file. Another one goes to the file with the element that fits
its signature best, and is told where that stands; if there is none, to the fallback, if that is there.
-/

namespace Remedy

namespace Target

/-- Names of directories that hold what is built, as they stand in a path. -/
def buildMarks : List String := ["/dist/", "/build/"]

/-- What may stand there in the path of the source. -/
def sourceMarks : List String := ["/public/", "/src/", "/"]

/-- A text with its first occurrence of a mark replaced, if there is one. -/
def replaceFirst? (mark new : List Char) : List Char → Option (List Char)
  | [] => none
  | c :: rest =>
    if mark.isPrefixOf (c :: rest) then some (new ++ (c :: rest).drop mark.length)
    else (replaceFirst? mark new rest).map (c :: ·)

/-- The paths at which the source of a built file may be, the likelier ones first. -/
def sourceCopies (file : Path) : List Path :=
  buildMarks.flatMap fun build => sourceMarks.filterMap fun source =>
    (replaceFirst? build.toList source.toList file.text.toList).map fun cs => Path.ofString (String.ofList cs)

/-- The source of a built file, if it is there; else the file itself. -/
def redirect (t : FileTree) (file : Path) : Path := ((sourceCopies file).find? t.exists).getD file

end Target

/-- A fix as it is after its target has been looked for, and the target if there is one. -/
structure Resolution where
  fix : Fix
  target : Option Path

def Match.location (m : Match) : Location := ⟨m.file.text, m.candidate.location, m.candidate.closing⟩

namespace Resolution

/-- The fix as it is, for the fallback if that is there. -/
def orElse (t : FileTree) (fallback : Option Path) (f : Fix) : Resolution := ⟨f, fallback.filter t.exists⟩

/-- What there is to warn about. -/
def warnings (r : Resolution) : List Event := if r.target.isNone then [.warned (.dropped r.fix)] else []

/-- Looks for the target of a fix, below a directory if need be. -/
def of (c : SearchConfig) (t : FileTree) (root : Path) (fallback : Option Path) (cache : CandidateCache) (f : Fix) :
    Resolution × CandidateCache × List Event :=
  match f.location with
  | some l =>
    let source := Path.ofString l.source
    (⟨f, some (if source.isAbsolute then source else t.home.resolve (root.join source))⟩, cache, [])
  | none =>
    match f.metadata.signature with
    | none =>
      let r := orElse t fallback f
      (r, cache, r.warnings)
    | some s =>
      let (found, cache, notices) := c.find t cache s root
      let r := match found with
        | some m => ⟨f.locate m.location, some m.file⟩
        | none => orElse t fallback f
      (r, cache, notices.map (fun n => .warned (.search n)) ++ r.warnings)

/-- Looks for the targets of fixes, one after the other. -/
def ofAll (c : SearchConfig) (t : FileTree) (root : Path) (fallback : Option Path) (cache : CandidateCache) :
    List Fix → List Resolution × CandidateCache × List Event
  | [] => ([], cache, [])
  | f :: rest =>
    let (r, cache, events) := of c t root fallback cache f
    let (rs, cache, more) := ofAll c t root fallback cache rest
    (r :: rs, cache, events ++ more)

/-- The files that fixes go to, each with its fixes; both in the order in which they first came. -/
def groups (rs : List Resolution) : List (Path × List Fix) :=
  (rs.filterMap (·.target)).eraseDups.map fun file =>
    (file, (rs.filter fun r => r.target == some file).map (·.fix))

end Resolution

end Remedy
