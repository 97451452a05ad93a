import Remedy.Candidate.Extract
import Remedy.Config.Basic
import Remedy.Files.Tree
import Remedy.Signature.Score

/-!
The search for an element in the files below a directory: which files are looked at, which candidates they have, and
which of them fits a signature best.

The candidates of a file may be kept for as long as its time of writing stays the same. A file that cannot be read has
none, and what was kept of it before remains.
-/

namespace Remedy

/-- What is worth a word about a file that gives no candidates. -/
inductive SearchNotice where
  | unreadable (file : Path) (e : ReadError)
  | unparsed (file : Path) (e : UnsupportedSource)
  deriving Repr

def SearchNotice.message : SearchNotice → String
  | unreadable file e => s!"Skipping unreadable source {file.text}: {e.message}"
  | unparsed file e => s!"Failed to parse {file.text}: {e.message}"

/-- The candidates that were found in a file, and the time at which it had been written. -/
structure Seen where
  time : Nat
  candidates : List Candidate
  deriving Repr

/-- What is kept of files, by their paths. -/
abbrev CandidateCache := List (Path × Seen)

/-- An element that was found, with its score. -/
structure Match where
  file : Path
  score : Nat
  candidate : Candidate
  deriving Repr

namespace SearchConfig

/-- Whether a file is searched, by the names that lead to it from the directory where the search starts. -/
def covers (c : SearchConfig) (names : List String) : Bool :=
  names.dropLast.all (fun d => !c.excludeDirs.contains d) &&
    (c.extensions.map Text.lower).contains (⟨"", names⟩ : Path).extension

/-- The files to search, in the order of a walk. -/
def files (c : SearchConfig) (t : FileTree) (directory : Path) : List Path :=
  let start := t.home.resolve directory
  ((t.below start).filter c.covers).map fun names => ⟨start.root, start.names ++ names⟩

/-- What is kept of a file if it still holds. -/
def remembered? (c : SearchConfig) (cache : CandidateCache) (file : Path) (time : Nat) : Option (List Candidate) :=
  match cache.lookup file with
  | some seen => if c.cacheCandidates && seen.time == time then some seen.candidates else none
  | none => none

def keep (c : SearchConfig) (cache : CandidateCache) (file : Path) (seen : Seen) : CandidateCache :=
  if c.cacheCandidates then (file, seen) :: cache.filter fun (p, _) => p != file else cache

/-- The candidates of a file, and what is kept from then on. -/
def candidates (c : SearchConfig) (t : FileTree) (cache : CandidateCache) (file : Path) :
    List Candidate × CandidateCache × List SearchNotice :=
  match t.read file with
  | .error e => ([], cache, [.unreadable file e])
  | .ok f =>
    match c.remembered? cache file f.time with
    | some found => (found, cache, [])
    | none =>
      match FileTree.textOf f with
      | .error e => ([], cache, [.unreadable file e])
      | .ok source =>
        match Candidate.extract source file.text with
        | .ok found => (found, c.keep cache file ⟨f.time, found⟩, [])
        | .error e => ([], c.keep cache file ⟨f.time, []⟩, [.unparsed file e])

/-- The candidates of many files, one file after the other. -/
def candidatesOfAll (c : SearchConfig) (t : FileTree) (cache : CandidateCache) :
    List Path → List Candidate × CandidateCache × List SearchNotice
  | [] => ([], cache, [])
  | file :: rest =>
    let (found, cache, notices) := c.candidates t cache file
    let (more, cache, others) := candidatesOfAll c t cache rest
    (found ++ more, cache, notices ++ others)

/-- The best candidate below a directory. -/
def find (c : SearchConfig) (t : FileTree) (cache : CandidateCache) (s : Signature) (directory : Path) :
    Option Match × CandidateCache × List SearchNotice :=
  let (all, cache, notices) := c.candidatesOfAll t cache (c.files t directory)
  let best := (s.rank all).head?.map fun (score, candidate) =>
    (⟨Path.ofString candidate.file, score, candidate⟩ : Match)
  (best, cache, notices)

end SearchConfig

end Remedy
