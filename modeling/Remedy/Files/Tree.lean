import Remedy.Path.Basic
import Remedy.Text.Blank
import Remedy.Text.Quotation
import Remedy.Text.Utf8

/-!
A tree of files: what stands where, when it was written, and why something cannot be read.

Files and directories are kept by absolute paths without steps upwards. The directories above a file are always there,
and stay when the file goes.
-/

namespace Remedy

structure File where
  bytes : Text.Bytes
  /-- When it was last written. -/
  time : Nat
  deriving DecidableEq, Repr

structure FileTree where
  /-- The working directory, at which relative paths start. -/
  home : Path
  files : List (Path × File)
  directories : List Path
  deriving Repr

/-- Why a file cannot be read. -/
inductive ReadError where
  | missing (path : Path)
  | isDirectory (path : Path)
  /-- The way to it leads through something that is no directory. -/
  | notDirectory (path : Path)
  | notText (fault : Text.DecodeFault)
  deriving Repr

def ReadError.message : ReadError → String
  | missing p => s!"[Errno 2] No such file or directory: {Text.quotation p.text}"
  | isDirectory p => s!"[Errno 21] Is a directory: {Text.quotation p.text}"
  | notDirectory p => s!"[Errno 20] Not a directory: {Text.quotation p.text}"
  | notText fault => fault.message

namespace FileTree

/-- A tree with nothing but the working directory. -/
def empty (home : Path) : FileTree := ⟨home, [], home.ancestors⟩

def file? (t : FileTree) (p : Path) : Option File := t.files.lookup p

/-- Whether a directory stands at a place; where a file stands there is none. -/
def isDirectory (t : FileTree) (p : Path) : Bool :=
  (t.file? p).isNone && (p.names.isEmpty || t.directories.contains p)

/-- Goes from a directory along names, every one but the last of which must lead to a directory. -/
def follow (t : FileTree) (whole : Path) (here : Path) : List String → Except ReadError Path
  | [] => .ok here
  | n :: rest =>
    if t.isDirectory here then follow t whole (if n == ".." then here.parent else here.child n) rest
    else if (t.file? here).isSome then .error (.notDirectory whole)
    else .error (.missing whole)

/-- The place that a path leads to, whether something stands there or not. -/
def place (t : FileTree) (p : Path) : Except ReadError Path :=
  let absolute := t.home.join p
  t.follow p absolute.origin absolute.names

def «exists» (t : FileTree) (p : Path) : Bool :=
  match t.place p with
  | .ok q => t.isDirectory q || (t.file? q).isSome
  | .error _ => false

/-- What stands at a path, if it is a file. -/
def read (t : FileTree) (p : Path) : Except ReadError File := do
  let q ← t.place p
  match t.file? q with
  | some f => .ok f
  | none => if t.isDirectory q then .error (.isDirectory p) else .error (.missing p)

/-- The text of a file. Every way to end a line is read as a line feed. -/
def textOf (f : File) : Except ReadError String :=
  match Text.decode? f.bytes with
  | some cs => .ok (String.ofList (Text.universalNewlines cs))
  | none => .error (.notText ((Text.fault? f.bytes).getD ⟨0, 0, 0, ""⟩))

def readText (t : FileTree) (p : Path) : Except ReadError String := do textOf (← t.read p)

/-- Sets the value of a key: it keeps its place or comes last. -/
def store (entries : List (Path × File)) (p : Path) (f : File) : List (Path × File) :=
  if entries.any fun (q, _) => q == p then entries.map fun (q, g) => (q, if q == p then f else g)
  else entries ++ [(p, f)]

/-- Adds a directory, and those above it. -/
def makeDirectory (t : FileTree) (p : Path) : FileTree :=
  let new := p.ancestors.filter fun d => !t.directories.contains d
  { t with directories := t.directories ++ new }

/-- Puts a file at a place, with the directories above it. -/
def put (t : FileTree) (p : Path) (f : File) : FileTree :=
  let t := t.makeDirectory p.parent
  { t with files := store t.files p f }

/-- Writes a text to a place. -/
def putText (t : FileTree) (p : Path) (text : String) (time : Nat) : FileTree :=
  t.put p ⟨Text.encode text.toList, time⟩

/-- Writes a text to a file; what its path leads to must not be a directory. -/
def writeText (t : FileTree) (p : Path) (text : String) (time : Nat) : FileTree :=
  match t.place p with
  | .ok q => if t.isDirectory q then t else t.putText q text time
  | .error _ => t

/-- Takes a file away. -/
def delete (t : FileTree) (p : Path) : Except ReadError FileTree := do
  let _ ← t.read p
  let q ← t.place p
  .ok { t with files := t.files.filter fun (r, _) => r != q }

/-- The order of a walk: the files of a directory by name, then what is in its directories, by the names of these. -/
def walkPrecedes : List String → List String → Bool
  | [], _ => true
  | _, [] => false
  | [a], [b] => decide (a ≤ b)
  | [_], _ => true
  | _, [_] => false
  | a :: as, b :: bs => if a == b then walkPrecedes as bs else decide (a < b)

/-- The names that lead from a directory to the files in and below it, in the order of a walk. -/
def below (t : FileTree) (directory : Path) : List (List String) :=
  let found := t.files.filterMap fun (p, _) =>
    if p.root == directory.root && directory.names.isPrefixOf p.names && directory.names.length < p.names.length then
      some (p.names.drop directory.names.length)
    else none
  found.mergeSort walkPrecedes

end FileTree

end Remedy
