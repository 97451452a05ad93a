import Remedy.Text.Case

/-!
Paths of files: where they start, and the names on the way.
-/

namespace Remedy

/-- `root` is empty for a path that starts at the working directory. No name is empty or a single point. -/
structure Path where
  root : String
  names : List String
  deriving DecidableEq, Repr, Inhabited

namespace Path

/-- One slash at the front is a root, and so are two; more are one. -/
def rootOf (cs : List Char) : String :=
  match cs with
  | '/' :: '/' :: '/' :: _ => "/"
  | '/' :: '/' :: _ => "//"
  | '/' :: _ => "/"
  | _ => ""

/-- The names between slashes; `name` is the one being read, backwards. -/
def namesFrom (name : List Char) : List Char → List (List Char)
  | [] => [name.reverse]
  | c :: rest => if c == '/' then name.reverse :: namesFrom [] rest else namesFrom (c :: name) rest

def ofString (s : String) : Path :=
  let cs := s.toList
  ⟨rootOf cs, ((namesFrom [] cs).map String.ofList).filter fun n => n != "" && n != "."⟩

def text (p : Path) : String :=
  let s := p.root ++ "/".intercalate p.names
  if s.isEmpty then "." else s

def isAbsolute (p : Path) : Bool := p.root != ""

/-- A path seen from another one. -/
def join (p q : Path) : Path := if q.isAbsolute then q else ⟨p.root, p.names ++ q.names⟩

/-- One more name at the end. -/
def child (p : Path) (name : String) : Path := ⟨p.root, p.names ++ [name]⟩

/-- The path without its last name; a path without names stays. -/
def parent (p : Path) : Path := ⟨p.root, p.names.dropLast⟩

/-- The paths above a path, and the path itself. -/
def ancestors (p : Path) : List Path := (List.range (p.names.length + 1)).map fun n => ⟨p.root, p.names.take n⟩

/-- The last name, if there is any. -/
def name (p : Path) : String := p.names.getLastD ""

/-- Names with every step upwards taken; `above` are the names gone through, the last one first. -/
def climb (above : List String) : List String → List String
  | [] => above.reverse
  | ".." :: rest => climb above.tail rest
  | n :: rest => climb (n :: above) rest

/-- Where the way along a path begins: there is one root, however it is written. -/
def origin (p : Path) : Path := ⟨if p.isAbsolute then "/" else "", []⟩

/-- The same place without steps upwards, seen from a directory. -/
def resolve (directory p : Path) : Path :=
  let q := directory.join p
  ⟨q.origin.root, climb [] q.names⟩

/-- The path from a directory above. -/
def below? (directory p : Path) : Option Path :=
  if p.root == directory.root && directory.names.isPrefixOf p.names then
    some ⟨"", p.names.drop directory.names.length⟩
  else none

/-- The last point of a name and what follows it: a point at either end of the name does not count. -/
def nameSuffix (name : List Char) : List Char :=
  let after := name.reverse.takeWhile (· != '.')
  if after.isEmpty || name.length ≤ after.length + 1 then [] else '.' :: after.reverse

def suffix (p : Path) : String := String.ofList (nameSuffix p.name.toList)

/-- The suffix in small letters, by which kinds of files are told apart. -/
def extension (p : Path) : String := Text.lower p.suffix

end Path

end Remedy
