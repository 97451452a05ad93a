import Remedy.Node.Source
import Remedy.Text.Blank
import Remedy.Text.Unescape

/-!
Candidates: the elements written in a source file, each with what may identify it.
-/

namespace Remedy

structure Candidate where
  tag : String
  text : String
  classes : List String
  attributes : List (String × String)
  location : Position
  closing : Option Position
  file : String
  deriving DecidableEq, Repr, Inhabited

namespace Text

/-- Blanks among the bytes of ASCII. -/
def isBlankByte (b : UInt8) : Bool := (9 ≤ b && b ≤ 13) || b == 32

/-- The texts of nodes, a space before each that has a blank between itself and the node before it. -/
def joinedFrom (source : Bytes) (previous : Option Nat) : List Node → List Char
  | [] => []
  | n :: rest =>
    let gap := match previous with
      | some stop => (sliceBytes source stop n.start).any isBlankByte
      | none => false
    let here := (n.textIn source).toList ++ joinedFrom source (some n.stop) rest
    if gap then ' ' :: here else here

/-- The texts of nodes as a reader of the page sees them. -/
def joined (source : Bytes) (nodes : List Node) : String :=
  normalize (unescape (String.ofList (joinedFrom source none nodes)))

end Text

end Remedy
