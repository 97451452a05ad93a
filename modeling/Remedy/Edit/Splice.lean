import Remedy.Text.Utf8

/-!
Replacing stretches of a text, all of them given by the bytes of the text as it was.

The last stretch is replaced first, so that the offsets of the others stay right. Stretches that begin and end alike
are taken in the order given: what is inserted at one place stands in that order.
-/

namespace Remedy

/-- Bytes from `start` up to `stop` give way to `content`. -/
structure Replacement where
  start : Nat
  stop : Nat
  content : String
  deriving DecidableEq, Repr

namespace Replacement

/-- Whether two stretches share a byte, or one is a place inside the other. -/
def overlaps (a b : Replacement) : Bool := a.start < b.stop && b.start < a.stop

/-- Whether a stretch begins before another, or with it and ends no later. -/
def notAfter (a b : Replacement) : Bool := a.start < b.start || (a.start == b.start && a.stop ≤ b.stop)

def applyTo (r : Replacement) (bytes : Text.Bytes) : Text.Bytes :=
  bytes.take r.start ++ Text.encode r.content.toList ++ bytes.drop r.stop

end Replacement

/-- The bytes after all replacements. -/
def spliceBytes (bytes : Text.Bytes) (rs : List Replacement) : Text.Bytes :=
  (rs.mergeSort Replacement.notAfter).foldr Replacement.applyTo bytes

/-- The text after all replacements, unless one of them cuts a character in two. -/
def splice? (bytes : Text.Bytes) (rs : List Replacement) : Option String :=
  (Text.decode? (spliceBytes bytes rs)).map String.ofList

end Remedy
