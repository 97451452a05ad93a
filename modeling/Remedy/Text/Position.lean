import Remedy.Text.Utf8

/-!
Places in a text: lines count from one, columns count characters from zero.
-/

namespace Remedy

structure Position where
  line : Int
  column : Int
  deriving DecidableEq, Repr, Inhabited

namespace Position

/-- The place after one more byte. Bytes that continue a character take no room. -/
def step (p : Position) (b : UInt8) : Position :=
  if b == 10 then ⟨p.line + 1, 0⟩
  else if Text.isContinuation b then p
  else ⟨p.line, p.column + 1⟩

/-- The place at a byte offset; offsets past the end are at the end. -/
def ofOffset (bytes : Text.Bytes) (offset : Nat) : Position := (bytes.take offset).foldl step ⟨1, 0⟩

/-- Moves a place inside a block to where the block stands in its file. Only on the block's first line do columns
move. -/
def shift (p : Position) (lines columns : Int) : Position :=
  ⟨p.line + lines, if p.line == 1 then p.column + columns else p.column⟩

end Position

end Remedy
