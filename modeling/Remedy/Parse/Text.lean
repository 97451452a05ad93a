/-!
A text laid out for scanning: its characters by index, with the byte offset and the row of each.
-/

namespace Remedy.Parse

structure Text where
  chars : Array Char
  /-- The byte offset of each character, and of the end. -/
  offsets : Array Nat
  /-- The number of line feeds before each character, and before the end. -/
  rows : Array Nat
  deriving Inhabited

namespace Text

def ofString (s : String) : Text :=
  let chars := s.toList.toArray
  let (offsets, rows, byte, row) := chars.foldl (fun (offsets, rows, byte, row) c =>
    ((offsets : Array Nat).push byte, (rows : Array Nat).push row, byte + c.utf8Size,
      if c == '\n' then row + 1 else row)) (#[], #[], 0, 0)
  ⟨chars, offsets.push byte, rows.push row⟩

def size (t : Text) : Nat := t.chars.size

def char? (t : Text) (i : Nat) : Option Char := t.chars[i]?

def byteAt (t : Text) (i : Nat) : Nat := t.offsets.getD i (t.offsets.back?.getD 0)

def rowAt (t : Text) (i : Nat) : Nat := t.rows.getD i (t.rows.back?.getD 0)

/-- The first index from `i` on whose character fails the test. -/
def skipWhile (t : Text) (test : Char → Bool) (i : Nat) : Nat :=
  if h : i < t.chars.size then
    if test t.chars[i] then skipWhile t test (i + 1) else i
  else i
termination_by t.chars.size - i

/-- Blanks as the scanners count them: the no-break spaces are not among them. -/
def isBlank (c : Char) : Bool :=
  let n := c.toNat
  n == 0x20 || (9 ≤ n && n ≤ 13) || n == 0x1680 || (0x2000 ≤ n && n ≤ 0x2006) || (0x2008 ≤ n && n ≤ 0x200A) ||
    n == 0x2028 || n == 0x2029 || n == 0x205F || n == 0x3000

/-- The characters from `i` to `j`. -/
def slice (t : Text) (i j : Nat) : List Char := (t.chars.extract i j).toList

end Text

end Remedy.Parse
