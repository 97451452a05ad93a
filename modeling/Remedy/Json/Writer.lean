import Remedy.Json.Value

/-!
Writing JSON on one line, either with a space after every comma and colon or as short as can be.
-/

namespace Remedy.Json

def hexDigit (n : Nat) : Char := if n < 10 then Char.ofNat (48 + n) else Char.ofNat (87 + n)

def hex4 (n : Nat) : List Char :=
  [hexDigit (n / 4096 % 16), hexDigit (n / 256 % 16), hexDigit (n / 16 % 16), hexDigit (n % 16)]

def unicodeEscape (n : Nat) : List Char := '\\' :: 'u' :: hex4 n

/-- A character inside a string; with `ascii`, all but the printable characters of ASCII are escaped. -/
def escapeChar (ascii : Bool) (c : Char) : List Char :=
  if c == '"' then ['\\', '"']
  else if c == '\\' then ['\\', '\\']
  else if c == '\n' then ['\\', 'n']
  else if c == '\r' then ['\\', 'r']
  else if c == '\t' then ['\\', 't']
  else if c == '\x08' then ['\\', 'b']
  else if c == '\x0c' then ['\\', 'f']
  else if c.toNat < 0x20 then unicodeEscape c.toNat
  else if !ascii || c.toNat < 0x7F then [c]
  else if c.toNat < 0x10000 then unicodeEscape c.toNat
  else
    let n := c.toNat - 0x10000
    unicodeEscape (0xD800 + n / 0x400) ++ unicodeEscape (0xDC00 + n % 0x400)

/-- A string between its quotes. -/
def quoted (ascii : Bool) (s : String) : List Char := '"' :: (s.toList.flatMap (escapeChar ascii) ++ ['"'])

def realText : Binary64 → String
  | .nan => "NaN"
  | .infinite negative => if negative then "-Infinity" else "Infinity"
  | x => x.text

/-- What is open in how a value is written. -/
structure Style where
  /-- Whether all but the printable characters of ASCII are escaped in strings. -/
  ascii : Bool
  /-- Whether a space stands after every comma and colon. -/
  spaced : Bool

/-- What stands after a comma or a colon. -/
def Style.gap (style : Style) : List Char := if style.spaced then [' '] else []

mutual

def write (style : Style) : Json → List Char
  | .null => "null".toList
  | .bool b => (if b then "true" else "false").toList
  | .int n => (toString n).toList
  | .real x => (realText x).toList
  | .str s => quoted style.ascii s
  | .arr items => '[' :: (writeItems style items ++ [']'])
  | .obj fields => '\x7b' :: (writeFields style fields ++ ['\x7d'])

def writeItems (style : Style) : List Json → List Char
  | [] => []
  | [v] => write style v
  | v :: rest => write style v ++ ',' :: (style.gap ++ writeItems style rest)

def writeFields (style : Style) : List (String × Json) → List Char
  | [] => []
  | [(k, v)] => quoted style.ascii k ++ ':' :: (style.gap ++ write style v)
  | (k, v) :: rest =>
    quoted style.ascii k ++ ':' :: (style.gap ++ (write style v ++ ',' :: (style.gap ++ writeFields style rest)))

end

/-- The text of a value, in ASCII. -/
def render (v : Json) : String := String.ofList (write ⟨true, true⟩ v)

/-- The shortest text of a value, with characters as they are. -/
def compact (v : Json) : String := String.ofList (write ⟨false, false⟩ v)

mutual

/-- The value with the fields of its objects sorted by key. -/
def sorted : Json → Json
  | .arr items => .arr (sortedAll items)
  | .obj fields => .obj ((sortedFields fields).mergeSort fun a b => decide (a.1 ≤ b.1))
  | v => v

def sortedAll : List Json → List Json
  | [] => []
  | v :: rest => sorted v :: sortedAll rest

def sortedFields : List (String × Json) → List (String × Json)
  | [] => []
  | (k, v) :: rest => (k, sorted v) :: sortedFields rest

end

end Remedy.Json
