import Remedy.Text.References

/-!
Character references in HTML text, resolved as browsers do: a name may lack its semicolon if it is an old one, and of
a longer run of letters the longest such name counts.
-/

namespace Remedy.Text

/-- The text that a name stands for; names end with their semicolon unless they are old ones. -/
def lookupReference (name : List Char) : Option (List Char) :=
  match name.getLast? with
  | some ';' => (references.lookup (String.ofList name.dropLast)).map String.toList
  | _ =>
    let s := String.ofList name
    if bareNames.contains s then (references.lookup s).map String.toList else none

/-- The longest beginning of a name, of two letters or more, that is a name itself, with what remains. -/
def longestReference (name : List Char) : Nat → Option (List Char)
  | 0 => none
  | n + 1 =>
    if n + 1 < 2 then none else
      match lookupReference (name.take (n + 1)) with
      | some text => some (text ++ name.drop (n + 1))
      | none => longestReference name n

/-- What old pages meant by the numbers 128 to 159, and what stands for zero and the carriage return. -/
def legacyCodes : List (Nat × Nat) :=
  [(0x00, 0xFFFD), (0x0D, 0x0D), (0x80, 0x20AC), (0x81, 0x81), (0x82, 0x201A), (0x83, 0x0192), (0x84, 0x201E),
   (0x85, 0x2026), (0x86, 0x2020), (0x87, 0x2021), (0x88, 0x02C6), (0x89, 0x2030), (0x8A, 0x0160), (0x8B, 0x2039),
   (0x8C, 0x0152), (0x8D, 0x8D), (0x8E, 0x017D), (0x8F, 0x8F), (0x90, 0x90), (0x91, 0x2018), (0x92, 0x2019),
   (0x93, 0x201C), (0x94, 0x201D), (0x95, 0x2022), (0x96, 0x2013), (0x97, 0x2014), (0x98, 0x02DC), (0x99, 0x2122),
   (0x9A, 0x0161), (0x9B, 0x203A), (0x9C, 0x0153), (0x9D, 0x9D), (0x9E, 0x017E), (0x9F, 0x0178)]

/-- Numbers for which no character may stand. -/
def isForbiddenCode (n : Nat) : Bool :=
  (1 ≤ n && n ≤ 8) || n == 0xB || (0xE ≤ n && n ≤ 0x1F) || (0x7F ≤ n && n ≤ 0x9F) || (0xFDD0 ≤ n && n ≤ 0xFDEF) ||
    (n % 0x10000 ≥ 0xFFFE && n ≤ 0x10FFFF)

/-- The text for a number. -/
def ofCode (n : Nat) : List Char :=
  match legacyCodes.lookup n with
  | some m => [Char.ofNat m]
  | none =>
    if (0xD800 ≤ n && n ≤ 0xDFFF) || n > 0x10FFFF then ['\ufffd']
    else if isForbiddenCode n then []
    else [Char.ofNat n]

def isHexDigit (c : Char) : Bool := c.isDigit || ('a' ≤ c && c ≤ 'f') || ('A' ≤ c && c ≤ 'F')

def hexValue (c : Char) : Nat :=
  if c.isDigit then c.toNat - 48 else if 'a' ≤ c then c.toNat - 87 else c.toNat - 55

/-- The number that digits write in a base. -/
def valueOf (base : Nat) (digits : List Char) : Nat := digits.foldl (fun n c => n * base + hexValue c) 0

/-- Characters that can be part of a name. -/
def isNameChar (c : Char) : Bool := !"\t\n\x0c <&#;".contains c

def dropSemicolon : List Char → List Char
  | ';' :: rest => rest
  | rest => rest

/-- The reference that a text after an ampersand begins with: what it stands for, and what follows. -/
def reference? (cs : List Char) : Option (List Char × List Char) :=
  match cs with
  | '#' :: rest =>
    let decimal := rest.takeWhile Char.isDigit
    if !decimal.isEmpty then
      some (ofCode (valueOf 10 decimal), dropSemicolon (rest.dropWhile Char.isDigit))
    else match rest with
      | x :: hex =>
        let digits := hex.takeWhile isHexDigit
        if (x == 'x' || x == 'X') && !digits.isEmpty then
          some (ofCode (valueOf 16 digits), dropSemicolon (hex.dropWhile isHexDigit))
        else none
      | [] => none
  | _ =>
    let name := (cs.takeWhile isNameChar).take 32
    if name.isEmpty then none else
      let rest := cs.drop name.length
      let whole := match rest with
        | ';' :: _ => name ++ [';']
        | _ => name
      let after := cs.drop whole.length
      let text := match lookupReference whole with
        | some text => text
        | none => (longestReference whole (whole.length - 1)).getD ('&' :: whole)
      some (text, after)

/-- Resolves every reference, from left to right. -/
def unescapeFrom : Nat → List Char → List Char
  | 0, cs => cs
  | _, [] => []
  | fuel + 1, c :: rest =>
    if c == '&' then
      match reference? rest with
      | some (text, after) => text ++ unescapeFrom fuel after
      | none => c :: unescapeFrom fuel rest
    else c :: unescapeFrom fuel rest

def unescape (s : String) : String := String.ofList (unescapeFrom s.length s.toList)

/-! ### Writing attribute values -/

/-- The marks around an attribute value. -/
inductive Quote where
  | double
  | single
  deriving DecidableEq, Repr, Inhabited

def Quote.char : Quote → Char
  | .double => '"'
  | .single => '\''

/-- A character as it stands inside quotes. -/
def escapeChar (quote : Quote) (c : Char) : List Char :=
  if c == '&' then "&amp;".toList
  else match quote with
    | .single => if c == '\'' then "&#39;".toList else [c]
    | .double => if c == '"' then "&quot;".toList else [c]

/-- A value as it stands inside quotes: neither the quote itself nor a bare ampersand is left in it. -/
def escapeAttribute (value : String) (quote : Quote) : String :=
  String.ofList (value.toList.flatMap (escapeChar quote))

end Remedy.Text
