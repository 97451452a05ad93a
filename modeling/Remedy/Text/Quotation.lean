import Remedy.Text.Printable

/-!
Texts as messages quote them: what cannot be seen is spelled out.
-/

namespace Remedy.Text

def hexDigits : Nat → Nat → List Char
  | 0, _ => []
  | width + 1, n =>
    let d := n % 16
    hexDigits width (n / 16) ++ [if d < 10 then Char.ofNat (48 + d) else Char.ofNat (87 + d)]

/-- Double quotes stand around a text that has single quotes alone. -/
def quotationMark (cs : List Char) : Char := if cs.contains '\'' && !cs.contains '"' then '"' else '\''

def quotedChar (mark c : Char) : List Char :=
  let n := c.toNat
  if c == mark || c == '\\' then ['\\', c]
  else if c == '\n' then ['\\', 'n']
  else if c == '\r' then ['\\', 'r']
  else if c == '\t' then ['\\', 't']
  else if isPrintable c then [c]
  else if n < 0x100 then '\\' :: 'x' :: hexDigits 2 n
  else if n < 0x10000 then '\\' :: 'u' :: hexDigits 4 n
  else '\\' :: 'U' :: hexDigits 8 n

def quotation (s : String) : String :=
  let cs := s.toList
  let mark := quotationMark cs
  String.ofList (mark :: (cs.flatMap (quotedChar mark) ++ [mark]))

end Remedy.Text
