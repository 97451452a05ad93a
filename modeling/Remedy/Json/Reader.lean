import Remedy.Json.Value

/-!
Reading JSON. Beside the standard, the words `NaN`, `Infinity` and `-Infinity` are numbers.
-/

namespace Remedy.Json

def isSpace (c : Char) : Bool := c == ' ' || c == '\t' || c == '\n' || c == '\r'

def skipSpace (cs : List Char) : List Char := cs.dropWhile isSpace

def hexValue? (c : Char) : Option Nat :=
  if c.isDigit then some (c.toNat - 48)
  else if 'a' ≤ c && c ≤ 'f' then some (c.toNat - 87)
  else if 'A' ≤ c && c ≤ 'F' then some (c.toNat - 55)
  else none

/-- Four hexadecimal digits. -/
def readHex4 : List Char → Option (Nat × List Char)
  | a :: b :: c :: d :: rest => do
    let a ← hexValue? a
    let b ← hexValue? b
    let c ← hexValue? c
    let d ← hexValue? d
    return (((a * 16 + b) * 16 + c) * 16 + d, rest)
  | _ => none

/-- The character of a `\u` escape whose mark has been read; two escapes may write one character. -/
def readUnicode (cs : List Char) : Option (Char × List Char) := do
  let (high, rest) ← readHex4 cs
  if 0xD800 ≤ high && high < 0xDC00 then
    match rest with
    | '\\' :: 'u' :: more =>
      match readHex4 more with
      | some (low, after) =>
        if 0xDC00 ≤ low && low < 0xE000 then
          return (Char.ofNat (0x10000 + (high - 0xD800) * 0x400 + (low - 0xDC00)), after)
        else return ('\ufffd', rest)
      | none => return ('\ufffd', rest)
    | _ => return ('\ufffd', rest)
  else if 0xDC00 ≤ high && high < 0xE000 then return ('\ufffd', rest)
  else return (Char.ofNat high, rest)

/-- The rest of a string whose opening quote has been read. -/
def readString : Nat → List Char → Option (List Char × List Char)
  | 0, _ => none
  | fuel + 1, cs =>
    match cs with
    | '"' :: rest => some ([], rest)
    | '\\' :: 'u' :: rest => do
      let (c, rest) ← readUnicode rest
      let (text, rest) ← readString fuel rest
      return (c :: text, rest)
    | '\\' :: mark :: rest => do
      let c ← ("\"\\/bfnrt".toList.zip "\"\\/\x08\x0c\n\r\t".toList).lookup mark
      let (text, rest) ← readString fuel rest
      return (c :: text, rest)
    | c :: rest =>
      if c.toNat < 0x20 || c == '\\' then none else do
        let (text, rest) ← readString fuel rest
        return (c :: text, rest)
    | [] => none

def digitsValue (ds : List Char) : Nat := ds.foldl (fun n c => n * 10 + (c.toNat - 48)) 0

/-- The digits before a point. Nothing but a zero alone begins with one. -/
def readWhole (cs : List Char) : List Char × List Char :=
  match cs.takeWhile Char.isDigit with
  | '0' :: _ => (['0'], cs.drop 1)
  | whole => (whole, cs.drop whole.length)

/-- The digits behind a point, if both are there. -/
def readFraction (cs : List Char) : List Char × List Char :=
  match cs with
  | '.' :: more =>
    let ds := more.takeWhile Char.isDigit
    if ds.isEmpty then ([], cs) else (ds, more.drop ds.length)
  | _ => ([], cs)

/-- A power of ten, with its sign or without. -/
def readPower (cs : List Char) : Option Int × List Char :=
  match cs with
  | e :: more =>
    if e == 'e' || e == 'E' then
      let (minus, more) := match more with
        | '+' :: m => (false, m)
        | '-' :: m => (true, m)
        | m => (false, m)
      let ds := more.takeWhile Char.isDigit
      if ds.isEmpty then (none, cs)
      else
        let n : Int := digitsValue ds
        (some (if minus then -n else n), more.drop ds.length)
    else (none, cs)
  | [] => (none, cs)

/-- A number without its sign. -/
def readNumber (negative : Bool) (cs : List Char) : Option (Json × List Char) :=
  let (whole, rest) := readWhole cs
  if whole.isEmpty then none else
    let (fraction, rest) := readFraction rest
    let (exponent, rest) := readPower rest
    if fraction.isEmpty && exponent.isNone then
      let n : Int := digitsValue whole
      some (.int (if negative then -n else n), rest)
    else
      some (.real (Binary64.ofDecimal negative (digitsValue (whole ++ fraction))
        (exponent.getD 0 - fraction.length)), rest)

/-- The text after a word, if it begins with it. -/
def afterWord (word : String) (cs : List Char) : Option (List Char) :=
  if word.toList.isPrefixOf cs then some (cs.drop word.length) else none

mutual

def readValue : Nat → List Char → Option (Json × List Char)
  | 0, _ => none
  | fuel + 1, cs =>
    match cs with
    | '"' :: rest => (readString (rest.length + 1) rest).map fun (text, rest) => (.str (String.ofList text), rest)
    | '[' :: rest =>
      match skipSpace rest with
      | ']' :: after => some (.arr [], after)
      | inner => readItems fuel inner
    | '\x7b' :: rest =>
      match skipSpace rest with
      | '\x7d' :: after => some (.obj [], after)
      | inner => (readFields fuel [] inner).map fun (fields, rest) => (.obj fields, rest)
    | 'n' :: _ => (afterWord "null" cs).map fun rest => (.null, rest)
    | 't' :: _ => (afterWord "true" cs).map fun rest => (.bool true, rest)
    | 'f' :: _ => (afterWord "false" cs).map fun rest => (.bool false, rest)
    | 'N' :: _ => (afterWord "NaN" cs).map fun rest => (.real .nan, rest)
    | 'I' :: _ => (afterWord "Infinity" cs).map fun rest => (.real (.infinite false), rest)
    | '-' :: rest =>
      match afterWord "Infinity" rest with
      | some rest => some (.real (.infinite true), rest)
      | none => readNumber true rest
    | _ => readNumber false cs

/-- The items of an array up to its end. -/
def readItems : Nat → List Char → Option (Json × List Char)
  | 0, _ => none
  | fuel + 1, cs => do
    let (item, rest) ← readValue fuel cs
    match skipSpace rest with
    | ',' :: rest =>
      match ← readItems fuel (skipSpace rest) with
      | (.arr items, rest) => return (.arr (item :: items), rest)
      | _ => none
    | ']' :: rest => return (.arr [item], rest)
    | _ => none

/-- The fields of an object up to its end, added to those before them. -/
def readFields : Nat → List (String × Json) → List Char → Option (List (String × Json) × List Char)
  | 0, _, _ => none
  | fuel + 1, before, cs =>
    match cs with
    | '"' :: rest => do
      let (key, rest) ← readString (rest.length + 1) rest
      match skipSpace rest with
      | ':' :: rest =>
        let (value, rest) ← readValue fuel (skipSpace rest)
        let fields := put before (String.ofList key) value
        match skipSpace rest with
        | ',' :: rest => readFields fuel fields (skipSpace rest)
        | '\x7d' :: rest => return (fields, rest)
        | _ => none
      | _ => none
    | _ => none

end

/-- The value of a whole text, blanks around it aside. -/
def parse? (text : String) : Option Json :=
  let cs := text.toList
  match readValue (2 * cs.length + 2) (skipSpace cs) with
  | some (value, rest) => if (skipSpace rest).isEmpty then some value else none
  | none => none

end Remedy.Json
