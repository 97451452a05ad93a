import Remedy.Css.Selector

/-!
The pieces of a selector: blanks, names, values and the tokens made of them. Each reader gives what stands at the
front of a text and what remains.
-/

namespace Remedy.Css

def isSpace (c : Char) : Bool := c == ' ' || c == '\t' || c == '\n' || c == '\r' || c == '\x0c'

def isNewline (c : Char) : Bool := c == '\n' || c == '\r' || c == '\x0c'

/-- The text after a comment whose opening has been read. -/
def afterComment? : List Char → Option (List Char)
  | '*' :: '/' :: rest => some rest
  | _ :: rest => afterComment? rest
  | [] => none

/-- Drops blanks and comments; the flag tells whether there was a blank among them. -/
def skipBlanks : Nat → List Char → Bool × List Char
  | 0, cs => (false, cs)
  | fuel + 1, cs =>
    match cs with
    | '/' :: '*' :: rest =>
      match afterComment? rest with
      | some after => skipBlanks fuel after
      | none => (false, cs)
    | c :: rest => if isSpace c then (true, (skipBlanks fuel rest).2) else (false, cs)
    | [] => (false, [])

def blanks (cs : List Char) : List Char := (skipBlanks (cs.length + 1) cs).2

def hexValue? (c : Char) : Option Nat :=
  if c.isDigit then some (c.toNat - 48)
  else if 'a' ≤ c && c ≤ 'f' then some (c.toNat - 87)
  else if 'A' ≤ c && c ≤ 'F' then some (c.toNat - 55)
  else none

/-- The longest run of up to `n` hexadecimal digits. -/
def hexRun : Nat → List Char → List Char
  | 0, _ => []
  | _, [] => []
  | n + 1, c :: rest => if (hexValue? c).isSome then c :: hexRun n rest else []

def dropSpace : List Char → List Char
  | '\r' :: '\n' :: rest => rest
  | c :: rest => if isSpace c then rest else c :: rest
  | [] => []

/-- The character for a number; zero stands for the replacement character. -/
def charOf (n : Nat) : Char := if n == 0 then '\ufffd' else Char.ofNat n

/-- What an escape stands for, from the text after its backslash. -/
def escape? (cs : List Char) : Option (List Char × List Char) :=
  let digits := hexRun 6 cs
  if !digits.isEmpty then
    let n := digits.foldl (fun n c => n * 16 + (hexValue? c).getD 0) 0
    some ([charOf n], dropSpace (cs.drop digits.length))
  else match cs with
    | [] => some (['\ufffd'], [])
    | c :: rest => if isNewline c then none else some ([c], rest)

/-- Characters that a name may begin with. -/
def isNameStart (c : Char) : Bool := c.isAlpha || c == '_' || 0xA0 ≤ c.toNat

def isNamePart (c : Char) : Bool := isNameStart c || c.isDigit || c == '-'

/-- The rest of a name. -/
def namePart : Nat → List Char → List Char × List Char
  | 0, cs => ([], cs)
  | fuel + 1, cs =>
    match cs with
    | [] => ([], [])
    | '\\' :: rest =>
      match escape? rest with
      | some (text, after) =>
        let (more, remaining) := namePart fuel after
        (text ++ more, remaining)
      | none => ([], cs)
    | c :: rest =>
      if isNamePart c then
        let (more, remaining) := namePart fuel rest
        (c :: more, remaining)
      else ([], cs)

/-- Whether a name begins here. -/
def beginsName : List Char → Bool
  | '-' :: '-' :: _ => true
  | '-' :: c :: rest => isNameStart c || (c == '\\' && (escape? rest).isSome)
  | c :: rest => isNameStart c || (c == '\\' && (escape? rest).isSome)
  | [] => false

def name? (cs : List Char) : Option (String × List Char) :=
  if beginsName cs then
    let (text, rest) := namePart (cs.length + 1) cs
    some (String.ofList text, rest)
  else none

/-- A quoted text after its opening quote. -/
def quoted? (mark : Char) : Nat → List Char → Option (List Char × List Char)
  | 0, _ => none
  | fuel + 1, cs =>
    match cs with
    | [] => none
    | '\\' :: '\r' :: '\n' :: rest => quoted? mark fuel rest
    | '\\' :: rest =>
      match escape? rest with
      | some (text, after) =>
        if rest.isEmpty then none
        else (quoted? mark fuel after).map fun (more, remaining) => (text ++ more, remaining)
      | none => quoted? mark fuel (rest.drop 1)
    | c :: rest =>
      if c == mark then some ([], rest)
      else if isNewline c then none
      else (quoted? mark fuel rest).map fun (more, remaining) => (c :: more, remaining)

/-- A quoted text, or a name. -/
def value? (cs : List Char) : Option (String × List Char) :=
  match cs with
  | c :: rest =>
    if c == '"' || c == '\'' then
      (quoted? c (rest.length + 1) rest).map fun (text, after) => (String.ofList text, after)
    else name? cs
  | [] => none

/-- Values between commas. -/
def values? : Nat → List Char → Option (List String × List Char)
  | 0, _ => none
  | fuel + 1, cs => do
    let (first, rest) ← value? cs
    match blanks rest with
    | ',' :: more =>
      match values? fuel (blanks more) with
      | some (others, remaining) => some (first :: others, remaining)
      | none => some ([first], rest)
    | _ => some ([first], rest)

/-- Letters of ASCII made small. -/
def lowerAscii (s : String) : String := String.ofList (s.toList.map Char.toLower)

/-- The text after a closing bracket, blanks before it aside. -/
def closed? (mark : Char) (cs : List Char) : Option (List Char) :=
  match blanks cs with
  | c :: rest => if c == mark then some rest else none
  | [] => none

/-! ### Places -/

def digitsValue (ds : List Char) : Nat := ds.foldl (fun n c => n * 10 + (c.toNat - 48)) 0

/-- The word at the front, in any case of letters. -/
def word? (word : String) (cs : List Char) : Option (List Char) :=
  if (cs.take word.length).map Char.toLower == word.toList then some (cs.drop word.length) else none

def isN (c : Char) : Bool := c == 'n' || c == 'N'

/-- A sign and digits after the variable, if both are there. -/
def offset? (cs : List Char) : Option (Int × List Char) :=
  match blanks cs with
  | c :: rest =>
    if c == '+' || c == '-' then
      let body := blanks rest
      let digits := body.takeWhile Char.isDigit
      if digits.isEmpty then none
      else
        let n : Int := digitsValue digits
        some (if c == '-' then -n else n, body.drop digits.length)
    else none
  | [] => none

/-- Places such as `odd`, `3` and `-2n + 1`. -/
def places? (cs : List Char) : Option (Places × List Char) :=
  match word? "even" cs with
  | some rest => some (⟨2, 0⟩, rest)
  | none => match word? "odd" cs with
    | some rest => some (⟨2, 1⟩, rest)
    | none =>
      let (negative, body) := match cs with
        | '-' :: rest => (true, rest)
        | '+' :: rest => (false, rest)
        | _ => (false, cs)
      let signed (n : Int) : Int := if negative then -n else n
      let digits := body.takeWhile Char.isDigit
      match body.drop digits.length with
      | c :: rest =>
        if isN c then
          let step := signed (if digits.isEmpty then 1 else digitsValue digits)
          match offset? rest with
          | some (offset, after) => some (⟨step, offset⟩, after)
          | none => some (⟨step, 0⟩, rest)
        else if digits.isEmpty then none
        else some (⟨0, signed (digitsValue digits)⟩, c :: rest)
      | [] => if digits.isEmpty then none else some (⟨0, signed (digitsValue digits)⟩, [])

end Remedy.Css
