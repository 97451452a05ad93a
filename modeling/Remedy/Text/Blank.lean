/-!
Blanks, words and lines of a text.
-/

namespace Remedy.Text

/-- Blanks after Unicode, the no-break spaces and the separators of files and records among them. -/
def isBlank (c : Char) : Bool :=
  let n := c.toNat
  (9 ≤ n && n ≤ 13) || (0x1C ≤ n && n ≤ 0x20) || n == 0x85 || n == 0xA0 || n == 0x1680 ||
    (0x2000 ≤ n && n ≤ 0x200A) || n == 0x2028 || n == 0x2029 || n == 0x202F || n == 0x205F || n == 0x3000

def trimStart (cs : List Char) : List Char := cs.dropWhile isBlank

/-- What is left before the longest tail that passes the test. -/
def dropTail (test : Char → Bool) (cs : List Char) : List Char := (cs.reverse.dropWhile test).reverse

def trimEnd (cs : List Char) : List Char := dropTail isBlank cs

def trim (cs : List Char) : List Char := trimEnd (trimStart cs)

/-- The runs of characters between blanks; `word` is the run being read, backwards. -/
def wordsFrom (word : List Char) : List Char → List (List Char)
  | [] => if word.isEmpty then [] else [word.reverse]
  | c :: rest =>
    if isBlank c then
      if word.isEmpty then wordsFrom [] rest else word.reverse :: wordsFrom [] rest
    else wordsFrom (c :: word) rest

def words (s : String) : List String := (wordsFrom [] s.toList).map String.ofList

def strip (s : String) : String := String.ofList (trim s.toList)

/-- Whether a text is nothing but blanks. -/
def isBlankText (s : String) : Bool := s.toList.all isBlank

/-- One space between words, and none around them. -/
def normalize (s : String) : String := " ".intercalate (words s)

/-- Characters that end a line. A carriage return and the line feed after it end one line together. -/
def endsLine (c : Char) : Bool :=
  let n := c.toNat
  (10 ≤ n && n ≤ 13) || (0x1C ≤ n && n ≤ 0x1E) || n == 0x85 || n == 0x2028 || n == 0x2029

/-- The lines of a text, each with the characters that end it; `line` is the one being read, backwards. -/
def linesFrom (line : List Char) : List Char → List (List Char)
  | [] => if line.isEmpty then [] else [line.reverse]
  | '\r' :: '\n' :: rest => ('\n' :: '\r' :: line).reverse :: linesFrom [] rest
  | c :: rest =>
    if endsLine c then (c :: line).reverse :: linesFrom [] rest else linesFrom (c :: line) rest

def lines (cs : List Char) : List (List Char) := linesFrom [] cs

/-- A line without the characters that end it. -/
def chomp (line : List Char) : List Char := dropTail endsLine line

/-- The first line without its end. -/
def firstLine? (cs : List Char) : Option (List Char) := (lines cs).head?.map chomp

/-- Splits a text at every line feed. -/
def splitAtNewlines (cs : List Char) : List (List Char) :=
  match cs with
  | [] => [[]]
  | c :: rest =>
    if c == '\n' then [] :: splitAtNewlines rest
    else match splitAtNewlines rest with
      | [] => [[c]]
      | line :: more => (c :: line) :: more

/-- Reads every way to end a line as a line feed. -/
def universalNewlines : List Char → List Char
  | [] => []
  | '\r' :: '\n' :: rest => '\n' :: universalNewlines rest
  | '\r' :: rest => '\n' :: universalNewlines rest
  | c :: rest => c :: universalNewlines rest

end Remedy.Text
