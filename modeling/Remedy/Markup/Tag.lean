import Remedy.Text.Blank
import Remedy.Text.Case
import Remedy.Text.Unescape

/-!
Start tags as a lenient reader takes them: a name, then attributes until a `>` that no quotes hide.

The reader works on the text after a `<`. It gives up where the text ends inside the tag.
-/

namespace Remedy.Markup

/-- An attribute; one without an equals sign has no value. -/
structure Attribute where
  name : String
  value : Option String
  deriving DecidableEq, Repr

structure StartTag where
  name : String
  attributes : List Attribute
  selfClosing : Bool
  deriving DecidableEq, Repr

/-- What a text after a `<` begins with, together with the text that remains. -/
inductive TagResult where
  | tag (t : StartTag) (rest : List Char)
  /-- No tag after all: all of it up to the rest is text. -/
  | stray (rest : List Char)
  | unfinished

/-- Characters that a tag's name may not contain. -/
def endsTagName (c : Char) : Bool := "\t\n\r\x0c />\x00".contains c

/-- Drops blanks and slashes, but no slash right before a `>`. -/
def skipGap : List Char → List Char
  | [] => []
  | '/' :: '>' :: rest => '/' :: '>' :: rest
  | c :: rest => if Text.isBlank c || c == '/' then skipGap rest else c :: rest

/-- Where an attribute may begin: after a blank, a slash or a closing quote. -/
def mayPrecede (c : Char) : Bool := c == '\'' || c == '"' || c == '/' || Text.isBlank c

def isNameStart (c : Char) : Bool := !(Text.isBlank c || c == '/' || c == '>')

def isNamePart (c : Char) : Bool := isNameStart c && c != '='

def isBare (c : Char) : Bool := c != '>' && !Text.isBlank c

/-- A value after an attribute's name: its text, quotes and all, and what follows. A quote that is never closed is no
quote: the value is then what can be read before it, or from the last of several equals signs on. -/
def value? (cs : List Char) : Option (List Char × List Char) :=
  let signs := (cs.dropWhile Text.isBlank).takeWhile (· == '=')
  let after := (cs.dropWhile Text.isBlank).dropWhile (· == '=')
  if signs.isEmpty then none else
    let blanks := after.takeWhile Text.isBlank
    let body := after.dropWhile Text.isBlank
    match body with
    | q :: rest =>
      if q == '\'' || q == '"' then
        if rest.contains q then some (q :: (rest.takeWhile (· != q) ++ [q]), (rest.dropWhile (· != q)).drop 1)
        else if !blanks.isEmpty then some ([], after.drop (blanks.length - 1))
        else if 2 ≤ signs.length then some (('=' :: body).takeWhile isBare, ('=' :: body).dropWhile isBare)
        else none
      else some (body.takeWhile isBare, body.dropWhile isBare)
    | [] => some ([], [])

/-- A value without its quotes and with its references resolved. -/
def valueText (raw : List Char) : String :=
  let inner := match raw with
    | q :: rest => if (q == '\'' || q == '"') && rest.getLast? == some q then rest.dropLast else raw
    | [] => []
  Text.unescape (String.ofList inner)

/-- The attributes that follow a character, and the text after them. -/
def attributesFrom : Nat → Char → List Char → List Attribute × List Char
  | 0, _, cs => ([], cs)
  | fuel + 1, previous, cs =>
    match cs with
    | [] => ([], [])
    | c :: rest =>
      if mayPrecede previous && isNameStart c then
        let name := c :: rest.takeWhile isNamePart
        let afterName := rest.dropWhile isNamePart
        let (value, afterValue) := match value? afterName with
          | some (raw, after) => (some (valueText raw), after)
          | none => (none, afterName)
        let next := skipGap afterValue
        -- The last character that was read.
        let last := ((c :: rest).take ((c :: rest).length - next.length)).getLastD c
        let (more, remaining) := attributesFrom fuel last next
        (⟨Text.lower (String.ofList name), value⟩ :: more, remaining)
      else ([], cs)

/-- Reads a start tag from the text after its `<`, which begins with a letter. -/
def startTag (cs : List Char) : TagResult :=
  let name := cs.takeWhile fun c => !endsTagName c
  let afterName := cs.drop name.length
  let next := skipGap afterName
  let last := (cs.take (cs.length - next.length)).getLastD ' '
  let (attributes, rest) := attributesFrom next.length last next
  let tag : StartTag := ⟨Text.lower (String.ofList name), attributes, false⟩
  match rest with
  | [] => .unfinished
  | '>' :: after => .tag tag after
  | '/' :: '>' :: after => .tag { tag with selfClosing := true } after
  | c :: _ => if c.isAlpha || c == '=' || c == '/' then .unfinished else .stray rest

/-! ### End tags -/

def isEndNamePart (c : Char) : Bool := c.isAlphanum || c == '-' || c == '.' || c == ':' || c == '_'

/-- The name of a plain end tag, from the text after its `</`, and what follows. -/
def plainEndTag? (cs : List Char) : Option (List Char × List Char) :=
  let body := cs.dropWhile Text.isBlank
  match body with
  | [] => none
  | c :: _ =>
    if c.isAlpha then
      match (body.dropWhile isEndNamePart).dropWhile Text.isBlank with
      | '>' :: rest => some (body.takeWhile isEndNamePart, rest)
      | _ => none
    else none

/-- What stands before and after a character, if it is there. -/
def cutAt? (c : Char) (cs : List Char) : Option (List Char × List Char) :=
  match cs.dropWhile (· != c) with
  | [] => none
  | _ :: rest => some (cs.takeWhile (· != c), rest)

end Remedy.Markup
