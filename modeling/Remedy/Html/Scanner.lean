import Remedy.Html.Element
import Remedy.Parse.Engine

/-!
The tokens of HTML that depend on which elements are open: tag names, the ends of elements that have no end tag,
raw text and comments. The scanner remembers the names of the open elements, innermost first.
-/

namespace Remedy.Html

open Parse

namespace Scan

def isNameChar (c : Char) : Bool := c.isAlphanum || c == '-' || c == ':'

/-- The tag name at `i`, in capitals, and where it ends. -/
def name (text : Text) (i : Nat) : String × Nat :=
  let stop := text.skipWhile isNameChar i
  (String.ofList ((text.slice i stop).map Char.toUpper), stop)

-- The tokens, in the order in which the grammar lists them.
def startTagName : Nat := 0
def scriptStartTagName : Nat := 1
def styleStartTagName : Nat := 2
def endTagName : Nat := 3
def strayEndTagName : Nat := 4
def selfClosing : Nat := 5
def impliedEnd : Nat := 6
def rawText : Nat := 7
def comment : Nat := 8

/-- Where a comment whose opening dashes have been read up to `i` ends. -/
def commentEnd (text : Text) (dashes i : Nat) : Option Nat :=
  if h : i < text.chars.size then
    let c := text.chars[i]
    if c == '-' then commentEnd text (dashes + 1) (i + 1)
    else if c == '>' && dashes ≥ 2 then some (i + 1)
    else commentEnd text 0 (i + 1)
  else none
termination_by text.chars.size - i

/-- Where raw text ends: before the closing tag, or at the end. `mark` is the last index known to be raw. -/
def rawEnd (text : Text) (closing : List Char) (pending : List Char) (mark i : Nat) : Nat :=
  if h : i < text.chars.size then
    let c := text.chars[i].toUpper
    match pending with
    | [] => mark
    | d :: rest =>
      if c == d then
        if rest.isEmpty then mark else rawEnd text closing rest mark (i + 1)
      else rawEnd text closing closing (i + 1) (i + 1)
  else mark
termination_by text.chars.size - i

/-- An element that ends without an end tag, seen at a `<` or at the end of the text. -/
def implied (text : Text) (mark start i : Nat) (open_ : Memory) : Option Scanned :=
  let pop := some ⟨impliedEnd, start, mark, open_.drop 1⟩
  let closing := text.char? i == some '/'
  let parentVoid := match open_ with
    | parent :: _ => isVoid parent
    | [] => false
  if !closing && parentVoid then pop else
    let (tag, stop) := name text (if closing then i + 1 else i)
    let atEnd := stop ≥ text.size
    if tag.isEmpty && !atEnd then none
    else if closing then
      if open_.head?.any (· == tag) then none
      else if open_.any (sameSort · tag) then pop
      else none
    else match open_ with
      | parent :: _ =>
        if !canContain parent tag || (["HTML", "HEAD", "BODY"].contains parent && atEnd) then pop else none
      | [] => none

end Scan

open Scan in
/-- Reads one token that depends on the open elements. -/
def scan : Scanner := fun open_ wanted text i =>
  let want := fun token => wanted.getD token false
  if want rawText && !want startTagName && !want endTagName then
    match open_ with
    | [] => none
    | top :: _ =>
      let closing := (if top == "SCRIPT" then "</SCRIPT" else "</STYLE").toList
      some ⟨rawText, i, rawEnd text closing closing i i, open_⟩
  else
    let start := text.skipWhile Text.isBlank i
    match text.char? start with
    | some '<' =>
      if text.char? (start + 1) == some '!' then
        if text.char? (start + 2) == some '-' && text.char? (start + 3) == some '-' then
          (commentEnd text 0 (start + 4)).map fun stop => ⟨comment, start, stop, open_⟩
        else none
      else if want impliedEnd then implied text start start (start + 1) open_
      else none
    | none => if want impliedEnd then implied text start start start open_ else none
    | some '/' =>
      if want selfClosing && text.char? (start + 1) == some '>' then
        if open_.isEmpty then some ⟨startTagName, start, start + 2, open_⟩
        else some ⟨selfClosing, start, start + 2, open_.drop 1⟩
      else none
    | some _ =>
      if (want startTagName || want endTagName) && !want rawText then
        let (tag, stop) := name text start
        if tag.isEmpty then none
        else if want startTagName then
          let token := if tag == "SCRIPT" then scriptStartTagName
            else if tag == "STYLE" then styleStartTagName
            else startTagName
          some ⟨token, start, stop, tag :: open_⟩
        else if open_.head? == some tag then some ⟨endTagName, start, stop, open_.drop 1⟩
        else some ⟨strayEndTagName, start, stop, open_⟩
      else none

end Remedy.Html
