import Remedy.Parse.Engine

/-!
The tokens of scripts that regular patterns cannot describe: semicolons that are left out, the text of templates and
of markup, and the question mark of a conditional expression.
-/

namespace Remedy.Script

open Parse

/-- Which of the two scripting languages the scanner serves; in the typed one a `?` may also mark a parameter. -/
inductive Dialect where
  | plain
  | typed
  deriving BEq, DecidableEq

namespace Scan

-- The tokens, in the order in which the grammars list them.
def semicolon : Nat := 0
def templateText : Nat := 1
def conditional : Nat := 2
def pageComment : Nat := 3
def logicalOr : Nat := 4
def escape : Nat := 5
def regexBody : Nat := 6
def markupText : Nat := 7
def signatureEnd : Nat := 8

def isDigit (c : Option Char) : Bool := c.any Char.isDigit
def isLetter (c : Option Char) : Bool := c.any fun c => c.isAlpha || c.toNat > 0x7F && !Text.isBlank c
def isLineBreak (c : Char) : Bool := c == '\n' || c.toNat == 0x2028 || c.toNat == 0x2029

/-- Template text up to a substitution, an escape or the closing mark. -/
def template (text : Text) (start i : Nat) : Option Scanned :=
  if h : i < text.chars.size then
    let stop := if i > start then some ⟨templateText, start, i, []⟩ else none
    match text.chars[i] with
    | '\x60' => stop
    | '\\' => stop
    | '$' => if text.char? (i + 1) == some '\x7b' then stop else template text start (i + 1)
    | _ => template text start (i + 1)
  else none
termination_by text.chars.size - i

/-- Where markup text ends, and whether it is more than blank lines. -/
def markup (text : Text) (i : Nat) (atNewline sawText : Bool) : Nat × Bool :=
  if h : i < text.chars.size then
    let c := text.chars[i]
    if "<>\x7b\x7d&".contains c then (i, sawText)
    else if c == '\n' then markup text (i + 1) true sawText
    else
      let atNewline := atNewline && Text.isBlank c
      markup text (i + 1) atNewline (sawText || !atNewline)
  else (i, sawText)
termination_by text.chars.size - i

/-- Where a block comment whose opening has been read ends, and whether it holds a line break. -/
def blockComment (text : Text) (i : Nat) (broken : Bool) : Option Nat × Bool :=
  if h : i < text.chars.size then
    let c := text.chars[i]
    if c == '*' && text.char? (i + 1) == some '/' then (some (i + 2), broken)
    else blockComment text (i + 1) (broken || isLineBreak c)
  else (none, broken)
termination_by text.chars.size - i

inductive Gap where
  /-- A slash that opens no comment. -/
  | rejected
  /-- A comment on one line, with more after it. -/
  | sameLine
  | passed

structure Skipped where
  gap : Gap
  sawComment : Bool
  stop : Nat

/-- Skips blanks and comments. Unless `consume`, stops after a block comment that no slash follows. -/
def skipGap (text : Text) (consume : Bool) : Nat → Nat → Bool → Bool → Skipped
  | 0, i, saw, _ => ⟨.passed, saw, i⟩
  | fuel + 1, i, saw, broken =>
    let i := text.skipWhile Text.isBlank i
    if text.char? i != some '/' then ⟨.passed, saw, i⟩
    else match text.char? (i + 1) with
      | some '/' =>
        skipGap text consume fuel (text.skipWhile (fun c => !isLineBreak c) (i + 2)) true broken
      | some '*' =>
        match blockComment text (i + 2) broken with
        | (some stop, broken) =>
          if text.char? stop != some '/' && !consume then
            ⟨if broken then .passed else .sameLine, true, stop⟩
          else skipGap text consume fuel stop true broken
        | (none, broken) => skipGap text consume fuel text.size saw broken
      | _ => ⟨.rejected, saw, i + 1⟩

/-- Whether a statement may end before the word that begins with `i` at index `k`: not before `in` or
`instanceof`. -/
def endsBeforeWord (text : Text) (k : Nat) : Bool :=
  if text.char? (k + 1) != some 'n' then true
  else if !isLetter (text.char? (k + 2)) then false
  else if text.slice (k + 2) (k + 10) != "stanceof".toList then true
  else isLetter (text.char? (k + 10))

/-- What a look for a left-out semicolon finds. -/
structure Ending where
  found : Bool
  sawComment : Bool
  /-- Where the look stopped. -/
  stop : Nat

/-- After a line break: whether what follows can only begin a new statement. -/
def endsAtBreak (dialect : Dialect) (want : Nat → Bool) (text : Text) (k : Nat) : Bool × Nat :=
  let typed := dialect == .typed
  match text.char? k with
  | none => (true, k)
  | some c =>
    if "`,:;*%><=?^|&/".contains c then (false, k)
    else if c == '.' then
      if typed then (false, k) else (isDigit (text.char? (k + 1)), k + 1)
    else if c == '\x7b' then (!(typed && want signatureEnd), k)
    else if c == '(' || c == '[' then (if typed then !want logicalOr else false, k)
    else if c == '+' then (text.char? (k + 1) == some '+', k + 1)
    else if c == '-' then (text.char? (k + 1) == some '-', k + 1)
    else if c == '!' then (text.char? (k + 1) != some '=', k + 1)
    else if c == 'i' then (endsBeforeWord text k, k + 1)
    else (true, k)

/-- Looks from `i` for a place where a semicolon was left out. -/
def ending (dialect : Dialect) (want : Nat → Bool) (text : Text) : Nat → Nat → Bool → Ending
  | 0, i, saw => ⟨false, saw, i⟩
  | fuel + 1, i, saw =>
    let afterBreak := fun (i : Nat) (saw : Bool) =>
      let gap := skipGap text true (text.size + 2) (i + 1) saw false
      match gap.gap with
      | .rejected => (⟨false, gap.sawComment, gap.stop⟩ : Ending)
      | _ =>
        let (found, stop) := endsAtBreak dialect want text gap.stop
        ⟨found, gap.sawComment, stop⟩
    let brace := fun (i : Nat) (saw : Bool) =>
      if dialect == .typed then
        let next := text.skipWhile Text.isBlank (i + 1)
        if text.char? next == some ':' then (⟨want logicalOr, saw, next⟩ : Ending) else ⟨true, saw, next⟩
      else ⟨true, saw, i⟩
    let plainly := fun (i : Nat) (saw : Bool) (go : Nat → Bool → Ending) =>
      match text.char? i with
      | none => (⟨true, saw, i⟩ : Ending)
      | some c =>
        if c == '\x7d' then brace i saw
        else if isLineBreak c then afterBreak i saw
        else if !Text.isBlank c then ⟨false, saw, i⟩
        else go (i + 1) saw
    if dialect == .plain && text.char? i == some '/' then
      let gap := skipGap text false (text.size + 2) i saw false
      match gap.gap with
      | .rejected => ⟨false, gap.sawComment, gap.stop⟩
      | .passed =>
        let c := text.char? gap.stop
        if !want logicalOr && c != some ',' && c != some '=' then
          ⟨true, gap.sawComment, gap.stop⟩
        else plainly gap.stop gap.sawComment (ending dialect want text fuel)
      | .sameLine => plainly gap.stop gap.sawComment (ending dialect want text fuel)
    else plainly i saw (ending dialect want text fuel)

/-- The question mark of a conditional expression. -/
def conditionalMark (dialect : Dialect) (text : Text) (i : Nat) : Option Scanned :=
  let start := text.skipWhile Text.isBlank i
  if text.char? start != some '?' then none else
    let mark := start + 1
    let found := some ⟨conditional, start, mark, []⟩
    match dialect with
    | .plain =>
      match text.char? mark with
      | some '?' => none
      | some '.' => if isDigit (text.char? (mark + 1)) then found else none
      | _ => found
    | .typed =>
      if text.char? mark == some '?' || text.char? mark == some '.' then none else
        let next := text.skipWhile Text.isBlank mark
        match text.char? next with
        | some ':' => none
        | some ')' => none
        | some ',' => none
        | some '.' => if isDigit (text.char? (next + 1)) then found else none
        | _ => found

/-- A comment in the manner of a page, to the end of its line. -/
def pageCommentAt (text : Text) (i : Nat) : Option Scanned :=
  let start := text.skipWhile (fun c => Text.isBlank c || c.toNat == 0x2028 || c.toNat == 0x2029) i
  let opens := fun (mark : String) => text.slice start (start + mark.length) == mark.toList
  if opens "<!--" || opens "-->" then
    let stop := text.skipWhile (fun c => !isLineBreak c) start
    some ⟨pageComment, start, stop, []⟩
  else none

end Scan

open Scan in
/-- Reads one of the scanner's tokens. -/
def scan (dialect : Dialect) : Scanner := fun _ wanted text i =>
  let want := fun token => wanted.getD token false
  if want templateText then
    if want semicolon then none else template text i i
  else
    let markupFound :=
      if want markupText then
        let (stop, sawText) := markup text i false false
        if sawText then some ⟨markupText, i, stop, []⟩ else none
      else none
    match markupFound with
    | some found => some found
    | none =>
      -- A failed look for text leaves the scanner behind the blanks that it read.
      let i := if want markupText then (markup text i false false).1 else i
      if want semicolon || (dialect == .typed && want signatureEnd) then
        let e := ending dialect want text (text.size + 2) i false
        if e.found then some ⟨semicolon, i, i, []⟩
        else if !e.sawComment && want conditional && text.char? e.stop == some '?' then
          conditionalMark dialect text e.stop
        else none
      else if want conditional then conditionalMark dialect text i
      else if want pageComment && !want logicalOr && !want escape && !want regexBody then pageCommentAt text i
      else none

end Remedy.Script
