import Remedy.Text.Blank
import Remedy.Text.Word

/-!
Replies to a request for repair: the code in them, with or without a fence around it.

A fence is a line of three backticks and a tag before the code, and three backticks with nothing but blanks behind
them after it.
-/

namespace Remedy.Repair

/-- Why a reply is of no use. -/
inductive ReplyError where
  | emptyFile
  | emptyBlock
  deriving DecidableEq, Repr

def ReplyError.message : ReplyError → String
  | emptyFile => "Repair oracle returned an empty file"
  | emptyBlock => "Repair oracle returned an empty code block"

namespace Reply

def isTagChar (c : Char) : Bool := Text.isWord c || c == '+' || c == '-'

/-- Three backticks. -/
def fence : List Char := ['\x60', '\x60', '\x60']

/-- What follows a mark at the front of a text. -/
def after? (mark cs : List Char) : Option (List Char) :=
  if mark.isPrefixOf cs then some (cs.drop mark.length) else none

/-- What follows a line of three backticks and a tag. -/
def afterFence? (cs : List Char) : Option (List Char) :=
  (after? fence cs).bind fun rest =>
    match (rest.dropWhile isTagChar).dropWhile fun c => c == ' ' || c == '\t' with
    | '\n' :: code => some code
    | _ => none

/-- What comes before three backticks at the end, less the line feed there. -/
def beforeFence? (cs : List Char) : Option (List Char) :=
  (after? fence (Text.trimEnd cs).reverse).map fun
    | '\n' :: code => code.reverse
    | code => code.reverse

/-- The code between the fences of a text that begins with backticks; a fence that is not one stays. -/
def unfenced (cs : List Char) : List Char :=
  let opened := (afterFence? cs).getD cs
  (beforeFence? opened).getD opened

def isNewline (c : Char) : Bool := c == '\n'

/-- The code of a reply. Line feeds around the reply do not count. -/
def code (reply : List Char) : Except ReplyError (List Char) :=
  let given := Text.dropTail isNewline (reply.dropWhile isNewline)
  if given.all Text.isBlank then .error .emptyFile
  else
    let body := Text.trimStart given
    let code := if fence.isPrefixOf body then unfenced body else given
    if code.all Text.isBlank then .error .emptyBlock else .ok code

/-- The line feeds at the end. -/
def trailingNewlines (cs : List Char) : List Char := cs.reverse.takeWhile isNewline

/-- Code with the end that another text has. -/
def endedLike (content code : List Char) : List Char := Text.dropTail isNewline code ++ trailingNewlines content

end Reply

end Remedy.Repair
