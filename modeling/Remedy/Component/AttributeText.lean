import Remedy.Component.OpenTag
import Remedy.Text.Word

/-!
Attributes found in the raw text of a tag.

A name counts where no letter, digit or mark of a longer name stands right before it. A static attribute has a quoted
value; a bound one has a colon or `v-bind:` before its name.
-/

namespace Remedy.Component

open Text (isWord isBlank)

/-- Characters after which no name begins. -/
def joinsName (c : Char) : Bool := isWord c || ":.@</-".contains c

/-- A quoted value in a line: where it begins and ends, and its quotes. -/
structure QuotedValue where
  start : Nat
  stop : Nat
  quote : Char
  deriving DecidableEq, Repr

/-- The value of a static attribute whose name stands at the front, which is at a column. -/
def staticValue? (name : List Char) (column : Nat) (cs : List Char) : Option QuotedValue :=
  if !name.isPrefixOf cs then none else
    let afterName := cs.drop name.length
    match afterName.dropWhile isBlank with
    | '=' :: rest =>
      match rest.dropWhile isBlank with
      | q :: body =>
        if (q == '"' || q == '\'') && body.contains q then
          let start := column + (cs.length - body.length)
          some ⟨start, start + (body.takeWhile (· != q)).length, q⟩
        else none
      | [] => none
    | _ => none

/-- Whether an attribute of a name, static or bound, stands at the front. -/
def isAttributeAt (name cs : List Char) : Bool :=
  [("v-bind:".toList ++ name), (':' :: name), name].any fun spelling =>
    spelling.isPrefixOf cs && (match cs.drop spelling.length with
      | [] => true
      | c :: _ => isBlank c || c == '=' || c == '/' || c == '>')

/-- The columns of a stretch at which a name may begin, with the text of the stretch from there on. -/
def nameStarts (line : Line) (s : Segment) : List (Nat × List Char) :=
  let length := line.length
  let stop := if s.stop < 0 then 0 else min s.stop.toNat length
  let start := min s.start.toNat length
  ((List.range (stop + 1 - start)).map (start + ·)).filterMap fun i =>
    let free := i == 0 || !((line.take i).getLast?.any joinsName)
    if free then some (i, (line.take stop).drop i) else none

/-- The value of the first static attribute of a name in a stretch. -/
def findStatic? (name : List Char) (line : Line) (s : Segment) : Option QuotedValue :=
  (nameStarts line s).findSome? fun (i, cs) => staticValue? name i cs

/-- Whether a stretch has an attribute of a name, static or bound. -/
def hasAttribute (name : List Char) (line : Line) (s : Segment) : Bool :=
  (nameStarts line s).any fun (_, cs) => isAttributeAt name cs

end Remedy.Component
