import Remedy.Markup.Event

/-!
Whether the tags of a markup text pair up.

No tag is closed by implication. An end tag closes the innermost open tag of its name; the tags opened inside of that one
are reported, and so is an end tag with no tag to close. Void elements take no part.
-/

namespace Remedy.Check

def voidElements : List String :=
  ["area", "base", "br", "col", "embed", "hr", "img", "input", "link", "meta", "param", "source", "track", "wbr"]

/-- A tag, where it stands, and what it is. -/
inductive TagEvent where
  | start (tag : String) (position : Position)
  | stop (tag : String) (position : Position)
  | selfClosing (tag : String) (position : Position)
  deriving DecidableEq, Repr

inductive Imbalance where
  | unclosed (tag : String) (position : Position)
  | stray (tag : String) (position : Position)
  deriving DecidableEq, Repr

def Imbalance.position : Imbalance → Position
  | unclosed _ p => p
  | stray _ p => p

def Imbalance.message : Imbalance → String
  | unclosed tag _ => s!"<{tag}> has no matching end tag"
  | stray tag _ => s!"stray closing tag </{tag}>"

/-- The tags that are open, the innermost first, and what was found wrong so far. -/
structure Balance where
  opened : List (String × Position)
  found : List Imbalance
  deriving DecidableEq, Repr

namespace Balance

def empty : Balance := ⟨[], []⟩

def report (entries : List (String × Position)) : List Imbalance := entries.map fun (tag, p) => .unclosed tag p

/-- The tags inside the innermost one of a name, and those around it. -/
def splitAt? (tag : String) : List (String × Position) → Option (List (String × Position) × List (String × Position))
  | [] => none
  | entry :: rest =>
    if entry.1 == tag then some ([], rest)
    else (splitAt? tag rest).map fun (inner, outer) => (entry :: inner, outer)

def step (b : Balance) : TagEvent → Balance
  | .start tag p => if voidElements.contains tag then b else ⟨(tag, p) :: b.opened, b.found⟩
  | .selfClosing _ _ => b
  | .stop tag p =>
    if voidElements.contains tag then b
    else match splitAt? tag b.opened with
      | some (inner, outer) => ⟨outer, b.found ++ report inner⟩
      | none => ⟨b.opened, b.found ++ [.stray tag p]⟩

/-- All that was found wrong once the text has ended. -/
def finish (b : Balance) : List Imbalance := b.found ++ report b.opened

end Balance

/-- What is wrong with a sequence of tags. -/
def imbalances (events : List TagEvent) : List Imbalance := (events.foldl Balance.step .empty).finish

/-- The tags among the events of a text. -/
def tagEvent? (placed : Markup.Placed) : Option TagEvent :=
  match placed.event with
  | .start t => some (if t.selfClosing then .selfClosing t.name placed.position else .start t.name placed.position)
  | .stop name => some (.stop name placed.position)
  | _ => none

/-- What is wrong with the tags of a text. -/
def markupImbalances (text : String) : Except Markup.Rejection (List Imbalance) :=
  (Markup.events .resolved text).map fun es => imbalances (es.filterMap tagEvent?)

end Remedy.Check
