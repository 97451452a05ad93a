import Remedy.Json.Value
import Remedy.Markup.Event
import Remedy.Page.Basic

/-!
A page out of the events of its text.

An end tag closes the innermost open element of its name with all that is open inside; nothing else closes an element
but the end of the text. Elements without content close at once, and an end tag of theirs that comes later is passed
over.
-/

namespace Remedy.Page

open Markup (Event Placed)

structure Builder where
  elements : Array Element
  /-- The open elements, the innermost first, without the page itself. -/
  opened : List Nat
  /-- Pieces of text not yet put anywhere, the last one first. -/
  pending : List String
  /-- Elements that were closed at once and whose end tags may still come. -/
  closedEarly : List String

/-- Elements that hold nothing. -/
def emptyElements : List String :=
  ["area", "base", "br", "col", "embed", "hr", "img", "input", "keygen", "link", "menuitem", "meta", "param", "source",
   "track", "wbr", "basefont", "bgsound", "command", "frame", "image", "isindex", "nextid", "spacer"]

/-- Elements whose blanks are kept as they are. -/
def preformatted : List String := ["pre", "textarea"]

/-- Attributes whose values are lists of words. -/
def isWordList (element name : String) : Bool :=
  ["class", "accesskey", "dropzone"].contains name ||
    [("a", "rel"), ("a", "rev"), ("link", "rel"), ("link", "rev"), ("td", "headers"), ("th", "headers"),
      ("form", "accept-charset"), ("object", "archive"), ("area", "rel"), ("icon", "sizes"), ("iframe", "sandbox"),
      ("output", "for")].contains (element, name)

/-- The attributes of a tag: the last of one name counts, and word lists have one space between words. -/
def attributesOf (t : Markup.StartTag) : List (String × String) :=
  t.attributes.foldl (fun kvs a =>
    let value := a.value.getD ""
    Json.put kvs a.name (if isWordList t.name a.name then Text.normalize value else value)) []

namespace Builder

def start : Builder := ⟨#[⟨"[document]", [], ⟨1, 0⟩, 0, #[]⟩], [], [], []⟩

def innermost (b : Builder) : Nat := b.opened.headD 0

/-- Puts an item at the end of the innermost open element. -/
def place (b : Builder) (item : Item) : Builder :=
  { b with elements := b.elements.modify b.innermost fun e => { e with items := e.items.push item } }

def isCollapsible (c : Char) : Bool := c == ' ' || c == '\n' || c == '\t' || c == '\x0c' || c == '\r'

def nameOf (b : Builder) (i : Nat) : String := (b.elements.getD i default).name

/-- A text of blanks alone shrinks to one of them. -/
def collapsed (b : Builder) (s : String) : String :=
  if s.toList.all isCollapsible && !b.opened.any (fun i => preformatted.contains (b.nameOf i)) then
    if s.toList.contains '\n' then "\n" else " "
  else s

/-- Puts the pending text, if there is any. -/
def flush (b : Builder) : Builder :=
  if b.pending.isEmpty then b
  else { b.place (.text (b.collapsed (String.join b.pending.reverse))) with pending := [] }

/-- Closes the innermost open element of a name, if there is one. -/
def close (b : Builder) (name : String) : Builder :=
  let b := b.flush
  if b.opened.any fun i => b.nameOf i == name then
    { b with opened := (b.opened.dropWhile fun i => b.nameOf i != name).drop 1 }
  else b

def closeTag (b : Builder) (name : String) : Builder :=
  if b.closedEarly.contains name then { b with closedEarly := b.closedEarly.erase name } else b.close name

def openTag (b : Builder) (t : Markup.StartTag) (p : Position) : Builder :=
  let b := b.flush
  let i := b.elements.size
  let element : Element := ⟨t.name, attributesOf t, p, b.innermost, #[]⟩
  let placed := b.place (.element i)
  let b := { placed with elements := placed.elements.push element, opened := i :: b.opened }
  if t.selfClosing then b.closeTag t.name
  else if emptyElements.contains t.name then
    let closed := b.close t.name
    { closed with closedEarly := t.name :: closed.closedEarly }
  else b

def addText (b : Builder) (s : String) : Builder := { b with pending := s :: b.pending }

def addAside (b : Builder) (item : Item) : Builder := b.flush.place item

/-- What old pages meant by the numbers from 128 to 159. -/
def charOfNumber (n : Nat) : Char :=
  let table := "€\x81‚ƒ„…†‡ˆ‰Š‹Œ\x8dŽ\x8f\x90‘’“”•–—˜™š›œ\x9džŸ".toList
  let unmapped := [0x81, 0x8D, 0x8F, 0x90, 0x9D]
  if 0x80 ≤ n && n ≤ 0x9F && !unmapped.contains n then table.getD (n - 0x80) '\ufffd'
  else if n > 0x10FFFF then '\ufffd'
  else Char.ofNat n

def numberOf (digits : String) : Nat :=
  match digits.toList with
  | 'x' :: rest => Text.valueOf 16 rest
  | 'X' :: rest => Text.valueOf 16 rest
  | cs => Text.valueOf 10 cs

def namedText (name : String) : String := (Text.references.lookup name).getD ("&" ++ name)

def isSection (content : String) : Bool := ((content.toList.take 6).map Char.toUpper) == "CDATA[".toList

def step (b : Builder) (placed : Placed) : Builder :=
  match placed.event with
  | .start t => b.openTag t placed.position
  | .stop name => b.closeTag name
  | .text s => b.addText s
  | .namedReference name => b.addText (namedText name)
  | .numericReference digits => b.addText (String.singleton (charOfNumber (numberOf digits)))
  | .comment _ => b.addAside .aside
  | .doctype _ => b.addAside .aside
  | .declaration content => b.addAside (if isSection content then .section else .aside)
  | .instruction _ => b.addAside .aside

end Builder

/-- The page that a text describes. -/
def ofMarkup (text : String) : Except Markup.Rejection Page := do
  let events ← Markup.events .separate text
  return ⟨(events.foldl Builder.step .start).flush.elements⟩

end Remedy.Page
