import Remedy.Html.Grammar
import Remedy.Html.Tag

/-!
The blocks of a single-file component: its template, its scripts and whatever else stands at the top of the file.
-/

namespace Remedy.Component

open Text (Bytes)

structure Block where
  kind : String
  content : String
  /-- The byte at which the content begins. -/
  offset : Nat
  start : Position
  attributes : List (String × String)
  deriving DecidableEq, Repr

namespace Block

/-- The language named, if any is. -/
def language? (b : Block) : Option String := (b.attributes.lookup "lang").filter fun s => !s.isEmpty

def isSetup (b : Block) : Bool := (b.attributes.lookup "setup").isSome

end Block

/-- The block that a node at the top of the file is, if it is an element with an end. -/
def blockOf? (source : Bytes) (node : Node) : Option Block := do
  if !Html.elementKinds.contains node.kind then none else
    let tag ← Html.openTag? node
    if tag.kind == "self_closing_tag" then none else
      let name ← Html.tagName? tag
      let stop := match Html.closeTag? node with
        | some t => t.start
        | none => node.stop
      some {
        kind := Text.lower (name.textIn source)
        content := String.ofList (Text.decodeLossy (Text.sliceBytes source tag.stop stop))
        offset := tag.stop
        start := Position.ofOffset source tag.stop
        attributes := Html.readAttributes source tag true }

def blocksOf (source : Bytes) (root : Node) : List Block := root.children.filterMap (blockOf? source)

/-- The blocks of a component, in order. -/
def blocks (source : String) : List Block := blocksOf (Text.encode source.toList) (Html.parse source)

/-- The first template is the one that counts. -/
def template? (bs : List Block) : Option Block := bs.find? fun b => b.kind == "template"

def scripts (bs : List Block) : List Block := bs.filter fun b => b.kind == "script"

end Remedy.Component
