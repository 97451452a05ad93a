import Remedy.Text.Position

/-!
A page as a tree of elements, kept in one table. The first entry is the page itself; every element knows the one that
it stands in.
-/

namespace Remedy

/-- What an element holds. -/
inductive Page.Item where
  | element (index : Nat)
  | text (content : String)
  /-- A marked section, which counts as text only for the root. -/
  | section
  /-- A comment or a declaration. -/
  | aside
  deriving DecidableEq, Repr

structure Page.Element where
  name : String
  attributes : List (String × String)
  position : Position
  parent : Nat
  items : Array Page.Item
  deriving Repr, Inhabited

structure Page where
  elements : Array Page.Element
  deriving Repr

namespace Page

def element (p : Page) (i : Nat) : Element := p.elements.getD i default

def itemsOf (p : Page) (i : Nat) : List Item := (p.element i).items.toList

def Item.index? : Item → Option Nat
  | .element i => some i
  | _ => none

def childrenOf (p : Page) (i : Nat) : List Nat := (p.itemsOf i).filterMap Item.index?

/-- The element around an element; the page itself has none. -/
def parent? (p : Page) (i : Nat) : Option Nat := if i == 0 then none else some (p.element i).parent

/-- Everything around an element, the nearest first; `fuel` bounds the depth. -/
def ancestorsFrom (p : Page) : Nat → Nat → List Nat
  | 0, _ => []
  | fuel + 1, i =>
    match p.parent? i with
    | some j => j :: ancestorsFrom p fuel j
    | none => []

def ancestors (p : Page) (i : Nat) : List Nat := p.ancestorsFrom p.elements.size i

/-- The elements before an element under the same parent, the nearest first, and those after it. -/
def siblings (p : Page) (i : Nat) : List Nat × List Nat :=
  match p.parent? i with
  | none => ([], [])
  | some j =>
    let all := p.childrenOf j
    ((all.takeWhile (· != i)).reverse, (all.dropWhile (· != i)).drop 1)

/-- The elements within an element in document order, but none within one that is shut. -/
def withinFrom (p : Page) (shut : Nat → Bool) : Nat → List Nat → List Nat
  | 0, _ => []
  | _, [] => []
  | fuel + 1, i :: rest =>
    i :: withinFrom p shut fuel ((if shut i then [] else p.childrenOf i) ++ rest)

def within (p : Page) (shut : Nat → Bool) (i : Nat) : List Nat :=
  p.withinFrom shut (p.elements.size + 1) (p.childrenOf i)

/-- All elements in document order. -/
def all (p : Page) : List Nat := p.within (fun _ => false) 0

/-- The first element at the top of the page. -/
def root? (p : Page) : Option Nat := (p.childrenOf 0).head?

mutual

/-- The texts in an element, but none within one that is shut. -/
def textsFrom (p : Page) (shut : Nat → Bool) : Nat → Nat → List String
  | 0, _ => []
  | fuel + 1, i => if shut i then [] else itemTexts p shut fuel (p.itemsOf i)

def itemTexts (p : Page) (shut : Nat → Bool) : Nat → List Item → List String
  | _, [] => []
  | 0, _ => []
  | fuel + 1, item :: rest =>
    (match item with
      | .element i => textsFrom p shut fuel i
      | .text s => [s]
      | .section => []
      | .aside => []) ++ itemTexts p shut fuel rest

end

def size (p : Page) : Nat := p.elements.foldl (fun n e => n + e.items.size + 1) 1

def texts (p : Page) (shut : Nat → Bool) (i : Nat) : List String := p.textsFrom shut (2 * p.size) i

/-- The texts that stand right in an element. -/
def ownTexts (p : Page) (i : Nat) : List String :=
  (p.itemsOf i).filterMap fun item => match item with
    | .text s => some s
    | _ => none

end Page

end Remedy
