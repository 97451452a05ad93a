import Remedy.Grammar.Automaton
import Remedy.Parse.Text

/-!
The trees a parser builds, with what it has to know of them while several readings compete: how much of the text
they failed to explain, and how much of it shows.
-/

namespace Remedy.Parse

open Grammar

/-- What a scanner remembers between tokens. -/
abbrev Memory := List String

structure Tree where
  symbol : Nat
  children : Array Tree
  /-- Where the blanks before the tree begin. -/
  before : Nat
  start : Nat
  stop : Nat
  production : Option Nat
  extra : Bool
  missing : Bool
  keyword : Bool
  /-- What the scanner remembered after producing this leaf. -/
  memory : Option Memory
  /-- Whether the scanner remembered something else before. -/
  changed : Bool
  cost : Nat
  dynamic : Int
  visibleChildren : Nat
  visibleDescendants : Nat
  firstLeaf : Nat
  deriving Inhabited

/-! ### What an error costs -/

def costPerRecovery : Nat := 500
def costPerMissing : Nat := 110
def costPerSkippedTree : Nat := 100
def costPerSkippedRow : Nat := 30
def costPerSkippedByte : Nat := 1

namespace Tree

/-- The symbol of a stretch of text that no rule explains. -/
def errorSymbol : Nat := 65535
/-- The symbol of a stretch that is still growing. -/
def skippedSymbol : Nat := 65534

def isError (t : Tree) : Bool := t.symbol == errorSymbol

def info (lang : Language) (symbol : Nat) : SymbolInfo :=
  if symbol == errorSymbol then ⟨"ERROR", true, true⟩
  else lang.infos.getD symbol ⟨"", false, false⟩

def isVisible (lang : Language) (t : Tree) : Bool := (info lang t.symbol).visible

def leaf (symbol before start stop : Nat) : Tree :=
  { symbol, before, start, stop, children := #[], production := none, extra := symbol == 0, missing := false
    keyword := false, memory := none, changed := false, cost := 0, dynamic := 0, visibleChildren := 0
    visibleDescendants := 0, firstLeaf := symbol }

def missingLeaf (symbol position : Nat) : Tree :=
  { leaf symbol position position position with missing := true, cost := costPerMissing + costPerRecovery }

def aliasAt (lang : Language) (production : Option Nat) (i : Nat) : Option Alias :=
  production.bind fun p => (lang.productions.getD p default).steps[i]?.bind (·.display)

/-- What summing up the children of a tree gathers. -/
private structure Tally where
  index : Nat
  cost : Nat
  dynamic : Int
  children : Nat
  descendants : Nat
  changed : Bool

/-- A tree over its children. In an error every visible child costs, and so does the text that it spans. -/
def node (lang : Language) (text : Text) (symbol : Nat) (children : Array Tree) (production : Option Nat)
    (position : Nat) : Tree :=
  let failed := symbol == errorSymbol || symbol == skippedSymbol
  let tally := children.foldl (fun (t : Tally) child =>
    let branching := child.children.size
    let cost := if child.symbol == skippedSymbol then 0 else child.cost
    let skipped :=
      if failed && !child.extra && !(child.isError && branching == 0) then
        if child.isVisible lang then costPerSkippedTree
        else if branching > 0 then costPerSkippedTree * child.visibleChildren
        else 0
      else 0
    let aliased := !child.extra && child.symbol != 0 && (aliasAt lang production t.index).isSome
    let shown := aliased || child.isVisible lang
    { index := if child.extra then t.index else t.index + 1
      cost := t.cost + cost + skipped
      dynamic := t.dynamic + child.dynamic
      children := t.children + (if shown then 1 else if branching > 0 then child.visibleChildren else 0)
      descendants := t.descendants + child.visibleDescendants + (if shown then 1 else 0)
      changed := t.changed || child.changed })
    ⟨0, 0, 0, 0, 0, false⟩
  let start := (children[0]?.map (·.start)).getD position
  let stop := (children.back?.map (·.stop)).getD position
  let own :=
    if failed then
      costPerRecovery + costPerSkippedByte * (text.byteAt stop - text.byteAt start)
        + costPerSkippedRow * (text.rowAt stop - text.rowAt start)
    else 0
  { symbol, children, production, start, stop
    before := (children[0]?.map (·.before)).getD position
    extra := false, missing := false, keyword := false, memory := none
    changed := tally.changed
    cost := tally.cost + own
    dynamic := tally.dynamic
    visibleChildren := tally.children
    visibleDescendants := tally.descendants
    firstLeaf := (children[0]?.map (·.firstLeaf)).getD symbol }

/-- How many nodes a tree adds to the progress of a reading. -/
def weight (lang : Language) (t : Tree) : Nat :=
  t.visibleDescendants + (if t.isVisible lang then 1 else 0) + (if t.symbol == skippedSymbol then 1 else 0)

mutual

/-- A fixed order among trees over the same text, for choosing between equals. -/
def order : Tree → Tree → Ordering
  | ⟨s, cs, _, _, _, _, _, _, _, _, _, _, _, _, _, _⟩, ⟨t, ds, _, _, _, _, _, _, _, _, _, _, _, _, _, _⟩ =>
    (compare s t).then ((compare cs.size ds.size).then (orderAll cs.toList ds.toList))

def orderAll : List Tree → List Tree → Ordering
  | a :: as, b :: bs => (order a b).then (orderAll as bs)
  | _, _ => .eq

end

/-- Whether `right` should replace `left`: the lower cost wins, then the higher dynamic precedence; among readings
with errors the later wins, among others the smaller. -/
def prefersRight (left right : Tree) : Bool :=
  if right.cost < left.cost then true
  else if left.cost < right.cost then false
  else if right.dynamic > left.dynamic then true
  else if left.dynamic > right.dynamic then false
  else if left.cost > 0 then true
  else order left right == .gt

/-- Two trees between the same neighbours of which one is enough. -/
def equivalent (a b : Tree) : Bool :=
  a.symbol == b.symbol &&
    ((a.cost > 0 && b.cost > 0) ||
      (a.start - a.before == b.start - b.before && a.stop - a.start == b.stop - b.start &&
        a.children.size == b.children.size && a.extra == b.extra && a.memory.getD [] == b.memory.getD []))

end Tree

end Remedy.Parse
