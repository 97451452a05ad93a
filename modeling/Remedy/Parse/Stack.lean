import Remedy.Parse.Tree

/-!
A parse stack that several readings of the text share. Readings that come to the same state at the same place are
merged into one, and part again when a reduction pops through the place where they met.
-/

namespace Remedy.Parse

open Grammar

structure Link where
  node : Nat
  /-- The tree between two nodes; `none` marks the place where an error began. -/
  tree : Option Tree
  deriving Inhabited

structure StackNode where
  state : Nat
  position : Nat
  links : Array Link
  cost : Nat
  count : Nat
  dynamic : Int
  deriving Inhabited

/-- A state further down the stack, to which recovery may return. -/
structure Earlier where
  position : Nat
  depth : Nat
  state : Nat
  deriving Inhabited

inductive Status where
  | active
  /-- Waiting with a token that it cannot take. -/
  | paused (lookahead : Tree)
  | halted
  deriving Inhabited

/-- One reading: the top of its stack and what is known of its progress. -/
structure Head where
  node : Nat
  earlier : Option (Array Earlier)
  countAtError : Nat
  memory : Memory
  status : Status
  deriving Inhabited

structure Stack where
  nodes : Array StackNode
  heads : Array Head
  deriving Inhabited

/-- What a pop took off, and the reading that is left. -/
structure Slice where
  trees : Array Tree
  version : Nat
  deriving Inhabited

namespace Stack

/-- At most this many trees lead into one node. -/
def maxLinks : Nat := 8
/-- At most this many paths are followed by one pop. -/
def maxWalkers : Nat := 64

def initial : Stack :=
  ⟨#[⟨Automaton.startState, 0, #[], 0, 0, 0⟩], #[⟨0, none, 0, [], .active⟩]⟩

def head (s : Stack) (v : Nat) : Head := s.heads.getD v default
def node (s : Stack) (n : Nat) : StackNode := s.nodes.getD n default
def top (s : Stack) (v : Nat) : StackNode := s.node (s.head v).node
def size (s : Stack) : Nat := s.heads.size
def state (s : Stack) (v : Nat) : Nat := (s.top v).state
def position (s : Stack) (v : Nat) : Nat := (s.top v).position

def isActive (s : Stack) (v : Nat) : Bool :=
  match (s.head v).status with
  | .active => true
  | _ => false

def isPaused (s : Stack) (v : Nat) : Bool :=
  match (s.head v).status with
  | .paused _ => true
  | _ => false

def isHalted (s : Stack) (v : Nat) : Bool :=
  match (s.head v).status with
  | .halted => true
  | _ => false

def halted (s : Stack) : Nat := ((List.range s.size).filter s.isHalted).length

def modifyHead (s : Stack) (v : Nat) (f : Head → Head) : Stack := { s with heads := s.heads.modify v f }

def halt (s : Stack) (v : Nat) : Stack := s.modifyHead v fun h => { h with status := .halted }

def remove (s : Stack) (v : Nat) : Stack := { s with heads := s.heads.eraseIdxIfInBounds v }

def swap (s : Stack) (v w : Nat) : Stack := { s with heads := s.heads.swapIfInBounds v w }

def copy (s : Stack) (v : Nat) : Stack :=
  { s with heads := s.heads.push { s.head v with earlier := none } }

/-- Puts reading `v` in the place of reading `w`. -/
def renumber (s : Stack) (v w : Nat) : Stack :=
  if v == w then s else
    let source := s.head v
    let target := s.head w
    let source := if source.earlier.isNone then { source with earlier := target.earlier } else source
    { s with heads := (s.heads.setIfInBounds w source).eraseIdxIfInBounds v }

def pause (s : Stack) (v : Nat) (lookahead : Tree) : Stack :=
  let count := (s.top v).count
  s.modifyHead v fun h => { h with status := .paused lookahead, countAtError := count }

def push (lang : Language) (s : Stack) (v : Nat) (tree : Option Tree) (state : Nat) : Stack :=
  let below := (s.head v).node
  let old := s.node below
  let fresh : StackNode := match tree with
    | none => { old with state, links := #[⟨below, none⟩] }
    | some t =>
      { state, links := #[⟨below, some t⟩]
        position := t.stop
        cost := old.cost + t.cost
        count := old.count + t.weight lang
        dynamic := old.dynamic + t.dynamic }
  let id := s.nodes.size
  let s := { s with nodes := s.nodes.push fresh }
  s.modifyHead v fun h =>
    { h with node := id, countAtError := if tree.isNone then fresh.count else h.countAtError }

/-- The cost of a reading, with the price of a recovery that has begun. -/
def cost (s : Stack) (v : Nat) : Nat :=
  let top := s.top v
  let recovering := s.isPaused v ||
    (top.state == Automaton.errorState && (top.links[0]?.any fun l => l.tree.isNone))
  top.cost + (if recovering then costPerRecovery else 0)

/-- Lowers the mark of the last error to the present count where a pop has gone below it. -/
def settleCount (s : Stack) (v : Nat) : Stack :=
  let count := (s.top v).count
  s.modifyHead v fun h => if count < h.countAtError then { h with countAtError := count } else h

/-- How many nodes a reading has gained since its last error. -/
def countSinceError (s : Stack) (v : Nat) : Nat := (s.top v).count - (s.head v).countAtError

/-- Whether a reading has gone forward in the text since its last error. -/
def hasAdvanced (s : Stack) (v : Nat) : Bool :=
  let h := s.head v
  let rec go : Nat → Nat → Bool
    | 0, _ => false
    | fuel + 1, n =>
      let here := s.node n
      match here.links[0]?.bind (·.tree) with
      | none => false
      | some t =>
        if t.stop > t.before then true
        else if here.count > h.countAtError && t.cost == 0 then go fuel ((here.links.getD 0 default).node)
        else false
  (s.top v).cost == 0 || go s.nodes.size h.node

/-! ### Merging -/

def linkEquivalent : Option Tree → Option Tree → Bool
  | some a, some b => a.equivalent b
  | none, none => true
  | _, _ => false

/-- Adds a way into a node. A second way between the same two nodes keeps the tree of higher dynamic precedence;
ways from mergeable nodes merge those nodes in turn. -/
def addLink (lang : Language) : Nat → Stack → Nat → Link → Stack
  | 0, s, _, _ => s
  | fuel + 1, s, n, link =>
    if link.node == n then s else
      let self := s.node n
      let other := s.node link.node
      let weightOf := fun (t : Option Tree) => (t.map (·.dynamic)).getD 0
      let rec scan : List Nat → Option Stack
        | [] => none
        | i :: rest =>
          let existing := self.links.getD i default
          if linkEquivalent existing.tree link.tree then
            if existing.node == link.node then
              if weightOf link.tree > weightOf existing.tree then
                some { s with nodes := s.nodes.modify n fun node =>
                  { node with
                    links := node.links.setIfInBounds i { existing with tree := link.tree }
                    dynamic := other.dynamic + weightOf link.tree } }
              else some s
            else
              let below := s.node existing.node
              if below.state == other.state && below.position == other.position && below.cost == other.cost then
                let merged := other.links.foldl (fun s l => addLink lang fuel s existing.node l) s
                let dynamic := other.dynamic + weightOf link.tree
                some { merged with nodes := merged.nodes.modify n fun node =>
                  if dynamic > node.dynamic then { node with dynamic } else node }
              else scan rest
          else scan rest
      match scan (List.range self.links.size) with
      | some s => s
      | none =>
        if self.links.size == maxLinks then s else
          let count := other.count + (link.tree.map (·.weight lang)).getD 0
          let dynamic := other.dynamic + weightOf link.tree
          { s with nodes := s.nodes.modify n fun node =>
            { node with
              links := node.links.push link
              count := max count node.count
              dynamic := max dynamic node.dynamic } }

def canMerge (s : Stack) (v w : Nat) : Bool :=
  let a := s.top v
  let b := s.top w
  s.isActive v && s.isActive w && a.state == b.state && a.position == b.position && a.cost == b.cost &&
    (s.head v).memory == (s.head w).memory

/-- Merges reading `w` into reading `v`, if they are at the same place in the same state. -/
def merge? (lang : Language) (s : Stack) (v w : Nat) : Option Stack :=
  if !s.canMerge v w then none else
    let into := (s.head v).node
    let merged := (s.top w).links.foldl (fun s l => addLink lang s.nodes.size s into l) s
    let merged :=
      if (merged.node into).state == Automaton.errorState then
        let count := (merged.node into).count
        merged.modifyHead v fun h => { h with countAtError := count }
      else merged
    some (merged.remove w)

/-! ### Popping -/

/-- A path down the stack: where it is, what it has passed, and how many steps it took. -/
structure Walker where
  node : Nat
  trees : Array Tree
  count : Nat
  deriving Inhabited

/-- Whether a walk ends here with a result, and whether it goes no further. -/
structure Verdict where
  pop : Bool
  stop : Bool

def Walker.follow (w : Walker) (link : Link) : Walker :=
  match link.tree with
  | some t => ⟨link.node, w.trees.push t, if t.extra then w.count else w.count + 1⟩
  | none => ⟨link.node, w.trees, w.count + 1⟩

/-- Adds what a walk found; walks that end at one node leave one reading. -/
def addSlice (s : Stack) (source : Nat) (slices : Array Slice) (node : Nat) (trees : Array Tree) :
    Stack × Array Slice :=
  match (List.range slices.size).reverse.find? fun i =>
      (s.head (slices.getD i default).version).node == node with
  | some i =>
    let version := (slices.getD i default).version
    (s, slices.extract 0 (i + 1) ++ #[⟨trees, version⟩] ++ slices.extract (i + 1) slices.size)
  | none =>
    let h := s.head source
    let version := s.heads.size
    let fresh : Head := ⟨node, none, h.countAtError, h.memory, .active⟩
    ({ s with heads := s.heads.push fresh }, slices.push ⟨trees, version⟩)

/-- Follows every path down from a reading. `judge` sees each node on the way. -/
def walk {α : Type} (judge : Stack → α → Walker → α × Verdict) (version : Nat) :
    Nat → Stack → α → Array Walker → Array Slice → Stack × α × Array Slice
  | 0, s, a, _, slices => (s, a, slices)
  | fuel + 1, s, a, walkers, slices =>
    if walkers.isEmpty then (s, a, slices) else
      let total := walkers.size
      let (s, a, slices, kept, spawned, _) := walkers.foldl
        (fun (s, a, slices, (kept : Array Walker), (spawned : Array Walker), left) w =>
          let here := s.node w.node
          let (a, verdict) := judge s a w
          let stop := verdict.stop || here.links.isEmpty
          let (s, slices) :=
            if verdict.pop then addSlice s version slices w.node w.trees.reverse else (s, slices)
          if stop then (s, a, slices, kept, spawned, left - 1) else
            let (spawned, _) := (here.links.extract 1 here.links.size).foldl (fun (spawned, n) link =>
              if n ≥ maxWalkers then (spawned, n) else (spawned.push (w.follow link), n + 1))
              (spawned, kept.size + left + spawned.size)
            (s, a, slices, kept.push (w.follow (here.links.getD 0 default)), spawned, left - 1))
        (s, a, slices, #[], #[], total)
      walk judge version fuel s a (kept ++ spawned) slices

def start (s : Stack) (v : Nat) : Array Walker := #[⟨(s.head v).node, #[], 0⟩]

/-- Pops `count` trees, extras not counted, along every path. -/
def popCount (s : Stack) (v count : Nat) : Stack × Array Slice :=
  let (s, _, slices) := walk (fun _ _ w => ((), if w.count == count then ⟨true, true⟩ else ⟨false, false⟩))
    v (2 * s.nodes.size + 2) s () (s.start v) #[]
  (s, slices)

/-- Pops everything along every path. -/
def popAll (s : Stack) (v : Nat) : Stack × Array Slice :=
  let (s, _, slices) := walk (fun s _ w => ((), ⟨(s.node w.node).links.isEmpty, false⟩))
    v (2 * s.nodes.size + 2) s () (s.start v) #[]
  (s, slices)

/-- Pops an error from the top, if one is there. -/
def popError (s : Stack) (v : Nat) : Stack × Array Tree :=
  if (s.top v).links.any (fun l => l.tree.any Tree.isError) then
    let (s, _, slices) := walk (fun _ (found : Bool) w =>
        match w.trees[0]? with
        | some t => if !found && t.isError then (true, ⟨true, true⟩) else (found, ⟨false, true⟩)
        | none => (found, ⟨false, false⟩))
      v (2 * s.nodes.size + 2) s false (s.start v) #[]
    match slices[0]? with
    | some slice => (s.renumber slice.version v, slice.trees)
    | none => (s, #[])
  else (s, #[])

/-- Notes the states below a reading, at most `depth` down. -/
def recordEarlier (s : Stack) (v depth : Nat) : Stack :=
  let (s, summary, _) := walk (fun s (summary : Array Earlier) w =>
      if w.count > depth then (summary, ⟨false, true⟩) else
        let here := s.node w.node
        let same := summary.any fun e => e.depth == w.count && e.state == here.state
        (if same then summary else summary.push ⟨here.position, w.count, here.state⟩, ⟨false, false⟩))
    v (2 * s.nodes.size + 2) s #[] (s.start v) #[]
  s.modifyHead v fun h => { h with earlier := some summary }

end Stack

end Remedy.Parse
