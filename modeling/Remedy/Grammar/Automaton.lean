import Remedy.Grammar.Language

/-!
The states of an LR(1) parser, worked out as the parser reaches them.

A state is a set of items: productions with a position in them and the tokens that may follow. What a state does
with a token is settled by the precedences of the items involved; where those do not decide, every action is kept
and the parser follows all of them.
-/

namespace Remedy.Grammar

inductive Action where
  /-- Takes the token. A `repetition` only lengthens a list that a reduction is about to build anyway. -/
  | shift (state : Nat) (repetition : Bool)
  /-- Takes the token as an extra and stays in the state. -/
  | skip
  | reduce (production : Nat)
  | accept
  /-- What the error state does with every token that it looks for. -/
  | recover
  deriving BEq, Repr, Inhabited

structure Item where
  production : Nat
  dot : Nat
  ahead : Nat
  deriving BEq, Hashable, Repr, Inhabited

structure State where
  kernel : Array Item
  /-- The nonterminals that can begin here, each with the tokens that may follow it. -/
  starts : Array (Nat × Nat)
  /-- Every token with an action here. -/
  valid : Nat
  /-- The tokens the lexer looks for, keywords standing for the word token. -/
  lexed : Array Nat
  /-- Which tokens of the scanner are wanted. -/
  scanned : Array Bool
  /-- Whether words that are keywords may not serve as plain words here. -/
  reserving : Bool
  deriving Inhabited

/-- The states met so far. -/
structure Automaton where
  states : Array State
  known : Std.HashMap (Array Item) Nat
  moves : Std.HashMap (Nat × Nat) Nat
  decided : Std.HashMap (Nat × Nat) (Array Action)
  deriving Inhabited

namespace Automaton

/-- The state in which the parser recovers from an error. -/
def errorState : Nat := 0
def startState : Nat := 1

def hasBit (set : Nat) (i : Nat) : Bool := set.testBit i

/-- The step after an item's position. -/
def next? (lang : Language) (item : Item) : Option Step :=
  (lang.productions.getD item.production default).steps[item.dot]?

/-- The tokens that may stand after the symbol at an item's position. -/
def followOf (lang : Language) (item : Item) : Nat :=
  match (lang.productions.getD item.production default).steps[item.dot + 1]? with
  | some step => lang.first.getD step.symbol 0
  | none => item.ahead

/-- Adds what can begin inside a state until nothing is new. -/
def close (lang : Language) : Nat → List Nat → Std.HashMap Nat Nat → Std.HashMap Nat Nat
  | 0, _, ahead => ahead
  | _, [], ahead => ahead
  | fuel + 1, s :: queue, ahead =>
    let outer := ahead.getD s 0
    let (queue, ahead) := (lang.corners.getD s #[]).foldl (fun (queue, ahead) c =>
      let bits := if c.passes then c.follow ||| outer else c.follow
      match ahead[c.symbol]? with
      | none => (c.symbol :: queue, ahead.insert c.symbol bits)
      | some old =>
        let all := old ||| bits
        if all == old then (queue, ahead) else (c.symbol :: queue, ahead.insert c.symbol all))
      (queue, ahead)
    close lang fuel queue ahead

/-- Fills in what follows from a state's kernel. -/
def State.ofKernel (lang : Language) (kernel : Array Item) : State :=
  let (queue, seeds) := kernel.foldl (fun (queue, ahead) item =>
    match next? lang item with
    | none => (queue, ahead)
    | some step =>
      if step.symbol < lang.terminals then (queue, ahead) else
        let bits := followOf lang item
        (step.symbol :: queue, (ahead : Std.HashMap Nat Nat).insert step.symbol (ahead.getD step.symbol 0 ||| bits)))
    ([], ∅)
  let starts := (close lang 100000 queue seeds).toArray
  let reducible := kernel.foldl (fun set item =>
    if (next? lang item).isNone then set ||| item.ahead else set) 0
  let emptied := starts.foldl (fun set (s, ahead) =>
    if (lang.empties.getD s #[]).isEmpty then set else set ||| ahead) 0
  let shiftable := kernel.foldl (fun set item =>
    match next? lang item with
    | some step => set ||| lang.first.getD step.symbol 0
    | none => set) 0
  let valid := reducible ||| emptied ||| shiftable ||| lang.extras
  let isKeyword := fun s => (lang.tokens[s]?.bind (·.text)).any lang.keywords.contains
  let lexed := (Array.range lang.tokens.size).filter fun s =>
    hasBit valid s && !(lang.word.isSome && isKeyword s)
  let lexed := match lang.word with
    | some w =>
      if lexed.contains w || !(Array.range lang.tokens.size).any (fun s => hasBit valid s && isKeyword s) then lexed
      else lexed.push w
    | none => lexed
  let opens := fun (w : Nat) => kernel.any (fun item =>
      match next? lang item with
      | some step => step.symbol == w && !step.unreserved
      | none => hasBit item.ahead w) || starts.any fun (s, _) =>
        ((lang.openings.getD s ∅).getD w #[]).any fun p =>
          match (lang.productions.getD p default).steps[0]? with
          | some step => !step.unreserved
          | none => false
  let reserving := lang.reserved != 0 && match lang.word with
    | some w => hasBit valid w && opens w
    | none => false
  { kernel, starts, valid, lexed, reserving, scanned := lang.externals.map (hasBit valid) }

/-- Kernels are kept in one order, so that equal sets are equal arrays. -/
def normalise (items : Array Item) : Array Item :=
  items.qsort fun a b => a.production < b.production || (a.production == b.production && a.dot < b.dot)

/-- The kernel reached from a state over a symbol. -/
def advanceOver (lang : Language) (state : State) (symbol : Nat) : Array Item :=
  let moved := state.kernel.filterMap fun item =>
    match next? lang item with
    | some step => if step.symbol == symbol then some { item with dot := item.dot + 1 } else none
    | none => none
  let begun := state.starts.foldl (fun items (s, ahead) =>
    match (lang.openings.getD s ∅)[symbol]? with
    | none => items
    | some ps => ps.foldl (fun items p => items.push ⟨p, 1, ahead⟩) items) moved
  normalise begun

def addState (lang : Language) (kernel : Array Item) (a : Automaton) : Nat × Automaton :=
  match a.known[kernel]? with
  | some id => (id, a)
  | none =>
    let id := a.states.size
    (id, { a with
      states := a.states.push (State.ofKernel lang kernel)
      known := a.known.insert kernel id })

/-- The error state and the start state. -/
def initial (lang : Language) : Automaton :=
  let recovering : State := {
    kernel := #[], starts := #[], valid := lang.sought ||| 1, reserving := false
    lexed := (Array.range lang.tokens.size).filter fun s =>
      hasBit lang.sought s && !(lang.word.isSome && (lang.tokens[s]?.bind (·.text)).any lang.keywords.contains)
    scanned := lang.externals.map (hasBit lang.sought) }
  (addState lang #[⟨0, 0, 1⟩] ⟨#[recovering], ∅, ∅, ∅⟩).2

def state (a : Automaton) (id : Nat) : State := a.states.getD id default

/-- Where a symbol leads from a state, if it can follow there. -/
def move? (lang : Language) (id symbol : Nat) (a : Automaton) : Option Nat × Automaton :=
  match a.moves[(id, symbol)]? with
  | some 0 => (none, a)
  | some target => (some target, a)
  | none =>
    let kernel := advanceOver lang (a.state id) symbol
    if kernel.isEmpty then (none, { a with moves := a.moves.insert (id, symbol) 0 })
    else
      let (target, a) := addState lang kernel a
      (some target, { a with moves := a.moves.insert (id, symbol) target })

/-! ### Settling conflicts -/

/-- How the precedence of one rule stands to that of another. -/
def compareRanks (lang : Language) (p : Precedence) (ps : List Nat) (q : Precedence) (qs : List Nat) : Ordering :=
  let holds := fun (entry : Ranked) (p : Precedence) (symbols : List Nat) => (match entry with
    | .name n => p == .named n
    | .rule n => symbols.any fun s => (lang.infos[s]?.map (·.name)) == some n : Bool)
  let ranked := fun () => (lang.orderings.findSome? fun ordering =>
    (ordering.foldl (fun (found, sawLeft, sawRight) entry =>
      if (found : Option Ordering).isSome then (found, sawLeft, sawRight)
      else if holds entry p ps then (if sawRight then some .lt else none, true, sawRight)
      else if holds entry q qs then (if sawLeft then some .gt else none, sawLeft, true)
      else (found, sawLeft, sawRight)) ((none : Option Ordering), false, false)).1).getD .eq
  match p, q with
  | .level m, .level n => if m != 0 || n != 0 then compare m n else ranked ()
  | .level m, .none => if m != 0 then compare m 0 else ranked ()
  | .none, .level n => if n != 0 then compare 0 n else ranked ()
  | _, _ => ranked ()

/-- What is known of the reductions for one token. -/
structure Reductions where
  productions : Array Nat
  precedence : Precedence
  symbols : List Nat
  left : Bool
  right : Bool
  neither : Bool

def precedenceBefore (lang : Language) (item : Item) : Precedence × Option Associativity :=
  if item.dot == 0 then (.none, none) else
    match (lang.productions.getD item.production default).steps[item.dot - 1]? with
    | some step => (step.precedence, step.associativity)
    | none => (.none, none)

/-- Adds a finished item: a stronger rule displaces the weaker ones, a weaker one is dropped. -/
def Reductions.add (lang : Language) (r : Reductions) (item : Item) : Reductions :=
  let lhs := (lang.productions.getD item.production default).lhs
  let (p, a) := precedenceBefore lang item
  let note := fun (r : Reductions) =>
    { r with
      productions := r.productions.push item.production
      precedence := p
      symbols := if r.symbols.contains lhs then r.symbols else lhs :: r.symbols
      left := r.left || a == some .left
      right := r.right || a == some .right
      neither := r.neither || a == none }
  if r.productions.isEmpty then note r else
    match compareRanks lang p [lhs] r.precedence r.symbols with
    | .gt => note ⟨#[], .none, [], false, false, false⟩
    | .eq => note r
    | .lt => r

/-- The order in which finished items are considered. -/
def itemBefore (lang : Language) (a b : Item) : Bool :=
  let pa := lang.productions.getD a.production default
  let pb := lang.productions.getD b.production default
  if a.dot != b.dot then a.dot < b.dot
  else if pa.lhs != pb.lhs then pa.lhs < pb.lhs
  else if pa.dynamic != pb.dynamic then pa.dynamic < pb.dynamic
  else if pa.steps.size != pb.steps.size then pa.steps.size < pb.steps.size
  else a.production < b.production

/-- What a state does with a token. -/
def decide (lang : Language) (id token : Nat) (a : Automaton) : Array Action × Automaton := Id.run do
  let here := a.state id
  let unfinished := here.kernel.filter fun item => (next? lang item).isSome
  let finished := here.kernel.filter fun item => (next? lang item).isNone && hasBit item.ahead token
  let vanished := here.starts.foldl (fun items (s, ahead) =>
    if hasBit ahead token then
      (lang.empties.getD s #[]).foldl (fun items p => items.push (⟨p, 0, ahead⟩ : Item)) items
    else items) #[]
  let done := (vanished ++ finished).qsort (itemBefore lang)
  let accepting := done.any (·.production == 0)
  let reductions := (done.filter (·.production != 0)).foldl (Reductions.add lang)
    ⟨#[], .none, [], false, false, false⟩
  let reduces := reductions.productions.map Action.reduce
  let (target, a) := move? lang id token a
  let accepts := if accepting then #[Action.accept] else #[]
  let answer := match target with
    | none => accepts ++ reduces
    | some next =>
      if reduces.isEmpty then accepts ++ #[.shift next false] else
        let rivals := unfinished.filter fun item =>
          item.dot > 0 && match next? lang item with
            | some step => hasBit (lang.first.getD step.symbol 0) token
            | none => false
        let parents := (rivals ++ done).map fun item => (lang.productions.getD item.production default).lhs
        let parent := parents.getD 0 0
        if lang.auxiliary.getD parent false && parents.all (· == parent) then
          reduces ++ #[.shift next true]
        else
          let orders := rivals.map fun item =>
            compareRanks lang (precedenceBefore lang item).1
              [(lang.productions.getD item.production default).lhs] reductions.precedence reductions.symbols
          let more := orders.any (· == .gt)
          let less := orders.any (· == .lt)
          if more && !less then #[.shift next false]
          else if less && !more then reduces
          else if !less && !more && reductions.left && !reductions.neither && !reductions.right then reduces
          else if !less && !more && reductions.right && !reductions.neither && !reductions.left then
            #[.shift next false]
          else reduces ++ #[.shift next false]
  let answer := if answer.isEmpty && hasBit lang.extras token then #[Action.skip] else answer
  return (answer, a)

/-- The actions of a state on a token. -/
def actions (lang : Language) (id token : Nat) (a : Automaton) : Array Action × Automaton :=
  if id == errorState then
    (if token == 0 || hasBit lang.sought token then #[.recover] else #[], a)
  else
    match a.decided[(id, token)]? with
    | some answer => (answer, a)
    | none =>
      if !hasBit (a.state id).valid token then (#[], a) else
        let (answer, a) := decide lang id token a
        (answer, { a with decided := a.decided.insert (id, token) answer })

/-- The state after a symbol; `none` where it cannot follow. -/
def next (lang : Language) (id symbol : Nat) (a : Automaton) : Option Nat × Automaton :=
  if symbol < lang.terminals then
    let (answer, a) := actions lang id symbol a
    match answer.back? with
    | some (.shift target _) => (some target, a)
    | some .skip => (some id, a)
    | _ => (none, a)
  else if id == errorState then (none, a)
  else move? lang id symbol a

end Automaton

end Remedy.Grammar
