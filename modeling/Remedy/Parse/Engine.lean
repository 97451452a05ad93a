import Remedy.Parse.Lexer
import Remedy.Parse.Stack

/-!
A generalised LR parser that never refuses a text.

Every reading of the text goes on as long as some action allows it; where grammar rules conflict, a reading splits.
A reading that meets a token it cannot take waits. When all have to wait, the best one recovers: it may pretend that
one token is missing, return to an earlier state in which the token is welcome, or skip the token; what it cannot
explain ends up under an error node. Readings compete by the cost of their errors.
-/

namespace Remedy.Parse

open Grammar

/-- A token that the scanner found. -/
structure Scanned where
  token : Nat
  start : Nat
  stop : Nat
  memory : Memory

/-- Reads tokens that regular patterns cannot describe: given what it remembers and which of its tokens are wanted. -/
abbrev Scanner := Memory → Array Bool → Text → Nat → Option Scanned

structure Env where
  lang : Language
  scan : Scanner
  text : Text

structure RunState where
  automaton : Automaton
  stack : Stack
  finished : Option Tree
  accepts : Nat

abbrev Run := StateM RunState

def maxVersions : Nat := 6
def versionOverflow : Nat := 4
def maxDepth : Nat := 16
/-- A reading that is worse by more than this, counted with its progress, is dropped. -/
def maxCostDifference : Nat := 18 * costPerSkippedTree

namespace Engine

/-! ### Access to the automaton -/

def viaAutomaton (f : Automaton → α × Automaton) : Run α :=
  modifyGet fun s =>
    let a := s.automaton
    let s := { s with automaton := default }
    let (x, a) := f a
    (x, { s with automaton := a })

def actions (env : Env) (state token : Nat) : Run (Array Action) :=
  viaAutomaton (Automaton.actions env.lang state token)

def nextState (env : Env) (state symbol : Nat) : Run (Option Nat) :=
  if symbol == Tree.errorSymbol || symbol == Tree.skippedSymbol then return none
  else viaAutomaton (Automaton.next env.lang state symbol)

def hasActions (env : Env) (state token : Nat) : Run Bool := do
  return !(← actions env state token).isEmpty

def hasReduction (env : Env) (state token : Nat) : Run Bool := do
  match (← actions env state token)[0]? with
  | some (.reduce _) => return true
  | _ => return false

def stack : Run Stack := do return (← get).stack

def onStack (f : Stack → Stack) : Run Unit :=
  modify fun s =>
    let stack := s.stack
    let s := { s with stack := default }
    { s with stack := f stack }

def onStackGet (f : Stack → Stack × α) : Run α :=
  modifyGet fun s =>
    let stack := s.stack
    let s := { s with stack := default }
    let (stack, x) := f stack
    (x, { s with stack })

def push (env : Env) (v : Nat) (tree : Option Tree) (state : Nat) : Run Unit :=
  onStack fun s => s.push env.lang v tree state

def merge (env : Env) (v w : Nat) : Run Bool :=
  onStackGet fun s => match s.merge? env.lang v w with
    | some merged => (merged, true)
    | none => (s, false)

/-! ### Comparing readings -/

structure Standing where
  cost : Nat
  count : Nat
  dynamic : Int
  failing : Bool

inductive Preference where
  | takeLeft
  | preferLeft
  | neither
  | preferRight
  | takeRight
  deriving BEq

def compareStandings (a b : Standing) : Preference :=
  if !a.failing && b.failing then
    if a.cost < b.cost then .takeLeft else .preferLeft
  else if a.failing && !b.failing then
    if b.cost < a.cost then .takeRight else .preferRight
  else if a.cost < b.cost then
    if (b.cost - a.cost) * (1 + a.count) > maxCostDifference then .takeLeft else .preferLeft
  else if b.cost < a.cost then
    if (a.cost - b.cost) * (1 + b.count) > maxCostDifference then .takeRight else .preferRight
  else if a.dynamic > b.dynamic then .preferLeft
  else if b.dynamic > a.dynamic then .preferRight
  else .neither

def standing (v : Nat) : Run Standing := do
  onStack (·.settleCount v)
  let s ← stack
  let paused := s.isPaused v
  return {
    cost := s.cost v + (if paused then costPerSkippedTree else 0)
    count := s.countSinceError v
    dynamic := (s.top v).dynamic
    failing := paused || s.state v == Automaton.errorState }

/-- Whether a reading of cost `cost` would be pointless beside the others. -/
def betterExists (v : Nat) (failing : Bool) (cost : Nat) : Run Bool := do
  if (← get).finished.any (·.cost ≤ cost) then return true
  onStack (·.settleCount v)
  let s ← stack
  let mine : Standing := ⟨cost, s.countSinceError v, (s.top v).dynamic, failing⟩
  let position := s.position v
  for w in [0:s.size] do
    if w == v || !s.isActive w || s.position w < position then continue
    match compareStandings mine (← standing w) with
    | .takeRight => return true
    | .preferRight => if s.canMerge w v then return true
    | _ => pure ()
  return false

/-! ### Reading tokens -/

/-- The tokens wanted in a state, and while recovering. -/
structure Wanted where
  normal : State
  recovering : State

/-- Tries the scanner at `i`. Empty tokens that would lead nowhere are ignored. -/
def scanAt (env : Env) (v parseState : Nat) (wanted : State) (failing : Bool) (i : Nat) : Run (Option Scanned) := do
  if !wanted.scanned.any id then return none
  let s ← stack
  let memory := (s.head v).memory
  match env.scan memory wanted.scanned env.text i with
  | none => return none
  | some found =>
    if found.stop ≤ i && found.memory == memory then
      let symbol := env.lang.externals.getD found.token 0
      let next ← nextState env parseState symbol
      if failing || !s.hasAdvanced v || next == some parseState then return none
    return some found

/-- Reads the token at `i`. When nothing fits, looks for any token at all; failing that, skips characters up to the
next place where one begins. `lost` is the stretch skipped so far. -/
def readAt (env : Env) (v parseState : Nat) (wanted : Wanted) (origin : Nat) :
    Nat → Bool → Option (Nat × Nat) → Nat → Run Tree
  | 0, _, _, i => return Tree.leaf Tree.errorSymbol origin i i
  | fuel + 1, failing, lost, i => do
    let here := if failing then wanted.recovering else wanted.normal
    let before := (← stack).head v |>.memory
    match ← scanAt env v parseState here failing i with
    | some found =>
      match lost with
      | some (start, stop) => return Tree.leaf Tree.errorSymbol origin start stop
      | none =>
        let symbol := env.lang.externals.getD found.token 0
        return { Tree.leaf symbol origin (min found.start found.stop) found.stop with
          memory := some found.memory, changed := found.memory != before }
    | none =>
      match Lexer.read env.lang here.lexed env.text i with
      | .found symbol start stop =>
        match lost with
        | some (start, stop) => return Tree.leaf Tree.errorSymbol origin start stop
        | none =>
          if env.lang.word == some symbol then
            match env.lang.keywords[String.ofList (env.text.slice start stop)]? with
            | some k =>
              let useful ← hasActions env parseState k
              if useful || (wanted.normal.reserving && Automaton.hasBit env.lang.reserved k) then
                return { Tree.leaf k origin start stop with keyword := true }
              else return { Tree.leaf symbol origin start stop with keyword := true }
            | none => return Tree.leaf symbol origin start stop
          else return Tree.leaf symbol origin start stop
      | .stuck start reached =>
        if !failing then readAt env v parseState wanted origin fuel true none origin
        else
          let (lostStart, lostStop) := lost.getD (start, start)
          if reached == lostStop then
            if reached ≥ env.text.size then return Tree.leaf Tree.errorSymbol origin lostStart lostStop
            else readAt env v parseState wanted origin fuel true (some (lostStart, reached + 1)) (reached + 1)
          else readAt env v parseState wanted origin fuel true (some (lostStart, reached)) reached

def readToken (env : Env) (v parseState : Nat) : Run Tree := do
  let a := (← get).automaton
  let wanted : Wanted := ⟨a.state parseState, a.state Automaton.errorState⟩
  let origin := (← stack).position v
  readAt env v parseState wanted origin (2 * (env.text.size + 2)) (parseState == Automaton.errorState) none origin

/-! ### Building trees -/

/-- Splits the extras off the end. -/
def splitExtras (trees : Array Tree) : Array Tree × Array Tree :=
  let extras := (trees.toList.reverse.takeWhile (·.extra)).reverse.toArray
  (trees.extract 0 (trees.size - extras.size), extras)

def remember (v : Nat) (tree : Tree) : Run Unit :=
  match tree.memory with
  | some memory => onStack (·.modifyHead v fun h => { h with memory })
  | none => return

def shift (env : Env) (v : Nat) (tree : Tree) (state : Nat) (extra : Bool) : Run Unit := do
  push env v (some { tree with extra }) state
  remember v tree

/-- Merges a new reading into an earlier one, other than `v`, if it can. -/
def mergeBelow (env : Env) (v slice : Nat) : List Nat → Run Bool
  | [] => return false
  | j :: rest => do
    if j == v then mergeBelow env v slice rest
    else if ← merge env j slice then return true
    else mergeBelow env v slice rest

/-- Replaces the top trees by one, along every path; each path starts a reading of its own, and paths that end at
one node keep the better children. Returns the first new reading. -/
def reduce (env : Env) (v : Nat) (production : Nat) (dynamic : Int) (symbol count : Nat) : Run (Option Nat) := do
  let before := (← stack).size
  let slices ← onStackGet (·.popCount v count)
  let halted := (← stack).halted
  let rec go : List Slice → Nat → Run Unit
    | [], _ => return
    | slice :: rest, removed => do
      let version := slice.version - removed
      let twins := rest.takeWhile (·.version == slice.version)
      let others := rest.dropWhile (·.version == slice.version)
      if version > maxVersions + versionOverflow + halted then
        onStack (·.remove version)
        go others (removed + 1)
      else
        let position := (← stack).position version
        let build := fun children => Tree.node env.lang env.text symbol children (some production) position
        let (children, extras) := splitExtras slice.trees
        let (parent, extras) := twins.foldl (fun (parent, extras) twin =>
          let (children, more) := splitExtras twin.trees
          let rival := build children
          if parent.prefersRight rival then (rival, more) else (parent, extras)) (build children, extras)
        let state := (← stack).state version
        let next := (← nextState env state symbol).getD 0
        push env version (some { parent with dynamic := parent.dynamic + dynamic }) next
        for extra in extras do
          push env version (some extra) next
        let merged ← mergeBelow env v version (List.range version)
        go others (if merged then removed + 1 else removed)
  termination_by slices => slices.length
  decreasing_by all_goals
    simp only [List.length_cons]
    have := (List.dropWhile_sublist (fun x => x.version == slice.version) (l := rest)).length_le
    omega
  go slices.toList 0
  return if (← stack).size > before then some before else none

def reduceBy (env : Env) (v production : Nat) : Run (Option Nat) := do
  let p := env.lang.productions.getD production default
  reduce env v production p.dynamic p.lhs p.steps.size

/-- Closes a reading at the end of the text. -/
def accept (env : Env) (v : Nat) (lookahead : Tree) : Run Unit := do
  push env v (some lookahead) Automaton.startState
  let slices ← onStackGet (·.popAll v)
  for slice in slices do
    let trees := slice.trees
    match (List.range trees.size).reverse.find? fun i => !(trees.getD i default).extra with
    | none => pure ()
    | some i =>
      let tree := trees.getD i default
      let children := trees.extract 0 i ++ tree.children ++ trees.extract (i + 1) trees.size
      -- Aliases and fields of the root are looked up by its own production.
      let root := Tree.node env.lang env.text tree.symbol children tree.production 0
      modify fun s =>
        let keep := match s.finished with
          | some old => if old.prefersRight root then root else old
          | none => root
        { s with finished := some keep, accepts := s.accepts + 1 }
  match slices[0]? with
  | some slice => onStack (·.remove slice.version)
  | none => pure ()
  onStack (·.halt v)

/-! ### Recovery -/

/-- Removes the halted readings from `v` on. -/
def removeHalted : Nat → Nat → Run Unit
  | 0, _ => return
  | fuel + 1, v => do
    let s ← stack
    if v < s.size then
      if s.isActive v then removeHalted fuel (v + 1)
      else
        onStack (·.remove v)
        removeHalted fuel v

/-- Goes back `depth` trees to state `goal`, putting what lay above under an error. -/
def recoverTo (env : Env) (v depth goal : Nat) : Run Bool := do
  let slices ← onStackGet (·.popCount v depth)
  let mut previous : Option Nat := none
  for slice in slices do
    if previous == some slice.version then continue
    if (← stack).state slice.version != goal then
      onStack (·.halt slice.version)
      continue
    let errors ← onStackGet (·.popError slice.version)
    let trees := match errors[0]? with
      | some e => e.children ++ slice.trees
      | none => slice.trees
    let (trees, extras) := splitExtras trees
    if !trees.isEmpty then
      let position := (← stack).position slice.version
      let error := Tree.node env.lang env.text Tree.errorSymbol trees none position
      push env slice.version (some { error with extra := true }) goal
    for extra in extras do
      push env slice.version (some extra) goal
    previous := some slice.version
  return previous.isSome

/-- Looks down the stack for a state in which the lookahead is welcome. -/
def recoverEarlier (env : Env) (v : Nat) (lookahead : Tree) (versions position progress cost : Nat) :
    List Earlier → Run Bool
  | [] => return false
  | e :: rest => do
    let again := recoverEarlier env v lookahead versions position progress cost rest
    if e.state == Automaton.errorState || e.position == position then again else
      let depth := if progress > 0 then e.depth + 1 else e.depth
      let s ← stack
      let redundant := (List.range versions).any fun w => s.state w == e.state && s.position w == position
      if redundant then again else
        let price := cost + e.depth * costPerSkippedTree
          + (env.text.byteAt position - env.text.byteAt e.position) * costPerSkippedByte
          + (env.text.rowAt position - env.text.rowAt e.position) * costPerSkippedRow
        if ← betterExists v false price then return false
        else if ← hasActions env e.state lookahead.symbol then
          if ← recoverTo env v depth e.state then return true else again
        else again

/-- Deals with a token in the error state. -/
def recover (env : Env) (v : Nat) (lookahead : Tree) : Run Unit := do
  let versions := (← stack).size
  onStack (·.settleCount v)
  let s ← stack
  let position := s.position v
  let progress := s.countSinceError v
  let cost := s.cost v
  let returned ← match (s.head v).earlier with
    | some summary =>
      if lookahead.isError then pure false
      else recoverEarlier env v lookahead versions position progress cost summary.toList
    | none => pure false
  removeHalted (2 * (← stack).size + 2) versions
  if returned && (← stack).size > maxVersions then
    onStack (·.halt v)
  else if returned && lookahead.changed then
    onStack (·.halt v)
  else if lookahead.symbol == 0 then
    let parent := Tree.node env.lang env.text Tree.errorSymbol #[] none position
    push env v (some parent) Automaton.startState
    accept env v lookahead
  else
    let price := cost + costPerSkippedTree
      + (env.text.byteAt lookahead.stop - env.text.byteAt lookahead.before) * costPerSkippedByte
      + (env.text.rowAt lookahead.stop - env.text.rowAt lookahead.before) * costPerSkippedRow
    if ← betterExists v false price then onStack (·.halt v)
    else
      let isExtra := match (← actions env Automaton.startState lookahead.symbol).back? with
        | some .skip => true
        | _ => false
      let token := if isExtra then { lookahead with extra := true } else lookahead
      let skipped := Tree.node env.lang env.text Tree.skippedSymbol #[token] none position
      let skipped ← if progress > 0 then do
          let slices ← onStackGet (·.popCount v 1)
          match slices[0]? with
          | none => pure skipped
          | some slice =>
            if slices.size > 1 then
              onStack fun s => (List.range s.size).foldl (fun s _ =>
                if s.size > slice.version + 1 then s.remove (slice.version + 1) else s) s
            onStack (·.renumber slice.version v)
            pure (Tree.node env.lang env.text Tree.skippedSymbol (slice.trees.push skipped) none position)
        else pure skipped
      push env v (some skipped) Automaton.errorState
      remember v token

/-- The reductions of a state, over one token or over all; and whether it could take the token. -/
def reductionsOf (env : Env) (state : Nat) (tokens : List Nat) : Run (Array Nat × Bool) := do
  let mut found : Array Nat := #[]
  let mut shifts := false
  for token in tokens do
    for action in ← actions env state token do
      match action with
      | .shift _ false => shifts := true
      | .recover => shifts := true
      | .reduce p =>
        let production := env.lang.productions.getD p default
        if production.steps.size > 0 && !(found.any fun q =>
            let other := env.lang.productions.getD q default
            other.lhs == production.lhs && other.steps.size == production.steps.size) then
          found := found.push p
      | _ => pure ()
  return (found, shifts)

/-- Merges `v` into an earlier reading, from `first` on. -/
def mergeInto (env : Env) (v : Nat) : List Nat → Run Bool
  | [] => return false
  | j :: rest => do
    if ← merge env j v then return true else mergeInto env v rest

/-- Performs every reduction that some token (or the given one) would allow. Returns whether a reading can then take
the given token. -/
def reduceAll (env : Env) (starting : Nat) (token : Option Nat) : Run Bool := do
  let initial := (← stack).size
  let tokens := match token with
    | some t => [t]
    | none => (List.range env.lang.terminals).drop 1
  let rec go : Nat → Nat → Nat → Bool → Run Bool
    | 0, _, _, can => return can
    | fuel + 1, i, v, can => do
      let count := (← stack).size
      if v ≥ count then return can
      if ← mergeInto env v ((List.range v).drop initial) then go fuel (i + 1) v can
      else
        let state := (← stack).state v
        let (reductions, shifts) ← reductionsOf env state tokens
        let mut last : Option Nat := none
        for p in reductions do
          last ← reduceBy env v p
        let onward := if v == starting then count else v + 1
        if shifts then go fuel (i + 1) onward true
        else
          match last with
          | some r =>
            if i < maxVersions then
              onStack (·.renumber r v)
              go fuel (i + 1) v can
            else
              if token.isSome then onStack (·.remove v)
              go fuel (i + 1) onward can
          | none =>
            if token.isSome then onStack (·.remove v)
            go fuel (i + 1) onward can
  go 4096 0 starting false

/-- Looks for a token that, had it stood here, would let the reading go on. -/
def insertMissing (env : Env) (v : Nat) (lookahead : Tree) : List Nat → Run Bool
  | [] => return false
  | symbol :: rest => do
    let state := (← stack).state v
    match ← nextState env state symbol with
    | none => insertMissing env v lookahead rest
    | some after =>
      if after == state then insertMissing env v lookahead rest
      else if ← hasReduction env after lookahead.firstLeaf then
        let copy := (← stack).size
        onStack (·.copy v)
        let position := (← stack).position v
        push env copy (some (Tree.missingLeaf symbol position)) after
        let token := if lookahead.firstLeaf == 0 then none else some lookahead.firstLeaf
        if ← reduceAll env copy token then return true
        else insertMissing env v lookahead rest
      else insertMissing env v lookahead rest

/-- Begins to recover from a token that no action allows. -/
def handleError (env : Env) (v : Nat) (lookahead : Tree) : Run Unit := do
  let previous := (← stack).size
  let _ ← reduceAll env v none
  let versions := (← stack).size
  let rec go : Nat → Nat → Bool → Run Unit
    | 0, _, _ => return
    | fuel + 1, w, inserted => do
      if w ≥ versions then return
      let inserted ← if inserted then pure true
        else insertMissing env w lookahead ((List.range env.lang.terminals).drop 1)
      push env w none Automaton.errorState
      go fuel (if w == v then previous else w + 1) inserted
  go (versions + 2) v false
  for _ in [previous:versions] do
    let _ ← merge env v previous
  onStack (·.recordEarlier v maxDepth)
  recover env v lookahead

/-! ### The main loop -/

/-- The keyword as a plain word, where the state can use that. -/
def asWord (env : Env) (state : Nat) (lookahead : Tree) : Run (Option Tree) := do
  match env.lang.word with
  | none => return none
  | some w =>
    let here := (← get).automaton.state state
    if lookahead.keyword && lookahead.symbol != w
        && !(here.reserving && Automaton.hasBit env.lang.reserved lookahead.symbol) then
      if ← hasActions env state w then return some { lookahead with symbol := w, firstLeaf := w } else return none
    else return none

inductive Outcome where
  | done
  | reduced (version : Option Nat)

/-- Performs the actions on a token: reductions make new readings, a shift ends the turn. -/
def perform (env : Env) (v state : Nat) (lookahead : Tree) : List Action → Option (Option Nat) → Run Outcome
  | [], none => return .reduced none
  | [], some last => match last with
    | some version => return .reduced (some version)
    | none => do
      onStack (·.halt v)
      return .done
  | action :: rest, last => do
    match action with
    | .shift _ true => perform env v state lookahead rest last
    | .shift target false =>
      shift env v lookahead target false
      return .done
    | .skip =>
      shift env v lookahead state true
      return .done
    | .reduce p =>
      let made ← reduceBy env v p
      perform env v state lookahead rest (some (made <|> last.join))
    | .accept =>
      accept env v lookahead
      return .done
    | .recover =>
      recover env v lookahead
      return .done

/-- Moves one reading past its next token, or makes it wait. -/
def advance (env : Env) (v : Nat) : Run Unit := do
  let state := (← stack).state v
  let lookahead ← readToken env v state
  let rec go : Nat → Nat → Tree → Nat → Run Unit
    | 0, _, _, _ => onStack (·.halt v)
    | fuel + 1, state, lookahead, token => do
      match ← perform env v state lookahead (← actions env state token).toList none with
      | .done => return
      | .reduced (some version) =>
        onStack (·.renumber version v)
        let state := (← stack).state v
        go fuel state lookahead lookahead.firstLeaf
      | .reduced none =>
        match ← asWord env state lookahead with
        | some word => go fuel state word word.symbol
        | none => onStack (·.pause v lookahead)
  go (64 + 8 * (← stack).nodes.size) state lookahead lookahead.symbol

/-- Compares reading `i`, whose standing was `mine`, with those before it, dropping or merging what is not worth
keeping. Returns the index to go on with. -/
def condenseOne (env : Env) (mine : Standing) : Nat → Nat → Nat → Run Nat
  | 0, i, _ => return i + 1
  | fuel + 1, i, j => do
    if j ≥ i then return i + 1
    match compareStandings (← standing j) mine with
    | .takeLeft =>
      onStack (·.remove i)
      return i
    | .preferLeft | .neither =>
      if ← merge env j i then return i else condenseOne env mine fuel i (j + 1)
    | .preferRight =>
      if ← merge env j i then return i
      else
        onStack (·.swap i j)
        condenseOne env mine fuel i (j + 1)
    | .takeRight =>
      onStack (·.remove j)
      condenseOne env mine fuel (i - 1) j

/-- Drops the halted readings and sorts the others from reading `i` on. Returns the least cost of a reading that is
not failing. -/
def condenseFrom (env : Env) : Nat → Nat → Option Nat → Run (Option Nat)
  | 0, _, least => return least
  | fuel + 1, i, least => do
    let s ← stack
    if i ≥ s.size then return least
    if s.isHalted i then
      onStack (·.remove i)
      condenseFrom env fuel i least
    else
      let mine ← standing i
      let least := if mine.failing then least else some ((least.map (min mine.cost)).getD mine.cost)
      let i ← condenseOne env mine (2 * s.size + 2) i 0
      condenseFrom env fuel i least

/-- Lets the best of the first `n` readings recover if it waits, and drops the others that wait. -/
def wake (env : Env) : Nat → Nat → Nat → Bool → Option Nat → Run (Option Nat)
  | 0, _, _, _, least => return least
  | fuel + 1, i, n, running, least => do
    if i ≥ n then return least
    let s ← stack
    match (s.head i).status with
    | .paused lookahead =>
      if !running && (← get).accepts < maxVersions then
        let cost := s.cost i
        onStack (·.modifyHead i fun h => { h with status := .active })
        handleError env i lookahead
        wake env fuel (i + 1) n true (some cost)
      else
        onStack (·.remove i)
        wake env fuel i (n - 1) running least
    | _ => wake env fuel (i + 1) n true least

/-- Puts the readings in order, drops the hopeless ones, and begins recovery where all wait. -/
def condense (env : Env) : Run (Option Nat) := do
  let least ← condenseFrom env (4 * (← stack).size + 4) 0 none
  onStack fun s => { s with heads := s.heads.extract 0 maxVersions }
  let n := (← stack).size
  wake env (n + 1) 0 n false least

/-- Advances one reading until it has passed the furthest position so far. -/
def advanceTo (env : Env) (v : Nat) : Nat → Nat → Run Nat
  | 0, last => do
    onStack (·.halt v)
    return last
  | fuel + 1, last => do
    if !(← stack).isActive v then return last
    advance env v
    let position := (← stack).position v
    if position > last || (v > 0 && position == last) then return position
    else advanceTo env v fuel last

def advanceEach (env : Env) : Nat → Nat → Nat → Run Nat
  | 0, _, last => return last
  | fuel + 1, v, last => do
    if v ≥ (← stack).size then return last
    let last ← advanceTo env v (64 + env.text.size) last
    advanceEach env fuel (v + 1) last

/-- Round by round until the readings are used up or none can beat the finished tree. -/
def rounds (env : Env) : Nat → Nat → Run Unit
  | 0, _ => return
  | fuel + 1, last => do
    if (← stack).size == 0 then return
    let last ← advanceEach env 64 0 last
    let least ← condense env
    let settled := match (← get).finished with
      | some tree => least.all (tree.cost < ·)
      | none => false
    if settled then return else rounds env fuel last

end Engine

/-- Reads a whole text. -/
def run (env : Env) : Option Tree :=
  let start : RunState := ⟨Automaton.initial env.lang, Stack.initial, none, 0⟩
  ((Engine.rounds env (64 * (env.text.size + 16)) 0).run start).2.finished

end Remedy.Parse
