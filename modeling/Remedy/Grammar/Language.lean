import Remedy.Grammar.Rule
import Std.Data.HashMap
import Std.Data.HashSet

/-!
A grammar prepared for parsing: its tokens, its symbols, and its rules as flat productions.

Symbols are numbers: `0` is the end of the text, then come the word token, the other tokens, the tokens of the
scanner, and the nonterminals. Sets of tokens are numbers whose bits are the members.
-/

namespace Remedy.Grammar

deriving instance Hashable for Precedence, Associativity, Alias

/-- One symbol of a production, with how it binds and what it is called. -/
structure Step where
  symbol : Nat
  precedence : Precedence
  associativity : Option Associativity
  display : Option Alias
  field : Option String
  unreserved : Bool
  deriving BEq, Hashable, Repr, Inhabited

structure Production where
  lhs : Nat
  steps : Array Step
  dynamic : Int
  deriving BEq, Hashable, Repr, Inhabited

/-- How a symbol shows in a tree. -/
structure SymbolInfo where
  name : String
  visible : Bool
  named : Bool
  deriving Repr, Inhabited

/-- A nonterminal with which productions of another begin: the tokens that may follow it there, and whether
whatever follows the other may follow it too. -/
structure Corner where
  symbol : Nat
  follow : Nat
  passes : Bool
  deriving Inhabited

structure Language where
  infos : Array SymbolInfo
  /-- The tokens of the lexer, by symbol; the entry of `0` is unused. -/
  tokens : Array Token
  /-- The number of symbols that are not nonterminals. -/
  terminals : Nat
  /-- For each token of the scanner, its symbol. -/
  externals : Array Nat
  productions : Array Production
  /-- For each nonterminal, its productions by the symbol with which they begin. -/
  openings : Array (Std.HashMap Nat (Array Nat))
  /-- For each nonterminal, its empty productions. -/
  empties : Array (Array Nat)
  corners : Array (Array Corner)
  /-- For each symbol, the tokens with which its text can begin. -/
  first : Array Nat
  auxiliary : Array Bool
  extras : Nat
  blanks : CharSet
  orderings : List (List Ranked)
  word : Option Nat
  keywords : Std.HashMap String Nat
  reserved : Nat
  /-- The tokens looked for while recovering from an error. -/
  sought : Nat
  deriving Inhabited

/-! ### Preparation -/

namespace Preparation

/-- The tokens that a rule mentions, in order, each time it does. -/
def shapes : Rule → List TokenShape
  | .blank => []
  | .symbol _ => []
  | .token shape => [shape]
  | .seq parts => parts.flatMap fun r => shapes r
  | .choice options => options.flatMap fun r => shapes r
  | .repeat1 body => shapes body
  | .field _ body => shapes body
  | .display _ body => shapes body
  | .prec _ _ body => shapes body
  | .dynamic _ body => shapes body
  | .unreserved body => shapes body

/-- A choice-free view: every way to settle the choices of a rule, in order. -/
def settle : Rule → List Rule
  | .seq parts => parts.foldl (fun settled r =>
      settled.flatMap fun s => (settle r).map fun t => .seq [s, t]) [.blank]
  | .choice options => options.flatMap fun r => settle r
  | .field label body => (settle body).map (.field label)
  | .display target body => (settle body).map (.display target)
  | .prec p a body => (settle body).map (.prec p a)
  | .dynamic w body => (settle body).map (.dynamic w)
  | .unreserved body => (settle body).map .unreserved
  | .blank => [.blank]
  | .symbol name => [.symbol name]
  | .token shape => [.token shape]
  | .repeat1 body => [.repeat1 body]

/-- Names and tokens resolved to symbols. -/
structure Scope where
  names : Std.HashMap String Nat
  token : TokenShape → Nat

/-- The marks that enclosing rules put on a step. -/
structure Marks where
  precedence : List Precedence
  associativity : List Associativity
  display : Option Alias
  field : Option String
  unreserved : Bool

structure Flat where
  steps : Array Step
  dynamic : Int

def Flat.push (marks : Marks) (symbol : Nat) (flat : Flat) : Flat :=
  let step : Step := ⟨symbol, marks.precedence.headD .none, marks.associativity.head?, marks.display,
    marks.field, marks.unreserved⟩
  { flat with steps := flat.steps.push step }

/-- Lays a choice-free rule out as steps. Where a rule with a precedence ends before its parent does, its last
step binds as the parent's steps do. -/
def lay (scope : Scope) (marks : Marks) (atEnd : Bool) (flat : Flat) : Rule → Flat
  | .blank => flat
  | .symbol name => flat.push marks (scope.names.getD name 0)
  | .token shape => flat.push marks (scope.token shape)
  | .seq [] => flat
  | .seq [r] => lay scope marks atEnd flat r
  | .seq (r :: rest) => lay scope marks atEnd (lay scope marks false flat r) (.seq rest)
  | .choice _ => flat
  | .repeat1 _ => flat
  | .field label body => lay scope { marks with field := some label } atEnd flat body
  | .display target body => lay scope { marks with display := some target } atEnd flat body
  | .dynamic w body =>
    let flat := if w.natAbs > flat.dynamic.natAbs then { flat with dynamic := w } else flat
    lay scope marks atEnd flat body
  | .unreserved body => lay scope { marks with unreserved := true } atEnd flat body
  | .prec p a body =>
    let inner := { marks with
      precedence := if p == .none then marks.precedence else p :: marks.precedence
      associativity := match a with
        | none => marks.associativity
        | some a => a :: marks.associativity }
    let laid := lay scope inner atEnd flat body
    if atEnd || laid.steps.size == flat.steps.size then laid else
      { laid with steps := laid.steps.modify (laid.steps.size - 1) fun step =>
          { step with
            precedence := if p == .none then step.precedence else marks.precedence.headD .none
            associativity := if a.isNone then step.associativity else marks.associativity.head? } }

/-- Rules whose repetitions have been given names of their own. -/
structure Repeats where
  owner : String
  count : Nat
  known : List (Rule × String)
  added : Array (String × Rule)

deriving instance BEq for Rule

def binary (name : String) (body : Rule) : Rule := .choice [.seq [.symbol name, .symbol name], body]

mutual

def nameRepeats : Rule → StateM Repeats Rule
  | .repeat1 body => do
    let body ← nameRepeats body
    let known := (← get).known
    match known.find? (·.1 == body) with
    | some (_, name) => return .symbol name
    | none =>
      let state ← get
      let name := state.owner ++ "_repeat" ++ toString (state.count + 1)
      set { state with
        count := state.count + 1
        known := (body, name) :: state.known
        added := state.added.push (name, binary name body) }
      return .symbol name
  | .seq parts => do return .seq (← nameRepeatsAll parts)
  | .choice options => do return .choice (← nameRepeatsAll options)
  | .field label body => do return .field label (← nameRepeats body)
  | .display target body => do return .display target (← nameRepeats body)
  | .prec p a body => do return .prec p a (← nameRepeats body)
  | .dynamic w body => do return .dynamic w (← nameRepeats body)
  | .unreserved body => do return .unreserved (← nameRepeats body)
  | .blank => return .blank
  | .symbol name => return .symbol name
  | .token shape => return .token shape

def nameRepeatsAll : List Rule → StateM Repeats (List Rule)
  | [] => return []
  | r :: rest => do return (← nameRepeats r) :: (← nameRepeatsAll rest)

end

/-- Puts the steps of `inner` in place of step `i`. Marks of the replaced step pass to the new ones. -/
def splice (outer : Production) (i : Nat) (inner : Production) : Production :=
  let old := outer.steps.getD i default
  let marked := inner.steps.mapIdx fun j step =>
    let step := { step with
      display := if old.display.isSome then old.display else step.display
      field := if old.field.isSome then old.field else step.field
      unreserved := old.unreserved || step.unreserved }
    if j + 1 == inner.steps.size then
      { step with
        precedence := if step.precedence == .none then old.precedence else step.precedence
        associativity := if step.associativity.isNone then old.associativity else step.associativity }
    else step
  { outer with
    steps := outer.steps.extract 0 i ++ marked ++ outer.steps.extract (i + 1) outer.steps.size
    dynamic := if inner.dynamic.natAbs > outer.dynamic.natAbs then inner.dynamic else outer.dynamic }

/-- Replaces inlined nonterminals by their productions, at most `fuel` deep. -/
def inlineSteps (inlined : Nat → Option (Array Production)) : Nat → Production → Array Production
  | 0, p => #[p]
  | fuel + 1, p =>
    match p.steps.findIdx? fun step => (inlined step.symbol).isSome with
    | none => #[p]
    | some i =>
      let bodies := (inlined (p.steps.getD i default).symbol).getD #[]
      bodies.flatMap fun inner => inlineSteps inlined fuel (splice p i inner)

def dedup [BEq α] [Hashable α] (xs : Array α) : Array α :=
  (xs.foldl (fun (seen, out) x =>
    if seen.contains x then (seen, out) else (seen.insert x, out.push x)) ((∅ : Std.HashSet α), #[])).2

/-- The tokens with which each symbol can begin, as a fixed point. -/
def firstSets (terminals : Nat) (symbols : Nat) (productions : Array Production) : Nat → Array Nat
  | 0 => (Array.range symbols).map fun s => if s < terminals then 1 <<< s else 0
  | fuel + 1 =>
    let sets := firstSets terminals symbols productions fuel
    productions.foldl (fun sets p =>
      match p.steps[0]? with
      | none => sets
      | some step => sets.modify p.lhs (· ||| sets.getD step.symbol 0)) sets

def cornersOf (terminals symbols : Nat) (first : Array Nat) (productions : Array Production) :
    Array (Array Corner) :=
  productions.foldl (fun table p =>
    match p.steps[0]? with
    | none => table
    | some step =>
      if step.symbol < terminals then table else
        let follow := match p.steps[1]? with
          | none => 0
          | some next => first.getD next.symbol 0
        let passes := p.steps.size == 1
        table.modify p.lhs fun row =>
          match row.findIdx? (·.symbol == step.symbol) with
          | some i => row.modify i fun c => { c with follow := c.follow ||| follow, passes := c.passes || passes }
          | none => row.push ⟨step.symbol, follow, passes⟩)
    (Array.replicate symbols #[])

/-- The alias under which a symbol always appears, if it never appears under its own name; of several aliases
the most frequent, of these the first. -/
def defaultAliases (productions : Array Production) (inlined : Nat → Bool) (extras : List Nat) :
    Std.HashMap Nat Alias :=
  let (plain, counts) := productions.foldl (fun acc p => p.steps.foldl (fun (plain, counts) step =>
      if inlined step.symbol then (plain, counts) else
        match step.display with
        | none => (plain.insert step.symbol, counts)
        | some a =>
          let row := counts.getD step.symbol #[]
          let row := match row.findIdx? (·.1 == a) with
            | some i => row.modify i fun (a, n) => (a, n + 1)
            | none => row.push (a, 1)
          (plain, counts.insert step.symbol row)) acc)
    ((Std.HashSet.ofList extras : Std.HashSet Nat), (∅ : Std.HashMap Nat (Array (Alias × Nat))))
  counts.fold (fun out symbol row =>
    if plain.contains symbol then out else
      match row.foldl (fun best entry => match best with
          | none => some entry
          | some b => if entry.2 > b.2 then some entry else best) none with
      | none => out
      | some (a, _) => out.insert symbol a) ∅

end Preparation

open Preparation in
/-- Prepares a grammar: gathers its tokens, names its repetitions, and flattens its rules. -/
def Definition.prepare (definition : Definition) : Language := Id.run do
  -- Tokens, in the order in which the rules first mention them.
  let mentioned := definition.rules.flatMap fun (_, r) => shapes r
  let mut distinct : Array TokenShape := #[]
  let mut uses : Array Nat := #[]
  for shape in mentioned do
    match distinct.findIdx? (· == shape) with
    | some i => uses := uses.modify i (· + 1)
    | none =>
      distinct := distinct.push shape
      uses := uses.push 1
  let start := (definition.rules.head?.map (·.1)).getD ""
  let startsHidden := fun (name : String) => name.startsWith "_"
  -- A rule that is one token, used nowhere else, names that token.
  let mut owner : Std.HashMap Nat String := ∅
  for (name, r) in definition.rules do
    if name != start then
      if let .token shape := r then
        if let some i := distinct.findIdx? (· == shape) then
          if uses.getD i 0 == 1 then owner := owner.insert i name
  let tokenOwners := owner.toList.map (·.2)
  let rules := definition.rules.filter fun (name, _) => !tokenOwners.contains name
  let infoOf := fun (i : Nat) (shape : TokenShape) =>
    match owner[i]?, shape.text with
    | some name, some text =>
      if startsHidden name then (⟨text, false, true, shape.pattern, shape.text, 0, 0, false⟩ : Token)
      else ⟨name, true, true, shape.pattern, shape.text, 0, 0, false⟩
    | some name, none => ⟨name, true, !startsHidden name, shape.pattern, none, 0, 0, false⟩
    | none, some text => ⟨text, false, true, shape.pattern, shape.text, 0, 0, false⟩
    | none, none => ⟨"token", false, false, shape.pattern, none, 0, 0, false⟩
  let made := distinct.mapIdx fun i shape =>
    { infoOf i shape with
      precedence := shape.precedence
      specificity := (if shape.text.isSome then 2 else 0) + (if shape.immediate then 1 else 0)
      immediate := shape.immediate }
  -- The word token comes first.
  let wordIndex := definition.word.bind fun w =>
    made.findIdx? fun t => t.named && t.name == w
  let order := match wordIndex with
    | some w => #[w] ++ (Array.range made.size).filter (· != w)
    | none => Array.range made.size
  let tokens := #[default] ++ order.map fun i => made.getD i default
  let symbolOf := fun (i : Nat) => (order.findIdx? (· == i)).getD 0 + 1
  let tokenSymbol := fun (shape : TokenShape) => ((distinct.findIdx? (· == shape)).map symbolOf).getD 0
  -- Tokens of the scanner.
  let mut names : Std.HashMap String Nat := ∅
  for (i, name) in owner.toList do
    names := names.insert name (symbolOf i)
  let mut infos : Array SymbolInfo := #[⟨"end", false, true⟩]
  for t in tokens.extract 1 tokens.size do
    infos := infos.push ⟨t.name, t.visible, t.named⟩
  let mut externals : Array Nat := #[]
  for e in definition.externals do
    match e with
    | .scanned name =>
      names := names.insert name infos.size
      externals := externals.push infos.size
      infos := infos.push ⟨name, !startsHidden name, true⟩
    | .literal text => externals := externals.push (tokenSymbol (match Rule.str text with
        | .token shape => shape
        | _ => default))
    | .rule name => externals := externals.push (names.getD name 0)
  let terminals := infos.size
  -- Nonterminals, then the repetitions.
  let mut repeats : Repeats := ⟨"", 0, [], #[]⟩
  let mut bodies : Array (String × Rule) := #[]
  let mut auxiliary : Array Bool := Array.replicate terminals false
  let mut selfRepeating : List String := []
  for (name, r) in rules do
    repeats := { repeats with owner := name, count := 0 }
    match r with
    | .repeat1 body =>
      if startsHidden name then
        let (body, next) := (nameRepeats body).run repeats
        repeats := next
        bodies := bodies.push (name, binary name body)
        selfRepeating := name :: selfRepeating
      else
        let (r, next) := (nameRepeats r).run repeats
        repeats := next
        bodies := bodies.push (name, r)
    | r =>
      let (r, next) := (nameRepeats r).run repeats
      repeats := next
      bodies := bodies.push (name, r)
  for (name, _) in bodies do
    names := names.insert name infos.size
    infos := infos.push ⟨name, !startsHidden name && !definition.supertypes.contains name, true⟩
    auxiliary := auxiliary.push (selfRepeating.contains name)
  for (name, _) in repeats.added do
    names := names.insert name infos.size
    infos := infos.push ⟨name, false, false⟩
    auxiliary := auxiliary.push true
  let symbols := infos.size
  -- Flat productions.
  let scope : Scope := ⟨names, tokenSymbol⟩
  let mut flat : Array Production := #[]
  for (name, r) in bodies ++ repeats.added do
    let lhs := names.getD name 0
    let laid := (settle r).toArray.map fun r =>
      let f := lay scope ⟨[], [], none, none, false⟩ true ⟨#[], 0⟩ r
      (⟨lhs, f.steps, f.dynamic⟩ : Production)
    flat := flat ++ dedup laid
  let inlinedSymbols := definition.inlined.filterMap fun name => names[name]?
  let extraSymbols := definition.extras.filterMap fun name => names[name]?
  let aliases := defaultAliases flat inlinedSymbols.contains extraSymbols
  for (symbol, a) in aliases.toList do
    infos := infos.set! symbol ⟨a.name, true, a.named⟩
  let byLhs := flat.foldl (fun (table : Std.HashMap Nat (Array Production)) p =>
    table.insert p.lhs ((table.getD p.lhs #[]).push p)) ∅
  let inlinedTable := fun symbol =>
    if inlinedSymbols.contains symbol then byLhs[symbol]? else none
  let startSymbol := names.getD start 0
  let goal : Production := ⟨symbols, #[⟨startSymbol, .none, none, none, none, false⟩], 0⟩
  let inlinedFlat := dedup ((flat.filter fun p => !inlinedSymbols.contains p.lhs).flatMap fun p =>
    inlineSteps inlinedTable 32 p)
  let productions := #[goal] ++ inlinedFlat
  let first := firstSets terminals (symbols + 1) productions 64
  let openings := (Array.range productions.size).foldl (fun table i =>
    let p := productions.getD i default
    match p.steps[0]? with
    | none => table
    | some step => table.modify p.lhs fun row => row.insert step.symbol ((row.getD step.symbol #[]).push i))
    (Array.replicate (symbols + 1) (∅ : Std.HashMap Nat (Array Nat)))
  let empties := (Array.range productions.size).foldl (fun table i =>
    let p := productions.getD i default
    if p.steps.isEmpty then table.modify p.lhs (·.push i) else table)
    (Array.replicate (symbols + 1) (#[] : Array Nat))
  let word := wordIndex.map symbolOf
  let wordPattern := (wordIndex.map fun w => (made.getD w default).pattern).getD .empty
  let keywords := (Array.range tokens.size).foldl (fun (table : Std.HashMap String Nat) s =>
    let t := tokens.getD s default
    match t.text with
    | some text =>
      if s != 0 && word.isSome && !t.immediate && wordPattern.isMatch text.toList then table.insert text s
      else table
    | none => table) ∅
  let bits := fun (symbols : List Nat) => symbols.foldl (fun set s => set ||| (1 <<< s)) 0
  let unsought := definition.unsought.filterMap fun name =>
    (Array.range tokens.size).toList.find? fun s => s != 0 && (tokens.getD s default).name == name
  let unnamedTokens := (Array.range tokens.size).toList.filter fun s =>
    s != 0 && (tokens.getD s default).name == "token"
  let sought := ((1 <<< terminals) - 1) - bits (Preparation.dedup (unsought ++ unnamedTokens).toArray).toList
  return {
    infos, tokens, terminals, externals, productions, openings, empties
    corners := cornersOf terminals (symbols + 1) first productions
    first, auxiliary
    extras := bits extraSymbols
    blanks := definition.blanks
    orderings := definition.orderings
    word, keywords
    reserved := bits (definition.reserved.filterMap fun w => keywords[w]?)
    sought }

end Remedy.Grammar
