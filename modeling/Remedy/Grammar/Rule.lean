import Remedy.Grammar.Pattern

/-!
The language in which grammars are written: rules over named symbols, literal tokens and patterns, with
precedences, aliases and field labels.
-/

namespace Remedy.Grammar

/-- How strongly a rule binds: by number, or by a name that a precedence ordering ranks. -/
inductive Precedence where
  | none
  | level (n : Int)
  | named (name : String)
  deriving BEq, DecidableEq, Repr, Inhabited

inductive Associativity where
  | left
  | right
  deriving BEq, DecidableEq, Repr, Inhabited

/-- The name a grammar rule gives a node in place of the symbol's own. -/
structure Alias where
  name : String
  named : Bool
  deriving BEq, DecidableEq, Repr, Inhabited

/-- A token of the lexer. -/
structure Token where
  name : String
  named : Bool
  visible : Bool
  pattern : Pattern
  /-- The text, when the token is a single literal. -/
  text : Option String
  precedence : Int
  /-- Literals outrank patterns, and immediate tokens outrank their separated twins. -/
  specificity : Nat
  /-- No blanks may be skipped before an immediate token. -/
  immediate : Bool
  deriving Repr, Inhabited

/-- The shape of a token: what it matches and how it competes with the others. -/
structure TokenShape where
  pattern : Pattern
  text : Option String
  precedence : Int
  immediate : Bool
  deriving BEq, Repr, Inhabited

inductive Rule where
  | blank
  | symbol (name : String)
  | token (shape : TokenShape)
  | seq (parts : List Rule)
  | choice (options : List Rule)
  | repeat1 (body : Rule)
  | field (label : String) (body : Rule)
  | display (target : Alias) (body : Rule)
  | prec (precedence : Precedence) (associativity : Option Associativity) (body : Rule)
  | dynamic (weight : Int) (body : Rule)
  /-- Words that are keywords elsewhere are plain words here. -/
  | unreserved (body : Rule)
  deriving Inhabited

namespace Rule

def str (text : String) : Rule := token ⟨.literal text, some text, 0, false⟩
def pat (p : Pattern) : Rule := token ⟨p, none, 0, false⟩
def immediate (p : Pattern) (precedence : Int) : Rule := token ⟨p, none, precedence, true⟩
def immediateStr (text : String) (precedence : Int) : Rule :=
  token ⟨.literal text, some text, precedence, true⟩
def opt (body : Rule) : Rule := choice [body, blank]
def star (body : Rule) : Rule := choice [repeat1 body, blank]
/-- One or more, separated by commas. -/
def commaSep1 (body : Rule) : Rule := seq [body, star (seq [str ",", body])]
def commaSep (body : Rule) : Rule := opt (commaSep1 body)
/-- Names the node `name`, as a named node. -/
def called (body : Rule) (name : String) : Rule := display ⟨name, true⟩ body
/-- Gives the node the text `name`, as an unnamed node. -/
def shownAs (body : Rule) (name : String) : Rule := display ⟨name, false⟩ body

end Rule

instance : Coe String Rule := ⟨Rule.symbol⟩

/-- One entry of a precedence ordering. -/
inductive Ranked where
  | name (name : String)
  | rule (name : String)
  deriving BEq, Repr

/-- A token that the grammar leaves to a hand-written scanner. -/
inductive External where
  /-- A token that only the scanner can produce. -/
  | scanned (name : String)
  /-- A token that the lexer can produce as well. -/
  | literal (text : String)
  | rule (name : String)

/-- A grammar as its author writes it. The first rule is the start rule. -/
structure Definition where
  rules : List (String × Rule)
  externals : List External
  /-- What may stand between any two tokens, blanks apart. -/
  extras : List String
  blanks : CharSet
  inlined : List String
  supertypes : List String
  orderings : List (List Ranked)
  word : Option String
  reserved : List String
  /-- Tokens that the lexer does not look for while it recovers from an error. -/
  unsought : List String

end Remedy.Grammar
