/-!
Regular patterns over characters, matched by taking residuals one character at a time.

A pattern's residuals after a character are the patterns that the rest of the text may still match.
There are finitely many of them, so a lexer that keeps the set of live residuals never backtracks.
-/

namespace Remedy.Grammar

/-- A set of characters: code point ranges, or the complement of such ranges. -/
structure CharSet where
  ranges : List (Nat × Nat)
  negated : Bool
  deriving BEq, Repr, Inhabited

namespace CharSet

def contains (s : CharSet) (c : Char) : Bool :=
  (s.ranges.any fun (lo, hi) => lo ≤ c.toNat && c.toNat ≤ hi) != s.negated

/-- The characters of a text. -/
def ofString (text : String) : CharSet :=
  ⟨text.toList.map fun c => (c.toNat, c.toNat), false⟩

def range (lo hi : Char) : CharSet := ⟨[(lo.toNat, hi.toNat)], false⟩

def union (s t : CharSet) : CharSet := ⟨s.ranges ++ t.ranges, false⟩

def compl (s : CharSet) : CharSet := ⟨s.ranges, !s.negated⟩

/-- Tab, line feed, vertical tab, form feed, carriage return and space. -/
def space : CharSet := ⟨[(9, 13), (32, 32)], false⟩

def digit : CharSet := range '0' '9'

def letter : CharSet := ⟨[(65, 90), (97, 122)], false⟩

def hexDigit : CharSet := ⟨[(48, 57), (65, 70), (97, 102)], false⟩

end CharSet

/-- Regular expressions over characters. -/
inductive Pattern where
  | empty
  | one (set : CharSet)
  | seq (first rest : Pattern)
  | alt (left right : Pattern)
  | many (body : Pattern)
  deriving BEq, Repr, Inhabited

namespace Pattern

/-- Whether the pattern matches the empty text. -/
def nullable : Pattern → Bool
  | empty => true
  | one _ => false
  | seq first rest => first.nullable && rest.nullable
  | alt left right => left.nullable || right.nullable
  | many _ => true

def append : Pattern → Pattern → Pattern
  | empty, rest => rest
  | first, rest => seq first rest

/-- What may follow once the pattern has consumed `c`. -/
def residuals (c : Char) : Pattern → List Pattern
  | empty => []
  | one set => if set.contains c then [empty] else []
  | seq first rest =>
    let through := (first.residuals c).map (·.append rest)
    if first.nullable then through ++ rest.residuals c else through
  | alt left right => left.residuals c ++ right.residuals c
  | many body => (body.residuals c).map (·.append (many body))

/-- The residuals of a set of patterns, each listed once. -/
def step (c : Char) (live : List Pattern) : List Pattern :=
  live.foldl (fun next p =>
    (p.residuals c).foldl (fun next q => if next.contains q then next else q :: next) next) []

def accepts (live : List Pattern) : Bool := live.any nullable

/-- Whether a whole text matches. -/
def isMatch (p : Pattern) (text : List Char) : Bool :=
  accepts (text.foldl (fun live c => step c live) [p])

/-! ### Building patterns -/

def literal (text : String) : Pattern :=
  text.toList.foldr (fun c rest => append (one ⟨[(c.toNat, c.toNat)], false⟩) rest) empty

def chain (parts : List Pattern) : Pattern := parts.foldr append empty

def choice : List Pattern → Pattern
  | [] => one ⟨[], false⟩
  | [p] => p
  | p :: rest => alt p (choice rest)

def optional (p : Pattern) : Pattern := alt p empty

def some (p : Pattern) : Pattern := seq p (many p)

def oneOf (text : String) : Pattern := one (CharSet.ofString text)

def noneOf (text : String) : Pattern := one (CharSet.ofString text).compl

/-- Between `1` and `n + 1` repetitions. -/
def upTo (p : Pattern) : Nat → Pattern
  | 0 => p
  | n + 1 => seq p (optional (upTo p n))

/-- Exactly `n` repetitions. -/
def times (p : Pattern) (n : Nat) : Pattern := chain (List.replicate n p)

end Pattern

end Remedy.Grammar
