import Remedy.Grammar.Language
import Remedy.Parse.Text

/-!
Reading one token. Only the tokens that a parser state can use compete. All of them are followed at once; the
longest match wins, then the higher precedence, then the more specific token, then the one mentioned first.
-/

namespace Remedy.Parse

open Grammar

/-- A token that the lexer found, or how far it came without finding one. -/
inductive Lexed where
  | found (symbol start stop : Nat)
  | stuck (start reached : Nat)

namespace Lexer

/-- Whether token `a` beats token `b` on the same text. -/
def beats (lang : Language) (a b : Nat) : Bool :=
  let ta := lang.tokens.getD a default
  let tb := lang.tokens.getD b default
  if ta.precedence != tb.precedence then ta.precedence > tb.precedence
  else if ta.specificity != tb.specificity then ta.specificity > tb.specificity
  else a < b

/-- Follows the live tokens from index `i`. After a match, tokens go on only if one of them has at least the
precedence of the match. -/
def follow (lang : Language) (text : Text) (i : Nat) (live : List (Nat × List Pattern))
    (best : Option (Nat × Nat)) : Option (Nat × Nat) × Nat :=
  let here := live.foldl (fun best (s, ps) =>
    if Pattern.accepts ps then
      match best with
      | some b => if beats lang s b then some s else best
      | none => some s
    else best) none
  let best := match here with
    | some s => some (s, i)
    | none => best
  if h : i < text.chars.size then
    let c := text.chars[i]
    let next := live.filterMap fun (s, ps) =>
      match Pattern.step c ps with
      | [] => none
      | qs => some (s, qs)
    let outranked := match here with
      | some s =>
        let level := (lang.tokens.getD s default).precedence
        next.all fun (s, _) => (lang.tokens.getD s default).precedence < level
      | none => false
    if next.isEmpty || outranked then (best, i) else follow lang text (i + 1) next best
  else (best, i)
termination_by text.chars.size - i

/-- Reads a token at `i`, skipping blanks; `fresh` while none has been skipped. -/
def readFrom (lang : Language) (wanted : Array Nat) (text : Text) (i : Nat) (fresh : Bool) : Lexed :=
  let live := wanted.toList.filterMap fun s =>
    let t := lang.tokens.getD s default
    if s == 0 || (t.immediate && !fresh) then none else some (s, [t.pattern])
  let (best, reached) := follow lang text i live none
  match best with
  | some (s, stop) => .found s i stop
  | none =>
    if h : i < text.chars.size then
      if lang.blanks.contains text.chars[i] then readFrom lang wanted text (i + 1) false
      else .stuck i reached
    else if wanted.contains 0 then .found 0 i i
    else .stuck i i
termination_by text.chars.size - i

def read (lang : Language) (wanted : Array Nat) (text : Text) (i : Nat) : Lexed :=
  readFrom lang wanted text i true

end Lexer

end Remedy.Parse
