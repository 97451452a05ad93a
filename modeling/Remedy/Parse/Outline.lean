import Remedy.Node.Basic
import Remedy.Parse.Tree

/-!
The outline of a parse tree: only the nodes that show, under the names and in the roles that the grammar gives them.
-/

namespace Remedy.Parse

open Grammar

/-- Puts a nameless role on the first of some nodes, where that one has none of its own. -/
def markFirst (role : Option String) : List Node → List Node
  | .mk k n m e s t none cs :: rest => .mk k n m e s t role cs :: rest
  | nodes => nodes

mutual

/-- The nodes that show for a tree: itself, or what shows below it. -/
def outline (lang : Language) (text : Text) (target : Option Alias) (role : Option String) : Tree → List Node
  | ⟨symbol, children, _, start, stop, production, _, missing, _, _, _, cost, _, _, _, _⟩ =>
    let info := Tree.info lang symbol
    let below := outlineAll lang text production 0 children.toList
    match target with
    | some a => [.mk a.name a.named missing (cost > 0) (text.byteAt start) (text.byteAt stop) role below]
    | none =>
      if info.visible then
        [.mk info.name info.named missing (cost > 0) (text.byteAt start) (text.byteAt stop) role below]
      else markFirst role below

def outlineAll (lang : Language) (text : Text) (production : Option Nat) (i : Nat) : List Tree → List Node
  | [] => []
  | t :: rest =>
    if t.extra then outline lang text none none t ++ outlineAll lang text production i rest
    else
      let step := production.bind fun p => (lang.productions.getD p default).steps[i]?
      let target := if t.symbol == 0 then none else step.bind (·.display)
      outline lang text target (step.bind (·.field)) t ++ outlineAll lang text production (i + 1) rest

end

/-- The tree that shows for a whole text; an empty document where nothing could be read. -/
def rootNode (lang : Language) (text : Text) (tree : Option Tree) : Node :=
  match tree with
  | none => .mk "ERROR" true false true 0 0 none []
  | some t => (outline lang text none none t).headD (.mk "ERROR" true false true 0 0 none [])

end Remedy.Parse
