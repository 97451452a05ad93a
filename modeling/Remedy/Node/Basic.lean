/-!
Syntax trees as the rest of the library sees them: nodes with a kind, a byte range and children in document order.
-/

namespace Remedy

/-- A node of a syntax tree. `field` is the role that the parent gives it, if any. -/
inductive Node where
  | mk (kind : String) (named missing hasError : Bool) (start stop : Nat) (field : Option String)
      (children : List Node)
  deriving Inhabited, Repr

namespace Node

def kind : Node → String
  | mk k _ _ _ _ _ _ _ => k

def isNamed : Node → Bool
  | mk _ n _ _ _ _ _ _ => n

/-- Whether the parser made the node up to go on past an error. -/
def isMissing : Node → Bool
  | mk _ _ m _ _ _ _ _ => m

/-- Whether the parser failed somewhere inside the node. -/
def hasError : Node → Bool
  | mk _ _ _ e _ _ _ _ => e

/-- The byte offset at which the node begins. -/
def start : Node → Nat
  | mk _ _ _ _ s _ _ _ => s

/-- The byte offset just past the node. -/
def stop : Node → Nat
  | mk _ _ _ _ _ t _ _ => t

def field : Node → Option String
  | mk _ _ _ _ _ _ f _ => f

def children : Node → List Node
  | mk _ _ _ _ _ _ _ cs => cs

def namedChildren (n : Node) : List Node := n.children.filter isNamed

/-- The first child of one of the kinds. -/
def child? (n : Node) (kinds : List String) : Option Node := n.children.find? fun c => kinds.contains c.kind

/-- The children of one kind, in order. -/
def childrenOf (n : Node) (kind : String) : List Node := n.children.filter (·.kind == kind)

/-- The child in a given role. -/
def childInRole? (n : Node) (role : String) : Option Node := n.children.find? fun c => c.field == some role

mutual

/-- The node and everything below it: parents before children, earlier siblings first. -/
def preorder : Node → List Node
  | mk k n m e s t f cs => mk k n m e s t f cs :: preorderAll cs

def preorderAll : List Node → List Node
  | [] => []
  | c :: cs => c.preorder ++ preorderAll cs

end

/-- The nodes of one of the kinds, in document order. -/
def select (n : Node) (kinds : List String) : List Node := n.preorder.filter fun m => kinds.contains m.kind

mutual

/-- The number of nodes in the tree. -/
def count : Node → Nat
  | mk _ _ _ _ _ _ _ cs => 1 + countAll cs

def countAll : List Node → Nat
  | [] => 0
  | c :: cs => c.count + countAll cs

end

end Node

end Remedy
