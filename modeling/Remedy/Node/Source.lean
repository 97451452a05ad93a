import Remedy.Node.Basic
import Remedy.Text.Position

/-!
Nodes in the text that their tree was made of.
-/

namespace Remedy.Node

/-- The text that a node covers. -/
def textIn (source : Text.Bytes) (n : Node) : String :=
  String.ofList (Text.decodeLossy (Text.sliceBytes source n.start n.stop))

/-- Where a node begins. -/
def position (source : Text.Bytes) (n : Node) : Position := Position.ofOffset source n.start

end Remedy.Node
