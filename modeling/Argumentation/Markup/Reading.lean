import Argumentation.Markup.Meaning
import Argumentation.Markup.Token.Lexer
import Argumentation.Markup.Token.Names

/-!
# Reading documents

The value that a document holds: what its root means, with the cells of all nodes that can be reached
from there.
-/

namespace Argumentation.Markup

/-- The cells of the nodes. Nodes that cannot be reached hold nothing. -/
def cellsOf (ms : Meanings) : Array Cell := ms.map fun m => m.getD (.atom .null)

/-- The value that a document holds. A text without a document holds nothing. -/
def read (cs : List Char) : Except Fault Value := do
  match ← Tree.ofTokens (checkNames [] (tokens cs)) with
  | none => return .null
  | some tree =>
    let (g, root) ← Graph.ofTree tree
    return .ofNode (cellsOf (← meanings g root)) root

end Argumentation.Markup
