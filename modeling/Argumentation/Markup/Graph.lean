import Argumentation.Markup.Kind

/-!
# Nodes of a document

A document as a graph. Where the tree has the name of a node, the graph has the node itself, so a
node can occur at several places and even inside itself. Nodes are known by their numbers.
-/

namespace Argumentation.Markup

/-- What a node consists of. -/
inductive Content where
  | scalar (text : String)
  | sequence (items : List Nat)
  | mapping (entries : List (Nat × Nat))
  deriving DecidableEq, Repr

/-- A node of a document. -/
structure Node where
  kind : Kind
  content : Content
  deriving DecidableEq, Repr

/-- The nodes of a document by their numbers. -/
abbrev Graph := Array Node

namespace Graph

/-- The node with a number. -/
def node (g : Graph) (n : Nat) : Node := (g[n]?).getD ⟨.other, .scalar ""⟩

/-- The graph with another content at a node. -/
def setContent (g : Graph) (n : Nat) (content : Content) : Graph :=
  g.setIfInBounds n { g.node n with content }

/-- The graph with another kind at a node. -/
def setKind (g : Graph) (n : Nat) (kind : Kind) : Graph :=
  g.setIfInBounds n { g.node n with kind }

/-- The nodes so far, and those of them that have a name. -/
structure Draft where
  graph : Graph
  names : List (String × Nat)

namespace Draft

/-- Adds a node. -/
def add (d : Draft) (properties : Properties) (node : Node) : Nat × Draft :=
  let n := d.graph.size
  let names := match properties.anchor with
    | none => d.names
    | some name => (name, n) :: d.names
  (n, ⟨d.graph.push node, names⟩)

/-- Gives a node its content. -/
def fill (d : Draft) (n : Nat) (content : Content) : Draft :=
  { d with graph := d.graph.setContent n content }

end Draft

mutual

/-- Adds the nodes of a tree, and gives the number of its root. A collection is added before its
members, so that they can have it as a member. -/
def addTree (d : Draft) : Tree → Except Fault (Nat × Draft)
  | .aliasOf name =>
    match d.names.lookup name with
    | some n => .ok (n, d)
    | none => .error .malformed
  | .scalar properties plain text =>
    .ok (d.add properties ⟨.ofScalar properties.tag plain text, .scalar text⟩)
  | .sequence properties items => do
    let (n, d) := d.add properties ⟨.ofCollection properties.tag .seq, .sequence []⟩
    let (items, d) ← addItems d items
    return (n, d.fill n (.sequence items))
  | .mapping properties entries => do
    let (n, d) := d.add properties ⟨.ofCollection properties.tag .map, .mapping []⟩
    let (entries, d) ← addEntries d entries
    return (n, d.fill n (.mapping entries))

/-- Adds the nodes of the members of a sequence. -/
def addItems (d : Draft) : List Tree → Except Fault (List Nat × Draft)
  | [] => .ok ([], d)
  | t :: ts => do
    let (n, d) ← addTree d t
    let (ns, d) ← addItems d ts
    return (n :: ns, d)

/-- Adds the nodes of the entries of a mapping. -/
def addEntries (d : Draft) : List (Tree × Tree) → Except Fault (List (Nat × Nat) × Draft)
  | [] => .ok ([], d)
  | (key, value) :: es => do
    let (k, d) ← addTree d key
    let (v, d) ← addTree d value
    let (ns, d) ← addEntries d es
    return ((k, v) :: ns, d)

end

/-- The graph of a tree, and the number of its root. -/
def ofTree (t : Tree) : Except Fault (Graph × Nat) := do
  let (n, d) ← addTree ⟨#[], []⟩ t
  return (d.graph, n)

end Graph

end Argumentation.Markup
