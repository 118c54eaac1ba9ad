import Argumentation.Markup.Graph
import Argumentation.Markup.Scalar
import Argumentation.Value.SetOrder

/-!
# What the nodes of a document mean

Every node means an atom or a collection of other nodes. The nodes are worked through level by level,
from the root down: a scalar is converted as soon as it is met, while the members of a collection
wait until the collections before it are done. So of several faults the one nearest to the root
counts.

Before a mapping is worked through, the mappings that its merge keys name are put in front of its
own entries, those of a list of mappings with the last one first; an entry that comes later
overrides one that comes earlier.
-/

namespace Argumentation.Markup

/-- The cells of the nodes that have been worked through. -/
abbrev Meanings := Array (Option Cell)

namespace Graph

/-- The most keys that are followed one behind the other, from a mapping to the one that its merge key
or its value key names. -/
def chainLimit : Nat := 970

/-! ### Merging -/

/-- The number of entries of all mappings, and one more. -/
def entryBound (g : Graph) : Nat :=
  g.foldl
    (fun bound node =>
      match node.content with
      | .mapping entries => bound + entries.length
      | _ => bound)
    1

/-- The entries that a merge key with the value `n` stands for, given what merging a mapping by its
number yields. -/
def mergedEntries (merge : Graph → Nat → Except Fault Graph) (g : Graph) (n : Nat) :
    Except Fault (List (Nat × Nat) × Graph) := do
  let entriesOf (g : Graph) (m : Nat) : Except Fault (List (Nat × Nat) × Graph) := do
    let g ← merge g m
    match (g.node m).content with
    | .mapping entries => return (entries, g)
    | _ => throw .malformed
  match (g.node n).content with
  | .mapping _ => entriesOf g n
  | .sequence items =>
    items.foldlM
      (fun (found, g) m => do
        let (entries, g) ← entriesOf g m
        return (entries ++ found, g))
      ([], g)
  | .scalar _ => throw .malformed

/-- Takes the merge keys of a mapping out one by one, and puts the entries that they stand for, which
follow those that have been `found`, in front of all others. A merge key is taken out before the
mapping that it names is merged in turn, and that may be the same mapping again: the merge keys that
are left are then taken out there. Mappings may be merged `room` deep inside each other, and the fuel
exceeds the number of merge keys. -/
def merge (room : Nat) :
    (fuel : Nat) → (found : List (Nat × Nat)) → Graph → Nat → Except Fault Graph
  | 0, _, _, _ => .error .nesting
  | fuel + 1, found, g, n =>
    match (g.node n).content with
    | .mapping entries =>
      match entries.span fun e => (g.node e.1).kind ≠ .merge with
      | (own, []) => .ok (if found.isEmpty then g else g.setContent n (.mapping (found ++ own)))
      | (own, e :: rest) => do
        let inner (g : Graph) (m : Nat) : Except Fault Graph := do
          merge (← Tree.enter room) fuel [] g m
        let (more, g) ← mergedEntries inner (g.setContent n (.mapping (own ++ rest))) e.2
        merge room fuel (found ++ more) g n
    | _ => .error .malformed

/-- The graph in which the value keys of a mapping are texts. -/
def nameValueKeys (g : Graph) (entries : List (Nat × Nat)) : Graph :=
  entries.foldl (fun g e => if (g.node e.1).kind = .value then g.setKind e.1 .str else g) g

/-! ### Scalars -/

/-- The text of a scalar. A mapping with a value key stands for the scalar at that key, and value keys
are followed `room` times. -/
def scalarText (g : Graph) : (room : Nat) → Nat → Except Fault String
  | 0, _ => .error .nesting
  | room + 1, n =>
    match (g.node n).content with
    | .scalar text => .ok text
    | .mapping entries =>
      match entries.find? fun e => (g.node e.1).kind = .value with
      | some e => scalarText g room e.2
      | none => .error .malformed
    | .sequence _ => .error .malformed

end Graph

/-! ### Level by level -/

/-- The work under way: the nodes, what those that have been met mean, and the collections whose
members have not been met, the last one first. -/
structure Work where
  graph : Graph
  /-- A number that exceeds that of the merge keys. -/
  mergeBound : Nat
  /-- The cells of the nodes, and behind them those of collections that have no node. -/
  meanings : Meanings
  waiting : List Nat

namespace Work

/-- What a node means, if it has been met. -/
def meaning? (w : Work) (n : Nat) : Option Cell := (w.meanings[n]?).join

/-- The atom that a node means. -/
def atom? (w : Work) (n : Nat) : Option Atom :=
  match w.meaning? n with
  | some (.atom a) => some a
  | _ => none

/-- Notes what a node means. -/
def note (w : Work) (n : Nat) (m : Cell) : Work :=
  { w with meanings := w.meanings.setIfInBounds n (some m) }

/-- The text of a scalar. -/
def text (w : Work) (n : Nat) : Except Fault String := w.graph.scalarText Graph.chainLimit n

/-- Meets a node: converts a scalar, or puts a collection on the list of those that wait. -/
def meet (w : Work) (n : Nat) : Except Fault Work :=
  if (w.meaning? n).isSome then .ok w
  else
    let wait (m : Cell) : Except Fault Work :=
      .ok { w.note n m with waiting := n :: w.waiting }
    match (w.graph.node n).kind with
    | .seq => wait (.list [])
    | .map => wait (.mapping [])
    | .set => wait (.set [])
    | .pairs => wait (.list [])
    | kind => do
      return w.note n (.atom (← Scalar.atom kind (← w.text n)))

/-- Whether a node stands for no number by the word for it. -/
def isNoNumber (w : Work) (n : Nat) : Bool :=
  match w.text n with
  | .ok text => Scalar.isNoNumber text
  | .error _ => false

/-- Whether two nodes are the same key. What is no number is the same key only at the same node, or
if it is given by the word for it at both nodes. -/
def sameKey (w : Work) (m n : Nat) : Bool :=
  m = n || match w.atom? m, w.atom? n with
    | some a, some b => a.sameKey b && (!a.isNaN || (w.isNoNumber m && w.isNoNumber n))
    | _, _ => false

/-- The entries with another one: a key keeps its place and takes the last value. -/
def insert (w : Work) (e : Nat × Nat) : List (Nat × Nat) → List (Nat × Nat)
  | [] => [e]
  | f :: fs => if w.sameKey f.1 e.1 then (f.1, e.2) :: fs else f :: insert w e fs

/-- The entries with each key once. -/
def distinctEntries (w : Work) (entries : List (Nat × Nat)) : List (Nat × Nat) :=
  entries.foldl (fun found e => w.insert e found) []

/-- Meets the key and then the value of an entry. -/
def meetEntry (w : Work) (e : Nat × Nat) : Except Fault Work := do
  let w ← w.meet e.1
  if (w.atom? e.1).isNone then throw .malformed
  w.meet e.2

/-- Meets the entries of a mapping, after it has been merged, and gives those that count. -/
def meetMapping (w : Work) (n : Nat) : Except Fault (List (Nat × Nat) × Work) := do
  let g ← w.graph.merge Graph.chainLimit w.mergeBound [] n
  match (g.node n).content with
  | .mapping entries =>
    let w ← entries.foldlM meetEntry { w with graph := g.nameValueKeys entries }
    return (w.distinctEntries entries, w)
  | _ => throw .malformed

/-- Adds a collection that has no node of its own, and gives its number. -/
def add (w : Work) (m : Cell) : Nat × Work :=
  (w.meanings.size, { w with meanings := w.meanings.push (some m) })

/-- Meets the one entry of a mapping that is a member of a list of pairs, and adds the pair. The
pair that was `found` last comes first. -/
def meetPair (found : List Nat × Work) (n : Nat) : Except Fault (List Nat × Work) := do
  let (pairs, w) := found
  match (w.graph.node n).content with
  | .mapping [e] =>
    let w ← w.meet e.1
    let w ← w.meet e.2
    let (pair, w) := w.add (.tuple [e.1, e.2])
    return (pair :: pairs, w)
  | _ => throw .malformed

/-- Meets the members of a collection. -/
def expand (w : Work) (n : Nat) : Except Fault Work := do
  match (w.graph.node n).kind, (w.graph.node n).content with
  | .seq, .sequence items =>
    return (← items.foldlM meet w).note n (.list items)
  | .map, .mapping _ =>
    let (entries, w) ← w.meetMapping n
    return w.note n (.mapping entries)
  | .set, .mapping _ =>
    let (entries, w) ← w.meetMapping n
    return w.note n (.set (SetOrder.order w.atom? (entries.map (·.1))))
  | .pairs, .sequence items =>
    let (pairs, w) ← items.foldlM meetPair ([], w)
    return w.note n (.list pairs.reverse)
  | _, _ => throw .malformed

/-- Works through the levels, each of which waits while the one above it is worked through. There
are not more levels than nodes. -/
def run : (fuel : Nat) → Work → Except Fault Work
  | 0, w => .ok w
  | fuel + 1, w =>
    if w.waiting.isEmpty then .ok w
    else do run fuel (← w.waiting.reverse.foldlM expand { w with waiting := [] })

end Work

/-- What the nodes mean that can be reached from the root. -/
def meanings (g : Graph) (root : Nat) : Except Fault Meanings := do
  let w ← Work.meet ⟨g, g.entryBound, Array.replicate g.size none, []⟩ root
  return (← w.run (g.size + 1)).meanings

end Argumentation.Markup
