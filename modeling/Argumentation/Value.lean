import Argumentation.Calendar
import Argumentation.Decimal.Whole

/-!
# Values

The values that a document, a request or a caller can hand over as an argument, a tag or an attack:
atoms, and collections of values. The collections of a document can occur at several places and even
inside themselves. Such a collection is known by the node of the document at which it stands;
`Value.opened` lays it open by one layer, so that code that looks at a collection sees its members.
-/

namespace Argumentation

/-- A value without members. -/
inductive Atom where
  | null
  | bool (b : Bool)
  | int (i : Int)
  | float (x : Float)
  | text (s : String)
  | bytes (bs : List UInt8)
  | date (d : Date)
  | moment (m : Moment)
  deriving Inhabited

/-- What stands at a node of a document: an atom, or a collection of what stands at other nodes. -/
inductive Cell where
  | atom (a : Atom)
  | list (items : List Nat)
  | tuple (items : List Nat)
  | set (members : List Nat)
  /-- Keys with their values. No two keys are the same. -/
  | mapping (entries : List (Nat × Nat))
  deriving Inhabited

/-- A value of a document, a request or a caller. -/
inductive Value where
  | atom (a : Atom)
  | list (items : List Value)
  /-- A sequence of fixed length, such as one entry of an ordered mapping. -/
  | tuple (items : List Value)
  | set (items : List Value)
  /-- Keys with their values, in the order in which the keys were first written. -/
  | mapping (entries : List (Value × Value))
  /-- The collection at a node of a document, which has the given cells. -/
  | node (cells : Array Cell) (n : Nat)
  deriving Inhabited

namespace Value

/-! ### Atoms -/

/-- Nothing. -/
@[match_pattern] abbrev null : Value := .atom .null

/-- A truth value. -/
@[match_pattern] abbrev bool (b : Bool) : Value := .atom (.bool b)

/-- A whole number. -/
@[match_pattern] abbrev int (i : Int) : Value := .atom (.int i)

/-- A double. -/
@[match_pattern] abbrev float (x : Float) : Value := .atom (.float x)

/-- A text. -/
@[match_pattern] abbrev text (s : String) : Value := .atom (.text s)

/-- A run of bytes. -/
@[match_pattern] abbrev bytes (bs : List UInt8) : Value := .atom (.bytes bs)

/-- A date. -/
@[match_pattern] abbrev date (d : Date) : Value := .atom (.date d)

/-- A moment. -/
@[match_pattern] abbrev moment (m : Moment) : Value := .atom (.moment m)

/-! ### Collections -/

/-- The value at a node. -/
def ofNode (cells : Array Cell) (n : Nat) : Value :=
  match cells[n]? with
  | none => .null
  | some (.atom a) => .atom a
  | some _ => .node cells n

/-- The value at a node with its members in place. -/
def ofCell (cells : Array Cell) : Cell → Value
  | .atom a => .atom a
  | .list items => .list (items.map (ofNode cells))
  | .tuple items => .tuple (items.map (ofNode cells))
  | .set members => .set (members.map (ofNode cells))
  | .mapping entries => .mapping (entries.map fun e => (ofNode cells e.1, ofNode cells e.2))

/-- The value as seen from outside, where collections have their members. -/
def opened : Value → Value
  | .node cells n => ((cells[n]?).map (ofCell cells)).getD .null
  | v => v

/-- Whether the value counts as true: not null, not false, not zero and not empty. -/
def truthy (v : Value) : Bool :=
  match v.opened with
  | .null => false
  | .bool b => b
  | .int i => i ≠ 0
  | .float x => x != 0.0
  | .text s => !s.isEmpty
  | .bytes bs => !bs.isEmpty
  | .list items | .tuple items | .set items => !items.isEmpty
  | .mapping entries => !entries.isEmpty
  | _ => true

/-- The text that the value is. -/
def text? : Value → Option String
  | .text s => some s
  | _ => none

/-- The members of a list or a tuple. -/
def sequence? (v : Value) : Option (List Value) :=
  match v.opened with
  | .list items | .tuple items => some items
  | _ => none

/-- The keys and values of a mapping. -/
def entries? (v : Value) : Option (List (Value × Value)) :=
  match v.opened with
  | .mapping entries => some entries
  | _ => none

/-- The characters of a text as texts of their own. -/
def characters (s : String) : List Value := s.toList.map fun c => .text (String.singleton c)

/-- What a caller that walks through the value meets: the members of a sequence or a set, the keys
of a mapping, the characters of a text, and nothing in another atom. -/
def members (v : Value) : List Value :=
  match v.opened with
  | .list items | .tuple items | .set items => items
  | .mapping entries => entries.map (·.1)
  | .text s => characters s
  | _ => []

end Value

end Argumentation
