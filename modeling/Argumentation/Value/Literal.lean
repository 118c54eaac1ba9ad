import Argumentation.Text.Quoted
import Argumentation.Decimal.Style
import Argumentation.Value

/-!
# Values as text

A value has two texts. `Value.literal` shows it in a message, with texts quoted and every kind
recognisable. `Value.name` is the name that a value stands for as an argument or a tag: a text is
its own name, dates and moments are written plainly, and everything else is named by its literal.
-/

namespace Argumentation

/-- The literals with a comma between neighbours. -/
def Value.listed (items : List String) : String := ", ".intercalate items

namespace Atom

open Value (listed)

/-- A span of time, as whole days and the seconds of a day. -/
def spanLiteral (seconds : Int) : String :=
  let days := seconds / Moment.daySeconds
  let rest := seconds % Moment.daySeconds
  let parts := (if days = 0 then [] else ["days=" ++ toString days]) ++
    (if rest = 0 then [] else ["seconds=" ++ toString rest])
  "datetime.timedelta(" ++ (if parts.isEmpty then "0" else listed parts) ++ ")"

/-- A date with its kind. -/
def dateLiteral (d : Date) : String :=
  "datetime.date(" ++ listed [toString d.year, toString d.month, toString d.day] ++ ")"

/-- A moment with its kind. Seconds and their fraction are left out at the end where they are
zero. -/
def momentLiteral (m : Moment) : String :=
  let minutes := [m.date.year, m.date.month, m.date.day, m.hour, m.minute]
  let clock :=
    if m.microsecond ≠ 0 then minutes ++ [m.second, m.microsecond]
    else if m.second ≠ 0 then minutes ++ [m.second]
    else minutes
  let zone := match m.offset with
    | none => []
    | some 0 => ["tzinfo=datetime.timezone.utc"]
    | some seconds => ["tzinfo=datetime.timezone(" ++ spanLiteral seconds ++ ")"]
  "datetime.datetime(" ++ listed (clock.map toString ++ zone) ++ ")"

/-- The atom as a message shows it. -/
def literal : Atom → String
  | .null => "None"
  | .bool b => if b then "True" else "False"
  | .int i => toString i
  | .float x => Decimal.plain.write x
  | .text s => Text.quoted s
  | .bytes bs => Text.quotedBytes bs
  | .date d => dateLiteral d
  | .moment m => momentLiteral m

/-- The name that the atom stands for. -/
def name : Atom → String
  | .text s => s
  | .date d => d.text
  | .moment m => m.text
  | a => a.literal

end Atom

namespace Value

/-! ### Brackets -/

/-- The literal of a list. -/
def listLiteral (items : List String) : String := "[" ++ listed items ++ "]"

/-- The literal of a tuple; a comma tells one of a single member from a bracket. -/
def tupleLiteral : List String → String
  | [item] => "(" ++ item ++ ",)"
  | items => "(" ++ listed items ++ ")"

/-- The literal of a set. -/
def setLiteral (items : List String) : String :=
  if items.isEmpty then "set()" else "\x7b" ++ listed items ++ "\x7d"

/-- The literal of a mapping. -/
def mappingLiteral (entries : List (String × String)) : String :=
  "\x7b" ++ listed (entries.map fun e => e.1 ++ ": " ++ e.2) ++ "\x7d"

/-! ### Literals -/

/-- The literal of what stands at a node. A collection is not shown again inside itself: `path` holds
the nodes of the collections around the place. No path has a node twice, so fuel for one node more
than there are is enough. -/
def nodeLiteral (cells : Array Cell) : (fuel : Nat) → (path : List Nat) → Nat → String
  | 0, _, _ => "..."
  | fuel + 1, path, n =>
    let inner := nodeLiteral cells fuel (n :: path)
    let again := path.contains n
    match cells[n]? with
    | none => Atom.literal .null
    | some (.atom a) => a.literal
    | some (.list items) => if again then "[...]" else listLiteral (items.map inner)
    | some (.tuple items) => if again then "(...)" else tupleLiteral (items.map inner)
    | some (.set items) => setLiteral (items.map inner)
    | some (.mapping entries) =>
      if again then "\x7b...\x7d"
      else mappingLiteral (entries.map fun e => (inner e.1, inner e.2))

mutual

/-- The value as a message shows it. -/
def literal : Value → String
  | .atom a => a.literal
  | .list items => listLiteral (literals items)
  | .tuple items => tupleLiteral (literals items)
  | .set items => setLiteral (literals items)
  | .mapping entries => mappingLiteral (entryLiterals entries)
  | .node cells n => nodeLiteral cells (cells.size + 1) [] n

/-- The literals of the members of a sequence. -/
def literals : List Value → List String
  | [] => []
  | v :: vs => literal v :: literals vs

/-- The literals of the keys and values of a mapping. -/
def entryLiterals : List (Value × Value) → List (String × String)
  | [] => []
  | (k, v) :: es => (literal k, literal v) :: entryLiterals es

end

/-- The name that the value stands for. -/
def name : Value → String
  | .atom a => a.name
  | v => v.literal

end Value

end Argumentation
