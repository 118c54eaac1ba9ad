import Argumentation.Decimal.Reading
import Argumentation.Value.Literal

/-!
# Values that can be written

A whole number is written as text only up to a number of digits, and a collection only if its members
do not lie too deep inside each other. A value that holds a longer number, or a deeper collection,
has neither a literal nor a name. `Value.obstacle?` finds what keeps a value from being written, and
of several obstacles the one that is met first when the value is written from left to right;
`Value.written` gives the name of a value that has none.
-/

namespace Argumentation

/-- Why a value cannot be written. -/
inductive Obstacle where
  /-- A whole number has too many digits. -/
  | digits
  /-- Collections lie too deep inside each other. -/
  | nesting
  deriving DecidableEq, Repr

/-- The words for the obstacle. -/
def Obstacle.message : Obstacle → String
  | .digits =>
    "Exceeds the limit (" ++ toString Decimal.digitLimit ++
      " digits) for integer string conversion; " ++
      "use sys.set_int_max_str_digits() to increase the limit"
  | .nesting => "maximum recursion depth exceeded while getting the repr of an object"

/-- The least size of a whole number that has too many digits to be written. -/
def writableBound : Nat := Nat.pow 10 Decimal.digitLimit

/-- Whether the whole number can be written. -/
def isWritableInt (i : Int) : Bool := i.natAbs < writableBound

/-- What keeps the atom from being written. -/
def Atom.obstacle? : Atom → Option Obstacle
  | .int i => if isWritableInt i then none else some .digits
  | _ => none

namespace Value

/-- The most collections that may lie inside each other where they are written. What has been called
before takes its share of the same room, so this is the number for callers of the usual depth. -/
def writableDepth : Nat := 980

/-- What keeps the collection at a node from being written, if it may be `room` deep. A collection is
not looked into again inside itself. -/
def nodeObstacle? (cells : Array Cell) : (room : Nat) → (path : List Nat) → Nat → Option Obstacle
  | 0, _, _ => some .nesting
  | room + 1, path, n =>
    let inner := nodeObstacle? cells room (n :: path)
    if path.contains n then none
    else match cells[n]? with
      | none => none
      | some (.atom a) => a.obstacle?
      | some (.list items) | some (.tuple items) | some (.set items) => items.findSome? inner
      | some (.mapping entries) => entries.findSome? fun e => (inner e.1).or (inner e.2)

mutual

/-- What keeps the value from being written, if it may be `room` deep. -/
def obstacleWithin? (room : Nat) : Value → Option Obstacle
  | .atom a => a.obstacle?
  | .list items | .tuple items | .set items =>
    match room with
    | 0 => some .nesting
    | room + 1 => membersObstacle? room items
  | .mapping entries =>
    match room with
    | 0 => some .nesting
    | room + 1 => entriesObstacle? room entries
  | .node cells n => nodeObstacle? cells room [] n

/-- What keeps the members of a sequence from being written. -/
def membersObstacle? (room : Nat) : List Value → Option Obstacle
  | [] => none
  | v :: vs => (obstacleWithin? room v).or (membersObstacle? room vs)

/-- What keeps the keys and values of a mapping from being written. -/
def entriesObstacle? (room : Nat) : List (Value × Value) → Option Obstacle
  | [] => none
  | (k, v) :: es =>
    ((obstacleWithin? room k).or (obstacleWithin? room v)).or (entriesObstacle? room es)

end

/-- What keeps the value from being written. -/
def obstacle? (v : Value) : Option Obstacle := v.obstacleWithin? writableDepth

/-- The name that the value stands for, if it can be written. -/
def written (v : Value) : Except Obstacle String :=
  match v.obstacle? with
  | none => .ok v.name
  | some obstacle => .error obstacle

theorem written_eq_ok_iff {v : Value} {name : String} :
    v.written = .ok name ↔ v.obstacle? = none ∧ v.name = name := by
  rw [written]
  split <;> simp [*]

theorem written_eq_error_iff {v : Value} {obstacle : Obstacle} :
    v.written = .error obstacle ↔ v.obstacle? = some obstacle := by
  rw [written]
  split <;> simp [*]

/-- Texts are written as they are. -/
@[simp] theorem written_text (s : String) : (Value.text s).written = .ok s := rfl

end Value

end Argumentation
