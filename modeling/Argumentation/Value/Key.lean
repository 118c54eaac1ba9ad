import Argumentation.Value

/-!
# Values as keys

When two values are the same key. Numbers are the same key if they are equal as numbers, whatever
their kind, and the truth values count as one and zero; moments with a known distance from universal
time are the same key if they are the same instant.
-/

namespace Argumentation

namespace Atom

/-- The whole number that an atom is as a key. -/
def wholeKey? : Atom → Option Int
  | .bool b => some (if b then 1 else 0)
  | .int i => some i
  | .float x => Decimal.whole? x
  | _ => none

/-- Whether the atom is the double for no number. -/
def isNaN : Atom → Bool
  | .float x => Decimal.isNaN x
  | _ => false

/-- Whether two moments are the same key. -/
def sameMoment (a b : Moment) : Bool :=
  a.offset.isSome == b.offset.isSome && a.instant == b.instant

/-- Whether two atoms are the same key. -/
def sameKey : Atom → Atom → Bool
  | .null, .null => true
  | .text a, .text b => a == b
  | .bytes a, .bytes b => a == b
  | .date a, .date b => a == b
  | .moment a, .moment b => sameMoment a b
  | .float x, .float y => x == y || (Decimal.isNaN x && Decimal.isNaN y)
  | a, b =>
    match a.wholeKey?, b.wholeKey? with
    | some m, some n => m == n
    | _, _ => false

end Atom

namespace Value

/-- The whole number that a value is as a key. -/
def wholeKey? : Value → Option Int
  | .atom a => a.wholeKey?
  | _ => none

mutual

/-- Whether two values are the same key. -/
def sameKey : Value → Value → Bool
  | .atom a, .atom b => a.sameKey b
  | .tuple as, .tuple bs => sameKeys as bs
  | _, _ => false

/-- Whether two sequences hold the same keys, one by one. -/
def sameKeys : List Value → List Value → Bool
  | [], [] => true
  | a :: as, b :: bs => sameKey a b && sameKeys as bs
  | _, _ => false

end

/-- Values are told apart as keys. -/
instance : BEq Value := ⟨sameKey⟩

/-- The value at a key. -/
def lookup? (key : Value) (entries : List (Value × Value)) : Option Value :=
  (entries.find? fun e => sameKey e.1 key).map (·.2)

/-- The value that a mapping has at a text. -/
def field? (name : String) (v : Value) : Option Value :=
  v.entries?.bind (lookup? (.text name))

end Value

end Argumentation
