import Argumentation.Canonical
import Argumentation.Value.Key

/-!
# Order of values

The order in which values are given out: texts by code point, numbers and truth values by size.
Values of other kinds keep the order in which they come.
-/

namespace Argumentation.Value

/-- A bound of the doubles that are neither whole nor infinite. -/
def fractionalBound : Int := 0x20000000000000

/-- A double that compares with every double that is not whole as the given number does. -/
def double? : Value → Option Float
  | .float x => some x
  | v => (wholeKey? v).map fun n => Float.ofInt (max (-fractionalBound) (min fractionalBound n))

/-- Whether `a` need not come after `b`. -/
def atMost (a b : Value) : Bool :=
  match a, b with
  | .text s, .text t => decide (s ≤ t)
  | a, b =>
    match wholeKey? a, wholeKey? b with
    | some m, some n => decide (m ≤ n)
    | _, _ =>
      match double? a, double? b with
      | some x, some y => x ≤ y
      | _, _ => true

/-- The values once each, in rising order. -/
def canonical (vs : List Value) : List Value := canonicalBy atMost vs

end Argumentation.Value
