/-!
# Shortest decimals

The shortest decimal that reads back as a given binary number. Every real between the two halfway
points around the number reads back as it (the halfway points too if the significand is even,
because a tie goes to the even neighbour). Among the decimals in that interval the ones on the
coarsest decimal grid have the fewest digits, and of those the nearest is taken.
-/

namespace Argumentation.Decimal

/-- A positive binary number, `significand · 2 ^ exponent`. -/
structure Binary where
  significand : Nat
  exponent : Int
  /-- Whether the next smaller number is only half as far away as the next larger one. -/
  closeBelow : Bool
  deriving DecidableEq, Repr

/-- A decimal number, `digits · 10 ^ exponent`. -/
structure Scaled where
  digits : Nat
  exponent : Int
  deriving DecidableEq, Repr

/-- The place value of the lowest bit of the exponent of a double: its fraction has 52 bits. -/
def exponentUnit : Nat := 1 <<< 52

/-- The place value of the sign of a double, which is its highest bit. -/
def signUnit : Nat := 1 <<< 63

/-- The bits of the infinite double: all bits of the exponent are set. -/
def infinityBits : Nat := 2047 * exponentUnit

/-- The size of a finite double, or nothing for zero: sign and special values are left out. -/
def Binary.ofBits (bits : Nat) : Option Binary :=
  let fraction := bits % exponentUnit
  let biased := bits / exponentUnit % 2048
  if biased = 0 then
    if fraction = 0 then none else some ⟨fraction, -1074, false⟩
  else some ⟨exponentUnit + fraction, (biased : Int) - 1075, fraction = 0 && 1 < biased⟩

/-- The interval of reals that read back as a number, on the grid of `10 ^ place`: the number is
`value / unit` grid steps, and the ends of the interval are `low / unit` and `high / unit`. -/
structure Window where
  low : Nat
  value : Nat
  high : Nat
  unit : Nat
  /-- Whether the ends belong to the interval. -/
  closed : Bool

/-- The interval around `b` on the grid of `10 ^ place`, in quarters of the last binary place. -/
def Binary.window (b : Binary) (place : Int) : Window :=
  let scale := Nat.pow 2 (b.exponent - 2).toNat * Nat.pow 10 (-place).toNat
  { low := (4 * b.significand - if b.closeBelow then 1 else 2) * scale
    value := 4 * b.significand * scale
    high := (4 * b.significand + 2) * scale
    unit := Nat.pow 2 (2 - b.exponent).toNat * Nat.pow 10 place.toNat
    closed := b.significand % 2 = 0 }

/-- Whether the grid point `n` lies in the interval. -/
def Window.holds (w : Window) (n : Nat) : Bool :=
  let point := n * w.unit
  if w.closed then w.low ≤ point && point ≤ w.high else w.low < point && point < w.high

/-- The grid point in the interval that is nearest to the value, an even one on a tie. Only the
two neighbours of the value can be it. -/
def Window.nearest? (w : Window) : Option Nat :=
  let below := w.value / w.unit
  let above := below + 1
  match 0 < below && w.holds below, w.holds above with
  | false, false => none
  | true, false => some below
  | false, true => some above
  | true, true =>
    let down := w.value - below * w.unit
    let up := above * w.unit - w.value
    if down < up || (down = up && below % 2 = 0) then some below else some above

/-- The first grid with a point in the interval, from `10 ^ place` downward. -/
def Binary.search (b : Binary) : (fuel : Nat) → (place : Int) → Scaled
  | 0, place => ⟨(b.window place).value / (b.window place).unit, place⟩
  | fuel + 1, place =>
    match (b.window place).nearest? with
    | some n => ⟨n, place⟩
    | none => b.search fuel (place - 1)

/-- The shortest decimal that reads back as `b`. The search starts above the leading digit, and
seventeen digits always suffice. -/
def Binary.shortest (b : Binary) : Scaled :=
  let places := ((b.significand.log2 : Int) + b.exponent + 1) * 30103 / 100000 + 1
  b.search 24 places

end Argumentation.Decimal
