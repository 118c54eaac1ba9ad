import Argumentation.Value.Key

/-!
# The order of a set

A set lists its members not as they were written but by their places in a table, which has room for
more than twice as many. Each member asks for the place that its remainder gives. If it is taken, the
member goes to one of the places right behind it, and if they are taken too, it goes on from a place
that depends on all digits of the remainder. Numbers have remainders, and equal numbers have the same
one. Nothing is known of those of other members, and a set that has such a member is listed as it was
written.
-/

namespace Argumentation.SetOrder

/-- What remainders are taken by, a prime number one below a power of two. -/
def modulus : Nat := 0x1fffffffffffffff

/-- The exponent of that power of two, whose remainder is one. -/
def period : Int := 61

/-- The remainder of an infinite double. -/
def infiniteRemainder : Nat := 314159

/-- The remainder of a number of the given size. Minus one is set aside for what has none. -/
def withSign (negative : Bool) (r : Nat) : Int :=
  if !negative then r else if r = 1 then -2 else -r

/-- The remainder of a binary number. -/
def ofBinary (b : Decimal.Binary) : Nat :=
  b.significand * Nat.pow 2 (b.exponent % period).toNat % modulus

/-- The remainder of a double, unless it is no number. -/
def ofDouble? (x : Float) : Option Int :=
  let bits := x.toBits.toNat
  let negative := Decimal.signUnit ≤ bits
  if Decimal.isNaN x then none
  else if !Decimal.isFinite x then some (withSign negative infiniteRemainder)
  else
    let number := Decimal.Binary.ofBits (bits % Decimal.signUnit)
    some (withSign negative ((number.map ofBinary).getD 0))

/-- The remainder of an atom, if it has one. -/
def remainder? (a : Atom) : Option Int :=
  match a with
  | .float x => ofDouble? x
  | a => a.wholeKey?.map fun i => withSign (i < 0) (i.natAbs % modulus)

/-- The number of places for so many members. -/
def room (count : Nat) : Nat := if count < 5 then 8 else Nat.pow 2 (Nat.log2 (2 * count) + 1)

/-- The number of words, as which negative remainders count from the end. -/
def wordSize : Int := 0x10000000000000000

/-- The number of digits of a word. -/
def wordDigits : Nat := 13

/-- The value of a digit. -/
def digitBase : Nat := 32

/-- The places right behind a taken one that are tried. Near the end of the table there are none. -/
def reach : Nat := 9

/-- The free place for a member that asks for the place `i`. The digits of the remainder are used up
one by one, and without them all places are visited in turn, so fuel for the digits and the places is
enough. -/
def freePlace (taken : Nat → Bool) (size : Nat) : (fuel : Nat) → (i digits : Nat) → Nat
  | 0, i, _ => i
  | fuel + 1, i, digits =>
    let tried := if i + reach < size then reach + 1 else 1
    match (List.range' i tried).find? fun j => !taken j with
    | some j => j
    | none =>
      let digits := digits / digitBase
      freePlace taken size fuel ((i * 5 + 1 + digits) % size) digits

/-- The table with another member, whose remainder is `r`. -/
def insert {α : Type} (table : Array (Option α)) (r : Int) (a : α) : Array (Option α) :=
  let taken (j : Nat) : Bool := ((table[j]?).join).isSome
  let digits := (r % wordSize).toNat
  let i := freePlace taken table.size (table.size + wordDigits) (digits % table.size) digits
  table.setIfInBounds i (some a)

/-- The members with their remainders, in the order of their places. -/
def byPlace {α : Type} (members : List (Int × α)) : List α :=
  let table := Array.replicate (room members.length) none
  (members.foldl (fun table e => insert table e.1 e.2) table).toList.filterMap id

/-- The members in the order in which the set lists them. -/
def order {α : Type} (atom? : α → Option Atom) (members : List α) : List α :=
  match members.mapM fun a => ((atom? a).bind remainder?).map fun r => (r, a) with
  | some members => byPlace members
  | none => members

end Argumentation.SetOrder
