import Argumentation.Decimal.Shortest

/-!
# Whole doubles

Which doubles are whole numbers, and which ones. Everything is read off the bits, so that the answer
is exact for numbers of every size.
-/

namespace Argumentation.Decimal

/-- Whether the double is neither infinite nor the special value for no number. -/
def isFinite (x : Float) : Bool := x.toBits.toNat % signUnit < infinityBits

/-- Whether the double is the special value for no number. -/
def isNaN (x : Float) : Bool := infinityBits < x.toBits.toNat % signUnit

/-- The whole number that the finite binary number `b` is, if it is one. -/
def Binary.whole? (b : Binary) : Option Nat :=
  let step := Nat.pow 2 (-b.exponent).toNat
  if b.significand % step = 0 then some (b.significand / step * Nat.pow 2 b.exponent.toNat) else none

/-- The whole number that the double is, if it is one. -/
def whole? (x : Float) : Option Int :=
  let bits := x.toBits.toNat
  if !isFinite x then none
  else match Binary.ofBits (bits % signUnit) with
    | none => some 0
    | some b => b.whole?.map fun n => if bits < signUnit then (n : Int) else -n

end Argumentation.Decimal
