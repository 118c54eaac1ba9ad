import Argumentation.Decimal.Style

/-!
# Reading of decimals

The value of a run of digits, and the double nearest to a decimal number.
-/

namespace Argumentation.Decimal

/-- Whether the character is one of the ten ASCII digits. -/
def isDigit (c : Char) : Bool := '0' ≤ c && c ≤ '9'

/-- The value of a digit in a base of up to thirty-six, letters of both cases counting from ten. -/
def digitValue (c : Char) : Nat :=
  let n := c.toNat
  if n < 0x3a then n - 0x30 else if n < 0x5b then n - 0x37 else n - 0x57

/-- The number that the digits write in the given base. -/
def ofDigits (base : Nat) (ds : List Char) : Nat :=
  ds.foldl (fun n c => n * base + digitValue c) 0

/-- The most digits with which a whole number may be written. -/
def digitLimit : Nat := 4300

/-- The exponents outside of which every nonzero double of moderate size is infinite or zero. -/
def exponentBound : Nat := 400

/-- The double nearest to `digits · 10 ^ exponent`, where `digits` has `size` digits. Exponents far
outside the range of doubles are answered at once. -/
def nearestDouble (digits : Nat) (size : Nat) (exponent : Int) : Float :=
  let lead := exponent + size
  if digits = 0 then 0.0
  else if (exponentBound : Int) < lead then 1.0 / 0.0
  else if lead < -(exponentBound : Int) then 0.0
  else Float.ofScientific digits (decide (exponent < 0)) exponent.natAbs

/-- A decimal as it is written: sign, digits before and after the point, and exponent. -/
structure Written where
  negative : Bool
  whole : List Char
  fraction : List Char
  exponent : Int

/-- The double nearest to a written decimal. -/
def Written.toFloat (w : Written) : Float :=
  let ds := (w.whole ++ w.fraction).dropWhile (· == '0')
  let size := nearestDouble (ofDigits 10 ds) ds.length (w.exponent - w.fraction.length)
  if w.negative then -size else size

/-- The value of an exponent as it is written. Digits beyond the eighth cannot matter: the number is
infinite or zero without them. -/
def exponentOf (negative : Bool) (ds : List Char) : Int :=
  let ds := ds.dropWhile (· == '0')
  let n : Int := if 8 < ds.length then 100000000 else ofDigits 10 ds
  if negative then -n else n

end Argumentation.Decimal
