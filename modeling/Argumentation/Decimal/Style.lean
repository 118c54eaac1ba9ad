import Argumentation.Decimal.Shortest

/-!
# Styles of decimals

How a double is written: the shortest digits that read back, positional where the decimal exponent
is small and with an exponent elsewhere. What distinguishes one notation from another is a record
of choices.
-/

namespace Argumentation.Decimal

/-- The choices of a notation for doubles. -/
structure Style where
  /-- The least decimal exponent that is written positionally. -/
  leastPositional : Int
  /-- The first decimal exponent above that is not written positionally any more. -/
  firstScientific : Int
  /-- The fewest digits of a written exponent. -/
  exponentDigits : Nat
  infinity : String
  notANumber : String

/-- Positional from `0.0001` up to sixteen digits, a fraction always shown, and exponents of at
least two digits. -/
def plain : Style := ⟨-4, 16, 2, "inf", "nan"⟩

/-- Positional over the same range, with the names that data files use for the special values. -/
def interchange : Style := ⟨-4, 16, 2, "Infinity", "NaN"⟩

/-- The digits of `n` in base ten, the highest first. -/
def digitsOf (n : Nat) : List Char := (Nat.toDigits 10 n)

/-- The digits with zeros in front, up to the given width. -/
def padded (width : Nat) (n : Nat) : List Char :=
  let ds := digitsOf n
  List.replicate (width - ds.length) '0' ++ ds

/-- A positive decimal, written in the given notation. -/
def Style.positive (style : Style) (d : Scaled) : List Char :=
  let ds := digitsOf d.digits
  let lead : Int := d.exponent + ds.length - 1
  if style.leastPositional ≤ lead && lead < style.firstScientific then
    if 0 ≤ d.exponent then ds ++ List.replicate d.exponent.toNat '0' ++ ['.', '0']
    else if 0 ≤ lead then
      let whole := lead.toNat + 1
      ds.take whole ++ '.' :: ds.drop whole
    else '0' :: '.' :: (List.replicate (-lead - 1).toNat '0' ++ ds)
  else
    let mark := if lead < 0 then ['e', '-'] else ['e', '+']
    let fraction := if ds.length = 1 then [] else '.' :: ds.drop 1
    ds.take 1 ++ fraction ++ mark ++ padded style.exponentDigits lead.natAbs

/-- The double with the given bits, written in the given notation. -/
def Style.write (style : Style) (x : Float) : String :=
  let bits := x.toBits.toNat
  let sign := if bits < signUnit then [] else ['-']
  let size := bits % signUnit
  if size = infinityBits then String.ofList (sign ++ style.infinity.toList)
  else if infinityBits < size then style.notANumber
  else match Binary.ofBits size with
    | none => String.ofList (sign ++ "0.0".toList)
    | some b => String.ofList (sign ++ style.positive b.shortest)

end Argumentation.Decimal
