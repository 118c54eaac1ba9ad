import Argumentation.Decimal.Numeral
import Argumentation.Markup.Kind
import Argumentation.Text.Lower

/-!
# Values of scalars

The value that the text of a scalar denotes, given what the scalar is. A scalar can be taken for a
number or a date by its spelling or its tag and denote none all the same; the fault then names what
could not be converted.
-/

namespace Argumentation.Markup.Scalar

/-! ### Numbers -/

/-- The whole number that a text writes in a base. The number of decimal digits is judged before what
follows them. -/
def whole (base : Nat) (cs : List Char) : Except Fault Int :=
  let count := if base = 10 then Decimal.leadingDigits cs else 0
  if Decimal.digitLimit < count then .error (.digits count)
  else match Decimal.wholeDigits? base cs with
    | none => .error (.whole base (String.ofList cs))
    | some (negative, ds) => .ok (Decimal.signed base negative ds)

/-- The text of a number without underscores. -/
def withoutLines (text : String) : List Char := text.toList.filter (· ≠ '_')

/-- The sign of a number, and what follows it. There has to be something. -/
def splitSign : List Char → Except Fault (Bool × List Char)
  | [] => .error .emptyNumber
  | cs => .ok (Decimal.splitSign cs)

/-- A whole number with the given sign. -/
def signed (negative : Bool) (n : Int) : Int := if negative then -n else n

/-- The whole number that a scalar denotes: in base two, eight, ten or sixteen, or in groups of base
sixty. -/
def int (text : String) : Except Fault Int := do
  let (negative, cs) ← splitSign (withoutLines text)
  let n ← match cs with
    | [] => throw .emptyNumber
    | ['0'] => pure 0
    | '0' :: 'b' :: ds => whole 2 ds
    | '0' :: 'x' :: ds => whole 16 ds
    | '0' :: _ => whole 8 cs
    | cs =>
      if cs.contains ':' then
        let parts ← (Text.splitAt ':' cs).mapM (whole 10)
        pure (parts.foldl (fun n part => n * 60 + part) 0)
      else whole 10 cs
  return signed negative n

/-- The decimal that a text writes. -/
def decimal (cs : List Char) : Except Fault Float :=
  match Decimal.double? cs with
  | some x => .ok x
  | none => .error (.decimal (String.ofList cs))

/-- The double nearest to a power of sixty, where there is one. -/
def sixtyPower (exponent : Nat) : Except Fault Float :=
  let x := Float.ofScientific (Nat.pow 60 exponent) false 0
  if Decimal.isFinite x then .ok x else .error .oversizedUnit

/-- The sum of groups of base sixty, of which the last one comes first here. -/
def sixties : (exponent : Nat) → (sum : Float) → List Float → Except Fault Float
  | _, sum, [] => .ok sum
  | exponent, sum, part :: parts => do
    let unit ← sixtyPower exponent
    sixties (exponent + 1) (sum + part * unit) parts

/-- The decimal that a scalar denotes. -/
def float (text : String) : Except Fault Float := do
  let (negative, cs) ← splitSign (Text.lower (withoutLines text))
  let x ←
    if cs = ".inf".toList then pure (1.0 / 0.0)
    else if cs = ".nan".toList then return 0.0 / 0.0
    else if cs.contains ':' then
      sixties 0 0.0 (← (Text.splitAt ':' cs).mapM decimal).reverse
    else decimal cs
  return if negative then -x else x

/-- Whether the text is the word for no number, and not one that is converted to it. -/
def isNoNumber (text : String) : Bool :=
  match splitSign (Text.lower (withoutLines text)) with
  | .ok (_, cs) => cs = ".nan".toList
  | .error _ => false

/-! ### Truth values, dates and bytes -/

/-- The truth value that a scalar denotes. -/
def bool (text : String) : Except Fault Bool :=
  let word := String.ofList (Text.lower text.toList)
  if ["yes", "true", "on"].contains word then .ok true
  else if ["no", "false", "off"].contains word then .ok false
  else .error (.truthWord word)

/-- The number of microseconds that the digits of a fraction of a second write. -/
def microseconds (fraction : List Char) : Nat :=
  let ds := fraction.take 6
  Decimal.ofDigits 10 (ds ++ List.replicate (6 - ds.length) '0')

/-- The seconds by which a zone is ahead of universal time. -/
def zoneSeconds : Char × List Char × List Char → Int
  | (sign, hours, minutes) =>
    let n : Int := Decimal.ofDigits 10 hours * 3600 + Decimal.ofDigits 10 minutes * 60
    if sign = '-' then -n else n

/-- The date or moment that a scalar denotes. -/
def timestamp (text : String) : Except Fault Atom :=
  match Kind.readStamp (Kind.dropLastBreak text.toList) with
  | none => .error .noStamp
  | some s =>
    let number := Decimal.ofDigits 10
    match s.time with
    | none =>
      ((Date.make (number s.year) (number s.month) (number s.day)).map Atom.date).mapError .calendar
    | some (hour, minute, second) =>
      ((Moment.make (number s.year) (number s.month) (number s.day) (number hour) (number minute)
        (number second) (microseconds s.fraction) (s.zone.map zoneSeconds)).map
          Atom.moment).mapError .calendar

/-- The value of a character of an encoding of bytes by sixty-four characters. -/
def sextet? (c : Char) : Option Nat :=
  if 'A' ≤ c && c ≤ 'Z' then some (c.toNat - 0x41)
  else if 'a' ≤ c && c ≤ 'z' then some (c.toNat - 0x47)
  else if Decimal.isDigit c then some (c.toNat + 4)
  else if c = '+' then some 62
  else if c = '/' then some 63
  else none

/-- Reads the bytes that sextets make up. `place` is the number of sextets since the last whole
group, `pads` that of the padding marks since the last sextet, and `left` the bits of the last
sextet that no byte has yet. Characters that stand for nothing are passed over, and nothing is read
behind a padding that fills its group. -/
def readBytes (place pads left : Nat) (read : List UInt8) : List Char → Option (List UInt8)
  | [] => if place = 0 then some read.reverse else none
  | c :: cs =>
    if c = '=' then
      if 2 ≤ place then
        if 4 ≤ place + pads + 1 then some read.reverse else readBytes place (pads + 1) left read cs
      else readBytes place pads left read cs
    else match sextet? c with
      | none => readBytes place pads left read cs
      | some n =>
        match place with
        | 0 => readBytes 1 0 n read cs
        | 1 => readBytes 2 0 (n % 16) ((left * 4 + n / 16).toUInt8 :: read) cs
        | 2 => readBytes 3 0 (n % 4) ((left * 16 + n / 4).toUInt8 :: read) cs
        | _ => readBytes 0 0 0 ((left * 64 + n).toUInt8 :: read) cs

/-- The bytes that a scalar denotes. -/
def binary (text : String) : Except Fault Atom :=
  let cs := text.toList
  if cs.all fun c => c.toNat < 0x80 then
    match readBytes 0 0 0 [] cs with
    | some bytes => .ok (.bytes bytes)
    | none => .error .malformed
  else .error .malformed

/-! ### Values -/

/-- The atom that a scalar of the given kind denotes; a scalar is none of the kinds of
collections. -/
def atom (kind : Kind) (text : String) : Except Fault Atom :=
  match kind with
  | .null => .ok .null
  | .bool => (bool text).map .bool
  | .int => (int text).map .int
  | .float => (float text).map .float
  | .binary => binary text
  | .timestamp => timestamp text
  | .str => .ok (.text text)
  | _ => .error .malformed

end Argumentation.Markup.Scalar
