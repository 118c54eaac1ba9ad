import Argumentation.Decimal.Reading
import Argumentation.Text.Blank
import Argumentation.Text.Digit

/-!
# Numerals

Numbers as people type them: with white space around them, a sign, single underscores between
digits, and digits of any script. A whole number may be written in a base of up to sixteen, with or
without the mark of the base in front; a decimal may have a fraction and an exponent.
-/

namespace Argumentation.Decimal

/-- The sign of a number, negative or not, and what follows it. -/
def splitSign : List Char → Bool × List Char
  | '-' :: cs => (true, cs)
  | '+' :: cs => (false, cs)
  | cs => (false, cs)

/-- The text without white space around it, its digits in ASCII. -/
def normalized (cs : List Char) : List Char :=
  (Text.trimBoth Text.isWhiteSpace cs).map Text.asciiDigit

/-- Whether the character is a digit in the base. -/
def isDigitIn (base : Nat) (c : Char) : Bool :=
  (isDigit c || ('a' ≤ c && c ≤ 'z') || ('A' ≤ c && c ≤ 'Z')) && digitValue c < base

/-- The digits of a numeral in which single underscores may stand between digits. -/
def ungroup? (p : Char → Bool) : List Char → Option (List Char)
  | [] => none
  | [c] => if p c then some [c] else none
  | c :: '_' :: cs => if p c then (ungroup? p cs).map (c :: ·) else none
  | c :: cs => if p c then (ungroup? p cs).map (c :: ·) else none

/-- The letter that marks a base behind a zero. -/
def baseMark (base : Nat) : Option Char :=
  if base = 2 then some 'b' else if base = 8 then some 'o' else if base = 16 then some 'x' else none

/-- The numeral without the mark of its base, and without an underscore behind that. -/
def dropBaseMark (base : Nat) (cs : List Char) : List Char :=
  match cs with
  | '0' :: m :: rest =>
    if baseMark base == some m.toLower then
      match rest with
      | '_' :: rest => rest
      | rest => rest
    else cs
  | _ => cs

/-- Whether the numeral writes a whole number in the base, as its sign and digits. -/
def wholeDigits? (base : Nat) (cs : List Char) : Option (Bool × List Char) :=
  let (negative, cs) := splitSign (normalized cs)
  (ungroup? (isDigitIn base) (dropBaseMark base cs)).map fun ds => (negative, ds)

/-- The number of decimal digits with which a text starts behind its sign, if they form a numeral by
themselves. -/
def leadingDigits (cs : List Char) : Nat :=
  let run := (splitSign (normalized cs)).2.takeWhile fun c => isDigit c || c = '_'
  ((ungroup? isDigit run).getD []).length

/-- The whole number with the given sign and digits. -/
def signed (base : Nat) (negative : Bool) (ds : List Char) : Int :=
  let n : Int := ofDigits base ds
  if negative then -n else n

/-- The digits that stand here, with single underscores between them, and what follows. There may be
none. -/
def spanDigits (cs : List Char) : Option (List Char × List Char) :=
  match cs.span fun c => isDigit c || c = '_' with
  | ([], rest) => some ([], rest)
  | (ds, rest) => (ungroup? isDigit ds).map fun ds => (ds, rest)

/-- The exponent that stands here, if nothing follows it. -/
def exponent? : List Char → Option Int
  | [] => some 0
  | mark :: cs =>
    if mark.toLower = 'e' then
      let (negative, cs) := splitSign cs
      (ungroup? isDigit cs).map fun ds => exponentOf negative ds
    else none

/-- The words for numbers that are not finite. -/
def namedDouble? (negative : Bool) (word : List Char) : Option Float :=
  let word := word.map Char.toLower
  if word = "inf".toList || word = "infinity".toList then
    some (if negative then -1.0 / 0.0 else 1.0 / 0.0)
  else if word = "nan".toList then some (0.0 / 0.0)
  else none

/-- The double that a decimal writes. -/
def double? (cs : List Char) : Option Float := do
  let (negative, cs) := splitSign (normalized cs)
  if let some x := namedDouble? negative cs then return x
  let (whole, rest) ← spanDigits cs
  let (fraction, rest) ← match rest with
    | '.' :: rest => spanDigits rest
    | rest => some ([], rest)
  if whole.isEmpty && fraction.isEmpty then none
  let exponent ← exponent? rest
  return Written.toFloat ⟨negative, whole, fraction, exponent⟩

end Argumentation.Decimal
