import Argumentation.Text.Printable

/-!
# Quoted text

The literal form in which messages show a text or a run of bytes: between quotes, on one line, and
with every character that does not print written as an escape. The quote is the apostrophe, unless
the text holds apostrophes and no double quote.
-/

namespace Argumentation.Text

/-- The digit with the value `d`, in lower case above nine. -/
def hexDigit (d : Nat) : Char :=
  if d < 10 then Char.ofNat (0x30 + d) else Char.ofNat (0x57 + d)

/-- The last `width` hexadecimal digits of `n`, the highest first. -/
def hexDigits : (width n : Nat) → List Char
  | 0, _ => []
  | width + 1, n => hexDigits width (n / 16) ++ [hexDigit (n % 16)]

/-- The hexadecimal escape of a code point, in the narrowest of the three widths that holds it. -/
def codePointEscape (n : Nat) : List Char :=
  if n ≤ 0xff then '\\' :: 'x' :: hexDigits 2 n
  else if n ≤ 0xffff then '\\' :: 'u' :: hexDigits 4 n
  else '\\' :: 'U' :: hexDigits 8 n

/-- The quote in which a text is shown: one that need not be escaped, if there is such a quote. -/
def quoteFor (cs : List Char) : Char :=
  if cs.contains '\x27' && !cs.contains '"' then '"' else '\x27'

/-- One character between the quotes `q`. `shown` says which characters stand for themselves. -/
def quotedChar (shown : Char → Bool) (q c : Char) : List Char :=
  if c = q || c = '\\' then ['\\', c]
  else if c = '\n' then ['\\', 'n']
  else if c = '\r' then ['\\', 'r']
  else if c = '\t' then ['\\', 't']
  else if shown c then [c]
  else codePointEscape c.toNat

/-- The quoted form of a text. -/
def quotedChars (cs : List Char) : List Char :=
  let q := quoteFor cs
  q :: (cs.flatMap (quotedChar isPrintable q) ++ [q])

/-- The quoted form of a text. -/
def quoted (s : String) : String := String.ofList (quotedChars s.toList)

/-- The quoted form of a run of bytes: as for text, with a `b` in front and only the printable
characters of ASCII standing for themselves. -/
def quotedBytes (bytes : List UInt8) : String :=
  let cs := bytes.map fun b => Char.ofNat b.toNat
  let q := quoteFor cs
  let shown (c : Char) : Bool := 0x20 ≤ c.toNat && c.toNat < 0x7f
  String.ofList ('b' :: q :: (cs.flatMap (quotedChar shown q) ++ [q]))

end Argumentation.Text
