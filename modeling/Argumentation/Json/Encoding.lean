/-!
# Encodings of JSON

The bytes of a JSON text are UTF-8, or UTF-16 or UTF-32 in either byte order. A JSON text starts with
a character of ASCII, so the places of the zero bytes among the first four tell which encoding it is.
Half a character of UTF-16 on its own stands for no character; it is read as the replacement
character, which no JSON text has outside of its texts either.
-/

namespace Argumentation.Json

/-- An encoding of text. Those with units of several bytes may have the highest byte first. -/
inductive Encoding where
  | utf8
  | utf16 (highFirst : Bool)
  | utf32 (highFirst : Bool)
  deriving DecidableEq, Repr

namespace Encoding

/-- The encoding of a JSON text that starts with the given bytes. -/
def ofBytes : List UInt8 → Encoding
  | a :: b :: c :: d :: _ =>
    if a = 0 then if b = 0 then .utf32 true else .utf16 true
    else if b = 0 then if c = 0 && d = 0 then .utf32 false else .utf16 false
    else .utf8
  | [a, b] => if a = 0 then .utf16 true else if b = 0 then .utf16 false else .utf8
  | _ => .utf8

/-- The number that the bytes of a unit make up. -/
def unitOf (highFirst : Bool) (bytes : List UInt8) : Nat :=
  (if highFirst then bytes else bytes.reverse).foldl (fun n b => n * 256 + b.toNat) 0

/-- The units of two bytes each. There must not be a byte left. -/
def units16? (highFirst : Bool) : List UInt8 → Option (List Nat)
  | [] => some []
  | a :: b :: rest => (units16? highFirst rest).map (unitOf highFirst [a, b] :: ·)
  | _ => none

/-- The units of four bytes each. There must not be a byte left. -/
def units32? (highFirst : Bool) : List UInt8 → Option (List Nat)
  | [] => some []
  | a :: b :: c :: d :: rest =>
    (units32? highFirst rest).map (unitOf highFirst [a, b, c, d] :: ·)
  | _ => none

/-- The replacement character. -/
def replacement : Char := '\ufffd'

/-- Whether the number is the first half of a character. -/
def isHigh (n : Nat) : Bool := 0xd800 ≤ n && n < 0xdc00

/-- Whether the number is the second half of a character. -/
def isLow (n : Nat) : Bool := 0xdc00 ≤ n && n < 0xe000

/-- The character with the given code point. -/
def charOf (n : Nat) : Char := if isHigh n || isLow n then replacement else Char.ofNat n

/-- The characters that units of sixteen bits make up. -/
def joinUnits : List Nat → List Char
  | [] => []
  | high :: low :: rest =>
    if isHigh high && isLow low then
      Char.ofNat (0x10000 + (high - 0xd800) * 0x400 + (low - 0xdc00)) :: joinUnits rest
    else charOf high :: joinUnits (low :: rest)
  | [n] => [charOf n]

/-- The text without a byte order mark at its beginning. -/
def dropMark : List Char → List Char
  | '\ufeff' :: rest => rest
  | cs => cs

end Encoding

/-- The text that the bytes of a text in UTF-8 stand for as JSON, if they stand for one. -/
def decode? (s : String) : Option (List Char) :=
  let bytes := s.toUTF8.toList
  match Encoding.ofBytes bytes with
  | .utf8 => some (Encoding.dropMark s.toList)
  | .utf16 highFirst => (Encoding.units16? highFirst bytes).map Encoding.joinUnits
  | .utf32 highFirst =>
    match Encoding.units32? highFirst bytes with
    | some units => if units.all (· ≤ 0x10ffff) then some (units.map Encoding.charOf) else none
    | none => none

end Argumentation.Json
