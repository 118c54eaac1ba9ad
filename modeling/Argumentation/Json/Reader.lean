import Argumentation.Decimal.Reading
import Argumentation.Json

/-!
# Reading JSON

A text is read from left to right, and each function gives the value it has read and the characters
that follow. A text that is not JSON is refused at one place for one reason. Inside the reader the
place is known by the number of characters that are left there; `Json.read` turns it into an offset.
-/

namespace Argumentation.Json

/-- Why a text is not JSON. -/
inductive Reason where
  | value
  | propertyName
  | colon
  | comma
  | extraData
  | unterminatedText
  | controlCharacter
  | escape
  | unitEscape
  /-- A whole number of more digits than are read. -/
  | longNumber
  /-- An array or an object inside too many others. -/
  | nesting
  deriving DecidableEq, Repr

/-- The words for the reason. -/
def Reason.message : Reason → String
  | .value => "Expecting value"
  | .propertyName => "Expecting property name enclosed in double quotes"
  | .colon => "Expecting ':' delimiter"
  | .comma => "Expecting ',' delimiter"
  | .extraData => "Extra data"
  | .unterminatedText => "Unterminated string starting at"
  | .controlCharacter => "Invalid control character at"
  | .escape => "Invalid \\escape"
  | .unitEscape => "Invalid \\uXXXX escape"
  | .longNumber => "Exceeds the limit for integer string conversion"
  | .nesting => "Exceeds the limit for nesting"

/-- A reason, and where it arose. -/
structure Fault where
  reason : Reason
  place : Nat
  deriving DecidableEq, Repr

/-- Whether the character may stand between the parts of a value. -/
def isSpace (c : Char) : Bool := c = ' ' || c = '\t' || c = '\n' || c = '\r'

/-- The text from its first character that is not space. -/
def skipSpace (cs : List Char) : List Char := cs.dropWhile isSpace

/-! ### Texts -/

/-- The value of a hexadecimal digit. -/
def hexValue? (c : Char) : Option Nat :=
  if Decimal.isDigit c || ('a' ≤ c && c ≤ 'f') || ('A' ≤ c && c ≤ 'F') then
    some (Decimal.digitValue c)
  else none

/-- The unit of sixteen bits that four hexadecimal digits write. -/
def unit? (a b c d : Char) : Option Nat := do
  let a ← hexValue? a
  let b ← hexValue? b
  let c ← hexValue? c
  let d ← hexValue? d
  return ((a * 16 + b) * 16 + c) * 16 + d

/-- The character that a backslash and the given letter stand for. -/
def escapedBy? (c : Char) : Option Char :=
  if c = '"' || c = '\\' || c = '/' then some c
  else if c = 'b' then some '\x08'
  else if c = 'f' then some '\x0c'
  else if c = 'n' then some '\n'
  else if c = 'r' then some '\r'
  else if c = 't' then some '\t'
  else none

/-- Whether the unit is the first half of a character. -/
def isHighUnit (n : Nat) : Bool := 0xd800 ≤ n && n < 0xdc00

/-- Whether the unit is the second half of a character. -/
def isLowUnit (n : Nat) : Bool := 0xdc00 ≤ n && n < 0xe000

/-- The character with the two given halves. -/
def joinUnits (high low : Nat) : Char :=
  Char.ofNat (0x10000 + (high - 0xd800) * 0x400 + (low - 0xdc00))

/-- Reads the four digits of an escaped unit and, where they write the first half of a character, the
escape of its second half. At least one character has to follow the digits. -/
def readUnits : List Char → Except Fault (Char × List Char)
  | a :: b :: c :: d :: rest =>
    match unit? a b c d, rest with
    | none, _ | _, [] => .error ⟨.unitEscape, rest.length + 5⟩
    | some high, '\\' :: 'u' :: e :: f :: g :: h :: next :: more =>
      if isHighUnit high then
        match unit? e f g h with
        | none => .error ⟨.unitEscape, more.length + 6⟩
        | some low =>
          if isLowUnit low then .ok (joinUnits high low, next :: more)
          else .ok (Char.ofNat high, rest)
      else .ok (Char.ofNat high, rest)
    | some n, _ => .ok (Char.ofNat n, rest)
  | cs => .error ⟨.unitEscape, cs.length + 1⟩

/-- Reads on to the closing quote. `opening` is the text from the opening one, and `read` holds the
characters so far, the last one first. -/
def readText (opening : List Char) :
    (fuel : Nat) → (read : List Char) → List Char → Except Fault (String × List Char)
  | 0, _, _ | _, _, [] => .error ⟨.unterminatedText, opening.length⟩
  | fuel + 1, read, c :: rest =>
    if c = '"' then .ok (String.ofList read.reverse, rest)
    else if c.toNat < 0x20 then .error ⟨.controlCharacter, rest.length + 1⟩
    else if c ≠ '\\' then readText opening fuel (c :: read) rest
    else match rest with
      | [] => .error ⟨.unterminatedText, opening.length⟩
      | c :: more =>
        if c = 'u' then
          match readUnits more with
          | .error f => .error f
          | .ok (c, more) => readText opening fuel (c :: read) more
        else match escapedBy? c with
          | none => .error ⟨.escape, more.length + 2⟩
          | some c => readText opening fuel (c :: read) more

/-! ### Numbers -/

/-- The fraction of a number and what follows it: a point counts only if a digit follows. -/
def splitFraction (cs : List Char) : List Char × List Char :=
  match cs with
  | '.' :: rest =>
    match rest.span Decimal.isDigit with
    | ([], _) => ([], cs)
    | found => found
  | _ => ([], cs)

/-- The exponent of a number, as its sign and digits, and what follows it: the letter counts only if
digits follow. -/
def splitExponent (cs : List Char) : Option (Bool × List Char) × List Char :=
  match cs with
  | [] => (none, cs)
  | mark :: rest =>
    if mark = 'e' || mark = 'E' then
      let (negative, rest) := match rest with
        | '-' :: more => (true, more)
        | '+' :: more => (false, more)
        | more => (false, more)
      match rest.span Decimal.isDigit with
      | ([], _) => (none, cs)
      | (ds, more) => (some (negative, ds), more)
    else (none, cs)

/-- The digits before the point and what follows them: one zero, or digits that start with another
one. -/
def splitWhole (cs : List Char) : List Char × List Char :=
  match cs with
  | '0' :: rest => (['0'], rest)
  | cs => cs.span Decimal.isDigit

/-- Reads a number whose sign has been read. -/
def readUnsigned (negative : Bool) (cs : List Char) : Except Fault (Json × List Char) :=
  let (whole, rest) := splitWhole cs
  let start (_ : Unit) := cs.length + if negative then 1 else 0
  if whole.isEmpty then .error ⟨.value, start ()⟩
  else
    let (fraction, rest) := splitFraction rest
    match splitExponent rest with
    | (some (down, ds), rest) =>
      .ok (.float (Decimal.Written.toFloat ⟨negative, whole, fraction, Decimal.exponentOf down ds⟩),
        rest)
    | (none, rest) =>
      if !fraction.isEmpty then
        .ok (.float (Decimal.Written.toFloat ⟨negative, whole, fraction, 0⟩), rest)
      else if Decimal.digitLimit < whole.length then .error ⟨.longNumber, start ()⟩
      else
        let n : Int := Decimal.ofDigits 10 whole
        .ok (.int (if negative then -n else n), rest)

/-! ### Values -/

/-- The words that stand for values by themselves. -/
def words : List (List Char × Json) :=
  [("null".toList, .null), ("true".toList, .bool true), ("false".toList, .bool false),
    ("NaN".toList, .float (0.0 / 0.0)), ("Infinity".toList, .float (1.0 / 0.0)),
    ("-Infinity".toList, .float (-1.0 / 0.0))]

/-- Reads a word or a number. -/
def readScalar (cs : List Char) : Except Fault (Json × List Char) :=
  match words.findSome? fun w => (w.1.isPrefixOf? cs).map fun rest => (w.2, rest) with
  | some found => .ok found
  | none =>
    match cs with
    | '-' :: rest => readUnsigned true rest
    | cs => readUnsigned false cs

mutual

/-- Reads a value that starts at the first character. At most as many arrays and objects may lie
inside each other as there is `room`. -/
def readValue : (room fuel : Nat) → List Char → Except Fault (Json × List Char)
  | _, 0, cs => .error ⟨.value, cs.length⟩
  | _, fuel + 1, '"' :: rest =>
    (readText ('"' :: rest) fuel [] rest).map fun found => (.text found.1, found.2)
  | 0, _ + 1, '[' :: rest => .error ⟨.nesting, rest.length + 1⟩
  | room + 1, fuel + 1, '[' :: rest =>
    match skipSpace rest with
    | ']' :: more => .ok (.array [], more)
    | cs => readItems room fuel [] cs
  | 0, _ + 1, '\x7b' :: rest => .error ⟨.nesting, rest.length + 1⟩
  | room + 1, fuel + 1, '\x7b' :: rest =>
    match skipSpace rest with
    | '\x7d' :: more => .ok (.object [], more)
    | cs => readFields room fuel [] cs
  | _, _ + 1, cs => readScalar cs

/-- Reads the members of an array up to its closing bracket. `read` holds the members so far, the
last one first. -/
def readItems (room : Nat) : (fuel : Nat) → (read : List Json) → List Char →
    Except Fault (Json × List Char)
  | 0, _, cs => .error ⟨.value, cs.length⟩
  | fuel + 1, read, cs => do
    let (item, rest) ← readValue room fuel cs
    match skipSpace rest with
    | ']' :: more => return (.array (item :: read).reverse, more)
    | ',' :: more => readItems room fuel (item :: read) (skipSpace more)
    | rest => throw ⟨.comma, rest.length⟩

/-- Reads the fields of an object up to its closing brace. `read` holds the fields so far. -/
def readFields (room : Nat) : (fuel : Nat) → (read : List (String × Json)) → List Char →
    Except Fault (Json × List Char)
  | 0, _, cs => .error ⟨.value, cs.length⟩
  | fuel + 1, read, cs =>
    match cs with
    | '"' :: rest => do
      let (name, rest) ← readText cs fuel [] rest
      match skipSpace rest with
      | ':' :: more =>
        let (value, rest) ← readValue room fuel (skipSpace more)
        let read := setField name value read
        match skipSpace rest with
        | '\x7d' :: more => return (.object read, more)
        | ',' :: more => readFields room fuel read (skipSpace more)
        | rest => throw ⟨.comma, rest.length⟩
      | rest => throw ⟨.colon, rest.length⟩
    | cs => throw ⟨.propertyName, cs.length⟩

end

/-- The value that the text writes with at most `room` arrays and objects inside each other, or why
it writes none and at which offset. -/
def readChars (room : Nat) (cs : List Char) : Except Fault Json :=
  let offset (f : Fault) : Fault := ⟨f.reason, cs.length - f.place⟩
  match readValue room (cs.length + 1) (skipSpace cs) with
  | .error f => .error (offset f)
  | .ok (j, rest) =>
    match skipSpace rest with
    | [] => .ok j
    | rest => .error (offset ⟨.extraData, rest.length⟩)

/-- The value that the text writes, or why it writes none and at which offset. -/
def read (s : String) : Except Fault Json := readChars s.length s.toList

end Argumentation.Json
