import Argumentation.Text.Quoted
import Argumentation.Decimal.Style
import Argumentation.Json

/-!
# Writing JSON

The text of a JSON value, in ASCII throughout: a character beyond it is written as one escape, or as
two where its code point needs two units of sixteen bits. `Json.write` puts the value on one line,
`Json.writeIndented` gives every member a line of its own.
-/

namespace Argumentation.Json

/-- The escape of one unit of sixteen bits. -/
def unitEscape (n : Nat) : List Char := '\\' :: 'u' :: Text.hexDigits 4 n

/-- One character between the quotes. -/
def writtenChar (c : Char) : List Char :=
  if c = '"' then ['\\', '"']
  else if c = '\\' then ['\\', '\\']
  else if c = '\n' then ['\\', 'n']
  else if c = '\r' then ['\\', 'r']
  else if c = '\t' then ['\\', 't']
  else if c = '\x0c' then ['\\', 'f']
  else if c = '\x08' then ['\\', 'b']
  else
    let n := c.toNat
    if 0x20 ≤ n && n < 0x7f then [c]
    else if n < 0x10000 then unitEscape n
    else unitEscape (0xd800 + (n - 0x10000) / 0x400) ++ unitEscape (0xdc00 + (n - 0x10000) % 0x400)

/-- A text between quotes. -/
def writtenText (s : String) : String :=
  String.ofList ('"' :: (s.toList.flatMap writtenChar ++ ['"']))

/-- A value without members. -/
def writtenScalar : Json → String
  | .bool true => "true"
  | .bool false => "false"
  | .int i => toString i
  | .float x => Decimal.interchange.write x
  | .text s => writtenText s
  | _ => "null"

mutual

/-- The value on one line. -/
def write : Json → String
  | .array items => "[" ++ ", ".intercalate (writeAll items) ++ "]"
  | .object fields => "\x7b" ++ ", ".intercalate (writeFields fields) ++ "\x7d"
  | j => writtenScalar j

/-- The members of an array, each on one line. -/
def writeAll : List Json → List String
  | [] => []
  | j :: js => write j :: writeAll js

/-- The fields of an object, each on one line. -/
def writeFields : List (String × Json) → List String
  | [] => []
  | (name, j) :: fs => (writtenText name ++ ": " ++ write j) :: writeFields fs

end

/-- The members of a collection, each on a line of its own, two columns further in than the brackets
around them. -/
def onLines (depth : Nat) (opening closing : String) (members : List String) : String :=
  if members.isEmpty then opening ++ closing
  else
    let margin (n : Nat) := "\n" ++ String.ofList (List.replicate (2 * n) ' ')
    opening ++ margin (depth + 1) ++ ("," ++ margin (depth + 1)).intercalate members ++
      margin depth ++ closing

mutual

/-- The value on several lines, as it stands `depth` levels down. -/
def writeAt (depth : Nat) : Json → String
  | .array items => onLines depth "[" "]" (writeAllAt (depth + 1) items)
  | .object fields => onLines depth "\x7b" "\x7d" (writeFieldsAt (depth + 1) fields)
  | j => writtenScalar j

/-- The members of an array, `depth` levels down. -/
def writeAllAt (depth : Nat) : List Json → List String
  | [] => []
  | j :: js => writeAt depth j :: writeAllAt depth js

/-- The fields of an object, `depth` levels down. -/
def writeFieldsAt (depth : Nat) : List (String × Json) → List String
  | [] => []
  | (name, j) :: fs => (writtenText name ++ ": " ++ writeAt depth j) :: writeFieldsAt depth fs

end

/-- The value on several lines. -/
def writeIndented (j : Json) : String := writeAt 0 j

end Argumentation.Json
