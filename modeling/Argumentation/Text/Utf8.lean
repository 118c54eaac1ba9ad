import Argumentation.Text.Quoted

/-!
# Decoding of UTF-8

Reading a run of bytes as text. A run that is not UTF-8 is refused at the first byte that cannot
stand where it stands, with the stretch of bytes at fault and the reason. `foldNewlines` then makes
all three spellings of a line end one.
-/

namespace Argumentation.Text.Utf8

/-- Why a run of bytes is not UTF-8. -/
inductive Reason where
  /-- No character starts with this byte. -/
  | startByte
  /-- The bytes begin a character, and the next one does not go on with it. -/
  | continuationByte
  /-- The bytes end inside a character. -/
  | endOfData
  deriving DecidableEq, Repr

/-- The words for the reason. -/
def Reason.message : Reason → String
  | .startByte => "invalid start byte"
  | .continuationByte => "invalid continuation byte"
  | .endOfData => "unexpected end of data"

/-- A stretch of bytes that is not UTF-8. -/
structure Fault where
  /-- Where the stretch starts. -/
  position : Nat
  /-- The first byte of the stretch. -/
  byte : Nat
  /-- How many bytes the stretch has. -/
  count : Nat
  reason : Reason
  deriving DecidableEq, Repr

/-- The words for the fault: one byte is shown, of several only the places are told. -/
def Fault.message (f : Fault) : String :=
  let stretch :=
    if f.count = 1 then
      "byte 0x" ++ String.ofList (hexDigits 2 f.byte) ++ " in position " ++ toString f.position
    else
      "bytes in position " ++ toString f.position ++ "-" ++ toString (f.position + f.count - 1)
  "'utf-8' codec can't decode " ++ stretch ++ ": " ++ f.reason.message

/-- Whether the byte can go on with a character. -/
def isTail (b : Nat) : Bool := 0x80 ≤ b && b ≤ 0xbf

/-- The least and the greatest byte that may follow the first byte `b` of a character: three of
them are restricted further, so that no character has two spellings, no surrogate is one, and no
code point is too large. -/
def secondRange (b : Nat) : Nat × Nat :=
  if b = 0xe0 then (0xa0, 0xbf)
  else if b = 0xed then (0x80, 0x9f)
  else if b = 0xf0 then (0x90, 0xbf)
  else if b = 0xf4 then (0x80, 0x8f)
  else (0x80, 0xbf)

/-- How many bytes the character that starts with `b` has, if there is one. -/
def sizeFrom (b : Nat) : Option Nat :=
  if b < 0x80 then some 1
  else if b < 0xc2 then none
  else if b < 0xe0 then some 2
  else if b < 0xf0 then some 3
  else if b < 0xf5 then some 4
  else none

/-- How many of the bytes after the first byte `b` go on with its character, at most `wanted`. -/
def tailCount (b wanted : Nat) (rest : List Nat) : Nat :=
  match rest with
  | [] => 0
  | c :: more =>
    if (secondRange b).1 ≤ c && c ≤ (secondRange b).2 then
      1 + ((more.take (wanted - 1)).takeWhile isTail).length
    else 0

/-- The code point of a character with the first byte `b`, of `size` bytes, and its tail. -/
def codePoint (b size : Nat) (tail : List Nat) : Nat :=
  let lead := if size = 1 then b else if size = 2 then b % 32 else if size = 3 then b % 16 else b % 8
  tail.foldl (fun n c => n * 64 + c % 64) lead

/-- Decodes byte after byte. `skip` bytes belong to a character already read, `position` bytes lie
behind, and `read` holds the characters so far, the last one first. -/
def decodeFrom (read : List Char) (position skip : Nat) : List Nat → Except Fault (List Char)
  | [] => .ok read.reverse
  | b :: rest =>
    match skip with
    | skip + 1 => decodeFrom read (position + 1) skip rest
    | 0 =>
      match sizeFrom b with
      | none => .error ⟨position, b, 1, .startByte⟩
      | some size =>
        let present := if size = 1 then 0 else tailCount b (size - 1) rest
        if present + 1 = size then
          let c := Char.ofNat (codePoint b size (rest.take present))
          decodeFrom (c :: read) (position + 1) present rest
        else if rest.length ≤ present then
          .error ⟨position, b, present + 1, .endOfData⟩
        else
          .error ⟨position, b, present + 1, .continuationByte⟩

/-- The text that the bytes encode, or the first stretch of them that encodes none. -/
def decode (bytes : List UInt8) : Except Fault (List Char) :=
  decodeFrom [] 0 0 (bytes.map UInt8.toNat)

/-- The text with a line feed in place of a carriage return and line feed, and of a carriage return
alone. `read` holds the characters so far, the last one first. -/
def foldNewlinesFrom (read : List Char) : List Char → List Char
  | [] => read.reverse
  | '\r' :: '\n' :: rest => foldNewlinesFrom ('\n' :: read) rest
  | '\r' :: rest => foldNewlinesFrom ('\n' :: read) rest
  | c :: rest => foldNewlinesFrom (c :: read) rest

/-- The text with every line end written as a line feed. -/
def foldNewlines (cs : List Char) : List Char := foldNewlinesFrom [] cs

end Argumentation.Text.Utf8
