import Argumentation.Markup.Cursor
import Argumentation.Markup.Token
import Argumentation.Json.Reader
import Argumentation.Text.Utf8

/-!
# Tags, anchors and directives

Reading of the short tokens: names of anchors, tags with their handles and escapes, and the
directives at the head of a document.
-/

namespace Argumentation.Markup

/-- Whether the character may stand in a name. -/
def isWordChar (c : Char) : Bool :=
  Decimal.isDigit c || ('A' ≤ c && c ≤ 'Z') || ('a' ≤ c && c ≤ 'z') || c = '-' || c = '_'

/-- Goes on only if the condition holds. -/
def require (holds : Bool) : Except Fault Unit := if holds then .ok () else .error .malformed

/-! ### Names -/

/-- The characters that may follow the name of an anchor, besides separations. -/
def afterName : List Char := "?:,]\x7d%@\x60".toList

/-- The name of an anchor or an alias, whose indicator stands here. -/
def readName (c : Cursor) : Except Fault (String × Cursor) := do
  let (name, c) := c.advance.takeWhile isWordChar
  require !name.isEmpty
  require (isSeparation c.peek || afterName.contains c.peek)
  return (String.ofList name, c)

/-! ### Tags -/

/-- Whether the character may stand in a tag. -/
def isTagChar (c : Char) : Bool :=
  isWordChar c || "-;/?:@&=+$,_.!~*\x27()[]%".toList.contains c

/-- The bytes that a run of escapes names: two hexadecimal digits behind each percent sign. -/
def escapedBytes : List Char → Option (List UInt8 × List Char)
  | '%' :: a :: b :: rest => do
    let a ← Json.hexValue? a
    let b ← Json.hexValue? b
    let (bytes, rest) ← escapedBytes rest
    return ((a * 16 + b).toUInt8 :: bytes, rest)
  | '%' :: _ => none
  | rest => some ([], rest)

/-- The text of a tag with its escapes resolved. A run of escapes has to be UTF-8. -/
def unescapeTag : (fuel : Nat) → List Char → Option (List Char)
  | 0, _ | _, [] => some []
  | fuel + 1, '%' :: rest => do
    let (bytes, rest) ← escapedBytes ('%' :: rest)
    let cs ← (Text.Utf8.decode bytes).toOption
    let more ← unescapeTag fuel rest
    return cs ++ more
  | fuel + 1, c :: rest => (unescapeTag fuel rest).map (c :: ·)

/-- The tag characters that stand here, with their escapes resolved. There has to be one. -/
def readTagText (c : Cursor) : Except Fault (String × Cursor) := do
  let (raw, c) := c.takeWhile isTagChar
  require !raw.isEmpty
  match unescapeTag raw.length raw with
  | none => throw .malformed
  | some cs => return (String.ofList cs, c)

/-- The handle that stands here: an exclamation mark alone before a space, or a word between two. -/
def readHandle (c : Cursor) : Except Fault (String × Cursor) := do
  require (c.peek = '!')
  if c.peekAt 1 = ' ' then return ("!", c.advance)
  let (word, c) := c.advance.takeWhile isWordChar
  require (c.peek = '!')
  return (String.ofList ('!' :: word ++ ['!']), c.advance)

/-- Whether the tag that stands here has a second exclamation mark before it ends. -/
def hasHandle (c : Cursor) : Bool :=
  ((c.rest.drop 1).takeWhile fun x => !isGap x).contains '!'

/-- The tag that stands here. -/
def readTag (c : Cursor) : Except Fault (WrittenTag × Cursor) := do
  let (tag, c) ←
    if c.peekAt 1 = '<' then
      let (tag, c) ← readTagText (c.advanceBy 2)
      require (c.peek = '>')
      pure (WrittenTag.verbatim tag, c.advance)
    else if isSeparation (c.peekAt 1) then
      pure (WrittenTag.verbatim "!", c.advance)
    else
      let (handle, c) ← if hasHandle c then readHandle c else pure ("!", c.advance)
      let (suffix, c) ← readTagText c
      pure (WrittenTag.shorthand handle suffix, c)
  require (isGap c.peek)
  return (tag, c)

/-! ### Directives -/

/-- The number that stands here. -/
def readNumber (c : Cursor) : Except Fault (Nat × Cursor) := do
  let (digits, c) := c.takeWhile Decimal.isDigit
  require !digits.isEmpty
  if Decimal.digitLimit < digits.length then throw (.digits digits.length)
  return (Decimal.ofDigits 10 digits, c)

/-- The place behind a comment, if one stands here after spaces, and behind the line end. -/
def finishLine (c : Cursor) : Except Fault Cursor := do
  let c := c.skipSpaces
  let c := if c.peek = '#' then c.skipLine else c
  require (isLineEnd c.peek)
  return (c.lineBreak?.map (·.2)).getD c

/-- The version that a directive asks for. -/
def readVersion (c : Cursor) : Except Fault (Directive × Cursor) := do
  let (major, c) ← readNumber c.skipSpaces
  require (c.peek = '.')
  let (_, c) ← readNumber c.advance
  require (isGap c.peek)
  return (.version major, c)

/-- The handle that a directive declares, and what it stands for. -/
def readTagDirective (c : Cursor) : Except Fault (Directive × Cursor) := do
  let (handle, c) ← readHandle c.skipSpaces
  require (c.peek = ' ')
  let (front, c) ← readTagText c.skipSpaces
  require (isGap c.peek)
  return (.tag handle front, c)

/-- The directive that stands here, with its line. -/
def readDirective (c : Cursor) : Except Fault (Directive × Cursor) := do
  let (name, c) := c.advance.takeWhile isWordChar
  require !name.isEmpty
  require (isGap c.peek)
  let (d, c) ←
    if name = "YAML".toList then readVersion c
    else if name = "TAG".toList then readTagDirective c
    else pure (Directive.unknown, c.skipLine)
  return (d, ← finishLine c)

end Argumentation.Markup
