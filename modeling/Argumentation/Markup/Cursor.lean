/-!
# Places in a document

A cursor is a place in the text of a document: the characters from there on, and the line and column
in which the next one stands. Looking beyond the end of the text shows the character U+0000, which
no document contains.
-/

namespace Argumentation.Markup

/-- The character that stands for the end of the text. -/
def endMark : Char := '\x00'

/-- Whether the character ends a line. -/
def isBreak (c : Char) : Bool :=
  c = '\n' || c = '\r' || c = '\x85' || c = '\u2028' || c = '\u2029'

/-- Whether a line ends here. -/
def isLineEnd (c : Char) : Bool := c = endMark || isBreak c

/-- Whether a line ends here or a space stands here. -/
def isGap (c : Char) : Bool := c = ' ' || isLineEnd c

/-- Whether a line ends here or a space or a tab stands here. -/
def isSeparation (c : Char) : Bool := c = '\t' || isGap c

/-- Whether the character is a space or a tab. -/
def isIndent (c : Char) : Bool := c = ' ' || c = '\t'

/-- A place in the text of a document. -/
structure Cursor where
  rest : List Char
  /-- The number of characters before the place. -/
  index : Nat
  line : Nat
  column : Nat

namespace Cursor

/-- The beginning of a text. -/
def start (cs : List Char) : Cursor := ⟨cs, 0, 0, 0⟩

/-- The next character. -/
def peek (c : Cursor) : Char := c.rest.head?.getD endMark

/-- The character `n` places behind the next one. -/
def peekAt (c : Cursor) (n : Nat) : Char := (c.rest.drop n).head?.getD endMark

/-- The place behind the next character. A carriage return before a line feed does not end the line
yet, and a byte order mark takes no column. -/
def advance (c : Cursor) : Cursor :=
  match c.rest with
  | [] => c
  | x :: rest =>
    if isBreak x && !(x = '\r' && rest.head? == some '\n') then ⟨rest, c.index + 1, c.line + 1, 0⟩
    else if x = '\ufeff' then ⟨rest, c.index + 1, c.line, c.column⟩
    else ⟨rest, c.index + 1, c.line, c.column + 1⟩

/-- The place `n` characters on. -/
def advanceBy : (n : Nat) → Cursor → Cursor
  | 0, c => c
  | n + 1, c => advanceBy n c.advance

/-- The first characters as long as they satisfy `p`, and the place behind them. -/
def takeWhile (p : Char → Bool) (c : Cursor) : List Char × Cursor :=
  let taken := c.rest.takeWhile p
  (taken, c.advanceBy taken.length)

/-- The place behind the first characters that satisfy `p`. -/
def skipWhile (p : Char → Bool) (c : Cursor) : Cursor := (c.takeWhile p).2

/-- The place behind spaces. -/
def skipSpaces (c : Cursor) : Cursor := c.skipWhile (· = ' ')

/-- The place at the end of the line. -/
def skipLine (c : Cursor) : Cursor := c.skipWhile fun x => !isLineEnd x

/-- The line end that stands here, as one character, and the place behind it. The separators of
lines and paragraphs are kept, the other line ends become line feeds. -/
def lineBreak? (c : Cursor) : Option (Char × Cursor) :=
  match c.rest with
  | '\r' :: '\n' :: _ => some ('\n', c.advanceBy 2)
  | x :: _ =>
    if x = '\u2028' || x = '\u2029' then some (x, c.advance)
    else if isBreak x then some ('\n', c.advance)
    else none
  | [] => none

/-- Whether three characters `mark` stand here, and a separation behind them. -/
def atMarker (mark : Char) (c : Cursor) : Bool :=
  c.peek = mark && c.peekAt 1 = mark && c.peekAt 2 = mark && isSeparation (c.peekAt 3)

/-- Whether a marker of a document's beginning or end stands here. -/
def atDocumentMarker (c : Cursor) : Bool := c.atMarker '-' || c.atMarker '.'

end Cursor

end Argumentation.Markup
