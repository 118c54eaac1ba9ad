import Argumentation.Markup.Token.Word

/-!
# Quoted and plain scalars

Scalars that are written between quotes, and scalars without any mark. Both may go on over several
lines: a single line end then stands for a space, and of several line ends all but the first are
kept. Characters that have been read are kept with the last one first.
-/

namespace Argumentation.Markup

/-! ### Quoted scalars -/

/-- The character that a letter stands for behind a backslash. -/
def simpleEscapes : List (Char × Char) :=
  [('0', '\x00'), ('a', '\x07'), ('b', '\x08'), ('t', '\t'), ('\t', '\t'), ('n', '\n'),
    ('v', '\x0b'), ('f', '\x0c'), ('r', '\r'), ('e', '\x1b'), (' ', ' '), ('"', '"'), ('/', '/'),
    ('\\', '\\'), ('N', '\x85'), ('_', '\xa0'), ('L', '\u2028'), ('P', '\u2029')]

/-- The number of hexadecimal digits behind a letter that announces a code point. -/
def escapeWidths : List (Char × Nat) := [('x', 2), ('u', 4), ('U', 8)]

/-- The largest code point that is looked up at all. -/
def codePointBound : Nat := 0x7fffffff

/-- Whether the number is that of half of a pair of code units. -/
def isHalfPair (n : Nat) : Bool := 0xd800 ≤ n && n ≤ 0xdfff

/-- The character whose code point the next `width` digits write. -/
def readCodePoint (width : Nat) (c : Cursor) : Except Fault (Char × Cursor) := do
  let digits := c.rest.take width
  require (digits.length = width && digits.all fun x => (Json.hexValue? x).isSome)
  let n := Decimal.ofDigits 16 digits
  if codePointBound < n then throw .oversizedCodePoint
  if 0x10ffff < n then throw .codePoint
  if isHalfPair n then throw .halfPair
  return (Char.ofNat n, c.advanceBy width)

/-- Skips blank lines inside a quoted scalar. No marker of a document may start a line. -/
def readQuotedBreaks : (fuel : Nat) → (breaks : List Char) → Cursor →
    Except Fault (List Char × Cursor)
  | 0, breaks, c => .ok (breaks, c)
  | fuel + 1, breaks, c =>
    if c.atDocumentMarker then .error .malformed
    else
      let c := c.skipWhile isIndent
      match c.lineBreak? with
      | some (x, c) => readQuotedBreaks fuel (x :: breaks) c
      | none => .ok (breaks, c)

/-- What a line end stands for, after which there are further `breaks`. -/
def joinLines (lineEnd : Char) (breaks : List Char) : List Char :=
  if lineEnd ≠ '\n' then breaks ++ [lineEnd] else if breaks.isEmpty then [' '] else breaks

/-- Reads the blank characters inside a quoted scalar. -/
def readQuotedSpaces (fuel : Nat) (c : Cursor) : Except Fault (List Char × Cursor) := do
  let (spaces, c) := c.takeWhile isIndent
  require (c.peek ≠ endMark)
  match c.lineBreak? with
  | none => return (spaces.reverse, c)
  | some (x, c) =>
    let (breaks, c) ← readQuotedBreaks fuel [] c
    return (joinLines x breaks, c)

/-- Reads what a backslash in front of `c` introduces. -/
def readEscape (fuel : Nat) (c : Cursor) : Except Fault (List Char × Cursor) := do
  match simpleEscapes.lookup c.peek, escapeWidths.lookup c.peek, c.lineBreak? with
  | some x, _, _ => return ([x], c.advance)
  | none, some width, _ =>
    let (x, c) ← readCodePoint width c.advance
    return ([x], c)
  | none, none, some (_, c) => readQuotedBreaks fuel [] c
  | none, none, none => throw .malformed

/-- Reads the text of a quoted scalar up to the closing quote. -/
def readQuotedText (quote : Char) : (fuel : Nat) → (read : List Char) → Cursor →
    Except Fault (List Char × Cursor)
  | 0, _, _ => .error .malformed
  | fuel + 1, read, c => do
    let x := c.peek
    if x = quote then
      if quote = '\x27' && c.peekAt 1 = '\x27' then
        readQuotedText quote fuel ('\x27' :: read) (c.advanceBy 2)
      else return (read, c.advance)
    else if isIndent x || isLineEnd x then
      let (spaces, c) ← readQuotedSpaces fuel c
      readQuotedText quote fuel (spaces ++ read) c
    else if quote = '"' && x = '\\' then
      let (cs, c) ← readEscape fuel c.advance
      readQuotedText quote fuel (cs ++ read) c
    else readQuotedText quote fuel (x :: read) c.advance

/-- The quoted scalar whose opening quote stands here. -/
def readQuoted (fuel : Nat) (c : Cursor) : Except Fault (Token × Cursor) := do
  let (read, c) ← readQuotedText c.peek fuel [] c.advance
  return (.scalar false (String.ofList read.reverse), c)

/-! ### Plain scalars -/

/-- Whether a plain scalar ends in front of this place: at a separation, at a colon before one, and
inside brackets also at one of the marks that have a meaning there. -/
def endsPlain (inFlow : Bool) (c : Cursor) : Bool :=
  let x := c.peek
  let next := c.peekAt 1
  isSeparation x ||
    (x = ':' && (isSeparation next || (inFlow && ",[]\x7b\x7d".toList.contains next))) ||
    (inFlow && ",?[]\x7b\x7d".toList.contains x)

/-- Reads the characters of a plain scalar up to the next separation. -/
def readPlainWord (inFlow : Bool) : (fuel : Nat) → (read : List Char) → Cursor →
    List Char × Cursor
  | 0, read, c => (read, c)
  | fuel + 1, read, c =>
    if endsPlain inFlow c then (read, c) else readPlainWord inFlow fuel (c.peek :: read) c.advance

/-- Skips blank lines inside a plain scalar. A marker of a document ends the scalar. -/
def readPlainBreaks : (fuel : Nat) → (breaks : List Char) → Cursor → Option (List Char) × Cursor
  | 0, breaks, c => (some breaks, c)
  | fuel + 1, breaks, c =>
    if c.peek = ' ' then readPlainBreaks fuel breaks c.advance
    else match c.lineBreak? with
      | none => (some breaks, c)
      | some (x, c) =>
        if c.atDocumentMarker then (none, c) else readPlainBreaks fuel (x :: breaks) c

/-- What stands between two words of a plain scalar, and whether it has a line end. Nothing stands
there if the scalar ends. -/
structure PlainGap where
  between : List Char
  newLine : Bool

/-- Reads what stands behind a word of a plain scalar. -/
def readPlainGap (fuel : Nat) (c : Cursor) : PlainGap × Cursor :=
  let (spaces, c) := c.takeWhile (· = ' ')
  match c.lineBreak? with
  | none => (⟨spaces, false⟩, c)
  | some (x, c) =>
    if c.atDocumentMarker then (⟨[], true⟩, c)
    else match readPlainBreaks fuel [] c with
      | (none, c) => (⟨[], true⟩, c)
      | (some breaks, c) => (⟨joinLines x breaks, true⟩, c)

/-- A plain scalar that has been read: its characters, and whether a line end follows them. -/
structure PlainText where
  read : List Char
  newLine : Bool

/-- Reads the words of a plain scalar. `between` is what stands in front of the next word, and
counts only if there is one; lines that are not indented to `indent` are not part of the scalar. -/
def readPlainWords (inFlow : Bool) (indent : Int) : (fuel : Nat) → (read between : List Char) →
    (newLine : Bool) → Cursor → PlainText × Cursor
  | 0, read, _, newLine, c => (⟨read, newLine⟩, c)
  | fuel + 1, read, between, newLine, c =>
    if c.peek = '#' then (⟨read, newLine⟩, c)
    else match readPlainWord inFlow (fuel + 1) [] c with
      | ([], _) => (⟨read, newLine⟩, c)
      | (word, c) =>
        let read := word ++ (between ++ read)
        let (gap, c) := readPlainGap (fuel + 1) c
        if gap.between.isEmpty || c.peek = '#' || (!inFlow && (c.column : Int) < indent) then
          (⟨read, gap.newLine⟩, c)
        else readPlainWords inFlow indent fuel read gap.between gap.newLine c

/-- The plain scalar that starts here, inside a node that is indented to `outer`, and whether a line
end follows it. -/
def readPlain (fuel : Nat) (inFlow : Bool) (outer : Int) (c : Cursor) : (Token × Bool) × Cursor :=
  let (text, c) := readPlainWords inFlow (outer + 1) fuel [] [] false c
  ((.scalar true (String.ofList text.read.reverse), text.newLine), c)

end Argumentation.Markup
