import Argumentation.Markup.Token.Block
import Argumentation.Markup.Token.Flow

/-!
# Reading the tokens of a document

The text of a document becomes a list of tokens. The reader keeps the indentation of the open
blocks, and for every open bracket the place where a key may have started: that a token is the key
of an entry shows only at the colon behind it, and the marks in front of the key are put in then.
A key has to stand on one line and to end within 1024 characters. Where the text cannot be read
further, the tokens end in front of the first place at which a key may have started, because what
stands there is not known.
-/

namespace Argumentation.Markup

/-- A place where a key may have started. -/
structure KeyPlace where
  /-- The number of tokens in front of the place. -/
  number : Nat
  /-- Whether nothing but a key can stand there. -/
  required : Bool
  index : Nat
  line : Nat
  column : Nat

/-- A reader of tokens under way. -/
structure Lexer where
  cursor : Cursor
  /-- The tokens so far, the last one first. -/
  tokens : List Token
  /-- The number of tokens so far. -/
  size : Nat
  /-- The column of the innermost open block, and -1 if none is open. -/
  indent : Int
  /-- The columns of the blocks around it. -/
  outer : List Int
  /-- The possible key outside of the innermost open bracket. -/
  key : Option KeyPlace
  /-- The possible keys outside of the brackets around it. -/
  outerKeys : List (Option KeyPlace)
  /-- Whether a key may start at the next token. -/
  allowKey : Bool

namespace Lexer

/-- The reader in front of a text. -/
def start (cs : List Char) : Lexer := ⟨.start cs, [], 0, -1, [], none, [], true⟩

/-- Whether a bracket is open. -/
def inFlow (l : Lexer) : Bool := !l.outerKeys.isEmpty

/-- The reader with one more token. -/
def push (t : Token) (l : Lexer) : Lexer := { l with tokens := t :: l.tokens, size := l.size + 1 }

/-- The reader with a token put in behind the first `number` ones. -/
def pushAt (number : Nat) (t : Token) (l : Lexer) : Lexer :=
  let behind := l.size - number
  { l with
    tokens := l.tokens.take behind ++ t :: l.tokens.drop behind
    size := l.size + 1 }

/-! ### Spaces between tokens -/

/-- Skips spaces, comments and line ends. A line end outside of brackets allows a key. -/
def skipBetween : (fuel : Nat) → Lexer → Lexer
  | 0, l => l
  | fuel + 1, l =>
    let c := l.cursor.skipSpaces
    let c := if c.peek = '#' then c.skipLine else c
    match c.lineBreak? with
    | some (_, c) => skipBetween fuel { l with cursor := c, allowKey := l.allowKey || !l.inFlow }
    | none => { l with cursor := c }

/-- Skips a byte order mark at the very beginning, and what stands between tokens. -/
def skipToToken (fuel : Nat) (l : Lexer) : Lexer :=
  let l := if l.cursor.index = 0 && l.cursor.peek = '\ufeff' then
      { l with cursor := l.cursor.advance }
    else l
  l.skipBetween fuel

/-! ### Possible keys -/

/-- Whether a key that started at the place would be too long by now. -/
def isStale (c : Cursor) (k : KeyPlace) : Bool := k.line ≠ c.line || k.index + 1024 < c.index

/-- The possible key, unless it is too long by now. One that is required must not be. -/
def freshKey (c : Cursor) : Option KeyPlace → Except Fault (Option KeyPlace)
  | none => .ok none
  | some k =>
    if !isStale c k then .ok (some k)
    else if k.required then .error .malformed
    else .ok none

/-- Gives up the possible keys that are too long by now. -/
def dropStaleKeys (l : Lexer) : Except Fault Lexer := do
  let key ← freshKey l.cursor l.key
  let outerKeys ← l.outerKeys.mapM (freshKey l.cursor)
  return { l with key, outerKeys }

/-- Gives up the possible key outside of the innermost open bracket. -/
def dropKey (l : Lexer) : Except Fault Lexer :=
  if (l.key.map (·.required)).getD false then .error .malformed else .ok { l with key := none }

/-- Notes that a key may start here. -/
def saveKey (l : Lexer) : Except Fault Lexer := do
  if !l.allowKey then return l
  let l ← l.dropKey
  let c := l.cursor
  let required := !l.inFlow && decide (l.indent = c.column)
  return { l with key := some ⟨l.size, required, c.index, c.line, c.column⟩ }

/-! ### Indentation -/

/-- Closes the blocks that are indented further than the column. -/
def closeBlocks (column : Int) (l : Lexer) : Lexer :=
  if l.inFlow then l
  else
    let rec close (l : Lexer) : (indent : Int) → (outer : List Int) → Lexer
      | indent, [] => { l with indent, outer := [] }
      | indent, i :: outer =>
        if column < indent then close (l.push .blockEnd) i outer
        else { l with indent, outer := i :: outer }
    close l l.indent l.outer

/-- Opens a block at the column, with `mark` in front of the first `number` tokens' successor, if
the column is further in than that of the innermost open block. -/
def openBlock (column : Nat) (number : Nat) (mark : Token) (l : Lexer) : Lexer :=
  if !l.inFlow && decide (l.indent < column) then
    { l with indent := column, outer := l.indent :: l.outer }.pushAt number mark
  else l

/-! ### Tokens -/

/-- The reader behind `n` characters, which make up a token. -/
def take (n : Nat) (t : Token) (l : Lexer) : Lexer :=
  { l with cursor := l.cursor.advanceBy n }.push t

/-- The reader behind a token that has been read. -/
def accept (found : Token × Cursor) (l : Lexer) : Lexer :=
  { l with cursor := found.2 }.push found.1

/-- Whether an entry of a block may start here. Inside brackets the place of the entry is not
judged here. -/
def requireEntry (l : Lexer) : Except Fault Unit := require (l.inFlow || l.allowKey)

/-- The end of the text closes all blocks. -/
def readEnd (l : Lexer) : Except Fault Lexer := do
  let l ← (l.closeBlocks (-1)).dropKey
  return l.push .streamEnd

/-- A directive. -/
def readDirectiveToken (l : Lexer) : Except Fault Lexer := do
  let l ← (l.closeBlocks (-1)).dropKey
  let (d, c) ← readDirective l.cursor
  return { l with allowKey := false }.accept (.directive d, c)

/-- A marker of a document's beginning or end. -/
def readMarker (t : Token) (l : Lexer) : Except Fault Lexer := do
  let l ← (l.closeBlocks (-1)).dropKey
  return { l with allowKey := false }.take 3 t

/-- An opening bracket, which may be the start of a key. -/
def readOpening (t : Token) (l : Lexer) : Except Fault Lexer := do
  let l ← l.saveKey
  return { l with outerKeys := l.key :: l.outerKeys, key := none, allowKey := true }.take 1 t

/-- A closing bracket. -/
def readClosing (t : Token) (l : Lexer) : Except Fault Lexer := do
  let l ← l.dropKey
  let l := match l.outerKeys with
    | [] => l
    | key :: outerKeys => { l with key, outerKeys }
  return { l with allowKey := false }.take 1 t

/-- A comma between the members of a bracket. -/
def readFlowEntry (l : Lexer) : Except Fault Lexer := do
  let l ← l.dropKey
  return { l with allowKey := true }.take 1 .flowEntry

/-- A hyphen in front of a member of a block. -/
def readBlockEntry (l : Lexer) : Except Fault Lexer := do
  l.requireEntry
  let l := l.openBlock l.cursor.column l.size .blockSequenceStart
  let l ← l.dropKey
  return { l with allowKey := true }.take 1 .blockEntry

/-- A question mark in front of a key. -/
def readKey (l : Lexer) : Except Fault Lexer := do
  l.requireEntry
  let l := l.openBlock l.cursor.column l.size .blockMappingStart
  let l ← l.dropKey
  return { l with allowKey := !l.inFlow }.take 1 .key

/-- A colon in front of a value. The key before it is marked if it can be one. -/
def readValue (l : Lexer) : Except Fault Lexer := do
  match l.key with
  | some k =>
    let l := { l with key := none, allowKey := false }.pushAt k.number .key
    return (l.openBlock k.column k.number .blockMappingStart).take 1 .value
  | none =>
    l.requireEntry
    let l := l.openBlock l.cursor.column l.size .blockMappingStart
    return { l with allowKey := !l.inFlow }.take 1 .value

/-- A token that may be the start of a key. -/
def readKeyed (read : Cursor → Except Fault (Token × Cursor)) (l : Lexer) : Except Fault Lexer := do
  let l ← l.saveKey
  return { l with allowKey := false }.accept (← read l.cursor)

/-- A block scalar. -/
def readBlockScalar (fuel : Nat) (folded : Bool) (l : Lexer) : Except Fault Lexer := do
  let l ← l.dropKey
  return { l with allowKey := true }.accept (← readBlock fuel folded l.indent l.cursor)

/-- A plain scalar. A line end inside it or behind it allows a key. -/
def readPlainScalar (fuel : Nat) (l : Lexer) : Except Fault Lexer := do
  let l ← l.saveKey
  let ((t, newLine), c) := readPlain fuel l.inFlow l.indent l.cursor
  return { l with allowKey := newLine }.accept (t, c)

/-- The characters with which no plain scalar starts, unless text follows some of them. -/
def indicators : List Char := "-?:,[]\x7b\x7d#&*!|>\x27\"%@\x60".toList

/-- Whether a plain scalar starts here. -/
def startsPlain (l : Lexer) : Bool :=
  let x := l.cursor.peek
  (!isSeparation x && !indicators.contains x) ||
    (!isSeparation (l.cursor.peekAt 1) && (x = '-' || (!l.inFlow && (x = '?' || x = ':'))))

/-- Reads the token that starts here. -/
def readToken (fuel : Nat) (l : Lexer) : Except Fault Lexer :=
  let c := l.cursor
  let x := c.peek
  let separate := isSeparation (c.peekAt 1)
  if c.column = 0 && x = '%' then l.readDirectiveToken
  else if c.column = 0 && c.atMarker '-' then l.readMarker .documentStart
  else if c.column = 0 && c.atMarker '.' then l.readMarker .documentEnd
  else if x = '[' then l.readOpening .flowSequenceStart
  else if x = '\x7b' then l.readOpening .flowMappingStart
  else if x = ']' then l.readClosing .flowSequenceEnd
  else if x = '\x7d' then l.readClosing .flowMappingEnd
  else if x = ',' then l.readFlowEntry
  else if x = '-' && separate then l.readBlockEntry
  else if x = '?' && (l.inFlow || separate) then l.readKey
  else if x = ':' && (l.inFlow || separate) then l.readValue
  else if x = '*' then l.readKeyed fun c => (readName c).map fun (name, c) => (.aliasOf name, c)
  else if x = '&' then l.readKeyed fun c => (readName c).map fun (name, c) => (.anchor name, c)
  else if x = '!' then l.readKeyed fun c => (readTag c).map fun (tag, c) => (.tag tag, c)
  else if x = '|' && !l.inFlow then l.readBlockScalar fuel false
  else if x = '>' && !l.inFlow then l.readBlockScalar fuel true
  else if x = '\x27' || x = '"' then l.readKeyed (readQuoted fuel)
  else if l.startsPlain then l.readPlainScalar fuel
  else .error .malformed

/-- Goes on to the next token and reads it. -/
def step (fuel : Nat) (l : Lexer) : Except Fault Lexer := do
  let l ← (l.skipToToken fuel).dropStaleKeys
  let l := l.closeBlocks l.cursor.column
  if l.cursor.rest.isEmpty then l.readEnd else (← l.readToken fuel).dropStaleKeys

/-- The number of tokens that nothing read later can change: a mark can still be put in where a key
may have started. -/
def settled (l : Lexer) : Nat :=
  (l.key :: l.outerKeys).foldl (fun n key => min n ((key.map (·.number)).getD n)) l.size

/-- The tokens of a text that cannot be read further: those that were settled before, and the
fault. -/
def endAt (l : Lexer) (f : Fault) : List Token :=
  (Token.fault f :: l.tokens.drop (l.size - l.settled)).reverse

/-- Reads token after token. -/
def run (size : Nat) : (fuel : Nat) → Lexer → List Token
  | 0, l => l.endAt .malformed
  | fuel + 1, l =>
    match l.step size with
    | .error f => l.endAt f
    | .ok next =>
      match next.tokens with
      | .streamEnd :: _ => next.tokens.reverse
      | _ => run size fuel next

end Lexer

/-- The characters of which a document may consist. -/
def isAllowed (c : Char) : Bool :=
  let n := c.toNat
  n = 0x09 || n = 0x0a || n = 0x0d || (0x20 ≤ n && n ≤ 0x7e) || n = 0x85 ||
    (0xa0 ≤ n && n ≤ 0xd7ff) || (0xe000 ≤ n && n ≤ 0xfffd) || 0x10000 ≤ n

/-- The tokens of a document. -/
def tokens (cs : List Char) : List Token :=
  if cs.all isAllowed then
    let size := cs.length + 2
    (Lexer.start cs).run size size
  else [.fault .malformed]

end Argumentation.Markup
