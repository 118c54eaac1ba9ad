import Argumentation.Markup.Token.Word

/-!
# Block scalars

Scalars that are written on lines of their own, below a mark. The lines of a block are those that
are indented as far as the first one that is not blank, or as far as the header says. In a literal
block every line end is kept; in a folded one a single line end between two lines that start with
text becomes a space. The header also says what becomes of the line ends at the end of the block.
-/

namespace Argumentation.Markup

/-- What becomes of the line ends at the end of a block. -/
inductive Chomping where
  /-- One of them is kept. -/
  | clip
  /-- None is kept. -/
  | strip
  /-- All are kept. -/
  | keep
  deriving DecidableEq, Repr

/-- The header of a block: its chomping, and how far it is indented beyond the node around it. -/
structure BlockHeader where
  chomping : Chomping
  increment : Option Nat

/-- The chomping that the mark at this place asks for. -/
def chompingAt (c : Cursor) : Option Chomping :=
  if c.peek = '+' then some .keep else if c.peek = '-' then some .strip else none

/-- The indentation that the digit at this place asks for. Zero is refused. -/
def incrementAt (c : Cursor) : Except Fault (Option Nat) :=
  if Decimal.isDigit c.peek then
    if c.peek = '0' then .error .malformed else .ok (some (Decimal.digitValue c.peek))
  else .ok none

/-- The header that stands here; its two marks may come in either order. -/
def readHeader (c : Cursor) : Except Fault (BlockHeader × Cursor) := do
  match chompingAt c with
  | some chomping =>
    let c := c.advance
    let increment ← incrementAt c
    let c := if increment.isSome then c.advance else c
    require (isGap c.peek)
    return (⟨chomping, increment⟩, c)
  | none =>
    let increment ← incrementAt c
    let c := if increment.isSome then c.advance else c
    let chomping := if increment.isSome then chompingAt c else none
    let c := if chomping.isSome then c.advance else c
    require (isGap c.peek)
    return (⟨chomping.getD .clip, increment⟩, c)

/-- Skips blank lines before the first line of a block, and gives their line ends, the last one
first, and the greatest column that a space of theirs reaches. -/
def leadingBreaks : (fuel : Nat) → (breaks : List Char) → (column : Nat) → Cursor →
    List Char × Nat × Cursor
  | 0, breaks, column, c => (breaks, column, c)
  | fuel + 1, breaks, column, c =>
    if c.peek = ' ' then leadingBreaks fuel breaks (max column c.advance.column) c.advance
    else match c.lineBreak? with
      | some (x, c) => leadingBreaks fuel (x :: breaks) column c
      | none => (breaks, column, c)

/-- Skips the indentation of a line. -/
def skipIndent : (width : Nat) → Cursor → Cursor
  | 0, c => c
  | width + 1, c => if c.peek = ' ' then skipIndent width c.advance else c

/-- Skips blank lines inside a block, and gives their line ends, the last one first. -/
def innerBreaks (indent : Nat) : (fuel : Nat) → (breaks : List Char) → Cursor → List Char × Cursor
  | 0, breaks, c => (breaks, c)
  | fuel + 1, breaks, c =>
    let c := skipIndent (indent - c.column) c
    match c.lineBreak? with
    | some (x, c) => innerBreaks indent fuel (x :: breaks) c
    | none => (breaks, c)

/-- Whether the next line belongs to a block that is indented to `indent`. -/
def inBlock (indent : Nat) (c : Cursor) : Bool := c.column = indent && c.peek ≠ endMark

/-- What stands for the line end between two lines of a block, the second of which starts at `c`. -/
def foldBreak (folded : Bool) (line breaks : List Char) (lineEnd : Option Char) (c : Cursor) :
    List Char :=
  let textual := !((line.head?.map isIndent).getD false) && !isIndent c.peek
  if folded && lineEnd = some '\n' && textual then if breaks.isEmpty then [' '] else []
  else lineEnd.toList

/-- Reads the lines of a block. `read` holds the characters so far and `breaks` the line ends of the
blank lines before the next line, both with the last one first. Gives the characters, the end of the
last line and the line ends after it. -/
def readLines (folded : Bool) (indent : Nat) :
    (fuel : Nat) → (read breaks : List Char) → (lineEnd : Option Char) → Cursor →
    List Char × Option Char × List Char × Cursor
  | 0, read, breaks, lineEnd, c => (read, lineEnd, breaks, c)
  | fuel + 1, read, breaks, lineEnd, c =>
    if !inBlock indent c then (read, lineEnd, breaks, c)
    else
      let (line, c) := c.takeWhile fun x => !isLineEnd x
      let read := line.reverse ++ (breaks ++ read)
      let (lineEnd, c) := match c.lineBreak? with
        | some (x, c) => (some x, c)
        | none => (none, c)
      let (breaks, c) := innerBreaks indent (fuel + 1) [] c
      let read := if inBlock indent c then foldBreak folded line breaks lineEnd c ++ read else read
      readLines folded indent fuel read breaks lineEnd c

/-- The block scalar whose mark stands here, inside a node that is indented to `outer`. -/
def readBlock (fuel : Nat) (folded : Bool) (outer : Int) (c : Cursor) :
    Except Fault (Token × Cursor) := do
  let (header, c) ← readHeader c.advance
  let c ← finishLine c
  let least := (max 1 (outer + 1)).toNat
  let (indent, breaks, c) := match header.increment with
    | none =>
      let (breaks, column, c) := leadingBreaks fuel [] 0 c
      (max least column, breaks, c)
    | some n =>
      let indent := least + n - 1
      let (breaks, c) := innerBreaks indent fuel [] c
      (indent, breaks, c)
  let (read, lineEnd, breaks, c) := readLines folded indent fuel [] breaks none c
  let tail := match header.chomping with
    | .strip => []
    | .clip => lineEnd.toList
    | .keep => breaks ++ lineEnd.toList
  return (.scalar false (String.ofList (tail ++ read).reverse), c)

end Argumentation.Markup
