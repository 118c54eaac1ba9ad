import Argumentation.Text.Blank

/-!
# Exhibits

The exhibit of a document, taken from the lines of the document itself, so that its comments and
line breaks survive. A value on the line of the key is the exhibit. Otherwise the exhibit is the
block of lines below, up to the next line that starts in the first column, without the margin that
its lines have in common and without blank lines at its end.
-/

namespace Argumentation.Exhibit

/-- What follows the key and its colon on the line that introduces the exhibit. -/
def header? (line : List Char) : Option (List Char) :=
  match ("exhibit".toList.isPrefixOf? line).map fun rest => rest.dropWhile Text.isBlank with
  | some (':' :: rest) => some (Text.trim rest)
  | _ => none

/-- What follows the key on the first line that introduces an exhibit, and the lines below it. -/
def find? : List (List Char) → Option (List Char × List (List Char))
  | [] => none
  | line :: lines =>
    match header? line with
    | some rest => some (rest, lines)
    | none => find? lines

/-- The marks after the key that announce a block. -/
def blockMarks : List (List Char) := ["|".toList, ">".toList, "|-".toList, ">-".toList]

/-- Whether the rest of the line announces a block: a mark, nothing, or a comment. -/
def announcesBlock (rest : List Char) : Bool :=
  blockMarks.contains rest || rest.isEmpty || rest.head? == some '#'

/-- Whether the line belongs to a block: it is blank, or it does not start in the first column. -/
def inBlock (line : List Char) : Bool :=
  Text.isBlankLine line || (line.head?.map Text.isBlank).getD true

/-- The number of blank characters at the start of a line. -/
def margin (line : List Char) : Nat := (line.takeWhile Text.isBlank).length

/-- The least margin of the lines that are not blank, if there is such a line. -/
def commonMargin? (lines : List (List Char)) : Option Nat :=
  ((lines.filter fun line => !Text.isBlankLine line).map margin).min?

/-- The line without its first `n` characters; a line that has fewer is kept. -/
def cut (n : Nat) (line : List Char) : List Char := if n ≤ line.length then line.drop n else line

/-- The lines without the blank ones at their end. -/
def dropBlankEnd (lines : List (List Char)) : List (List Char) :=
  (lines.reverse.dropWhile Text.isBlankLine).reverse

/-- The text of a block, if one of its lines is not blank. -/
def ofBlock (lines : List (List Char)) : Option (List Char) :=
  (commonMargin? lines).map fun n =>
    ['\n'].intercalate (dropBlankEnd (lines.map (cut n)))

/-- The exhibit that the lines of a document hold. -/
def ofLines (lines : List (List Char)) : Option (List Char) :=
  (find? lines).bind fun (rest, below) =>
    if announcesBlock rest then ofBlock (below.takeWhile inBlock) else some rest

/-- The exhibit that the text of a document holds. -/
def extract (text : String) : Option String :=
  (ofLines (Text.splitAt '\n' text.toList)).map String.ofList

end Argumentation.Exhibit
