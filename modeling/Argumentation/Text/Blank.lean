/-!
# Blank characters

Two sets of blank characters, and what is left of a text when its ends are cleared of them.
`isWhiteSpace` is the Unicode property of that name. `isBlank` adds the four information
separators, which end and separate records and so count as blank where lines of a document are
measured.
-/

namespace Argumentation.Text

/-- The twenty-five characters with the Unicode property `White_Space`. -/
def isWhiteSpace (c : Char) : Bool :=
  let n := c.toNat
  (0x09 ≤ n && n ≤ 0x0d) || n == 0x20 || n == 0x85 || n == 0xa0 || n == 0x1680 ||
    (0x2000 ≤ n && n ≤ 0x200a) || n == 0x2028 || n == 0x2029 || n == 0x202f || n == 0x205f ||
    n == 0x3000

/-- White space, and the information separators U+001C to U+001F. -/
def isBlank (c : Char) : Bool :=
  isWhiteSpace c || (0x1c ≤ c.toNat && c.toNat ≤ 0x1f)

/-- The characters from the first one outside `p` to the last one outside it. -/
def trimBoth (p : Char → Bool) (cs : List Char) : List Char :=
  (((cs.dropWhile p).reverse).dropWhile p).reverse

/-- The text without the blank characters at its two ends. -/
def trim (cs : List Char) : List Char := trimBoth isBlank cs

/-- A line that holds nothing but blank characters, or nothing at all. -/
def isBlankLine (cs : List Char) : Bool := cs.all isBlank

/-- What `splitAt` does with one character in front of the pieces of the rest. -/
def splitStep (sep c : Char) : List (List Char) → List (List Char)
  | [] => [[c]]
  | piece :: pieces => if c = sep then [] :: piece :: pieces else (c :: piece) :: pieces

/-- The pieces between the occurrences of `sep`: one more than there are occurrences. -/
def splitAt (sep : Char) (cs : List Char) : List (List Char) := cs.foldr (splitStep sep) [[]]

theorem splitAt_nil (sep : Char) : splitAt sep [] = [[]] := rfl

theorem splitAt_cons (sep c : Char) (cs : List Char) :
    splitAt sep (c :: cs) = splitStep sep c (splitAt sep cs) := rfl

end Argumentation.Text
