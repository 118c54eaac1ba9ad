import Argumentation.CommandLine.Option
import Argumentation.Text.Digit

/-!
# Words of a command line

What each word behind a command is, before any of them is worked out. A word that starts with a
dash is an option if the command has one of that name, of which a long name may be shortened as long
as no other begins alike, and a short one may have its value or further short options right behind
it. Negative numbers and texts with spaces are no options. Two dashes alone end the options.
-/

namespace Argumentation.CommandLine

/-- A word. -/
inductive Word (κ : Type) where
  | plain (text : String)
  /-- The end of the options. -/
  | separator
  /-- An option, under a short name or a long one, and what is attached to it in the same word. -/
  | known (text : String) (option : CommandOption κ) (short : Bool) (attached : Option (List Char))
  /-- What looks like an option and is none. -/
  | unknown (text : String)

namespace Word

/-- The characters of the word that ends the options. -/
def separatorText : String := "--"

/-- The word as it was written. -/
def text {κ : Type} : Word κ → String
  | .plain text => text
  | .separator => separatorText
  | .known text _ _ _ => text
  | .unknown text => text

/-- What stands before the first equals sign, and what stands behind it. -/
def splitMark (cs : List Char) : List Char × Option (List Char) :=
  match cs.span (· ≠ '=') with
  | (front, '=' :: back) => (front, some back)
  | (front, _) => (front, none)

/-- Whether the name is one of a single character. -/
def isShort : List Char → Bool
  | '-' :: '-' :: _ => false
  | _ => true

/-- Whether the text is a negative number: digits, or digits around a point. A line feed may
follow. -/
def isNegativeNumber : List Char → Bool
  | '-' :: cs =>
    let body := if cs.getLast? = some '\n' then cs.dropLast else cs
    let isDigit (c : Char) : Bool := (Text.decimalValue? c).isSome
    match body.span isDigit with
    | (whole, []) => !whole.isEmpty
    | (_, '.' :: fraction) => !fraction.isEmpty && fraction.all isDigit
    | _ => false
  | _ => false

/-- The options that a word may mean whose name it does not give in full, under their full names. -/
def candidates {κ : Type} (c : Command κ) (cs : List Char) :
    List (String × CommandOption κ × Bool × Option (List Char)) :=
  match cs with
  | '-' :: '-' :: _ =>
    let (front, back) := splitMark cs
    (c.names.filter fun entry => front.isPrefixOf entry.1.toList).map fun entry =>
      (entry.1, entry.2, false, back)
  | '-' :: letter :: rest =>
    ((c.names.lookup (String.ofList ['-', letter])).map fun option =>
      (String.ofList ['-', letter], option, true, some rest)).toList
  | _ => []

/-- The option whose full name a word gives, alone or before an equals sign. -/
def named? {κ : Type} (c : Command κ) (text : String) : Option (Word κ) :=
  let cs := text.toList
  match c.names.lookup text with
  | some option => some (.known text option (isShort cs) none)
  | none =>
    match splitMark cs with
    | (front, some back) =>
      (c.names.lookup (String.ofList front)).map fun option =>
        .known text option (isShort cs) (some back)
    | _ => none

/-- The word that starts with a dash and goes on behind it. -/
def ofDashed {κ : Type} (c : Command κ) (text : String) : Except Misuse (Word κ) :=
  match named? c text with
  | some word => .ok word
  | none =>
    match candidates c text.toList with
    | [(_, option, short, attached)] => .ok (.known text option short attached)
    | [] =>
      if isNegativeNumber text.toList || text.toList.contains ' ' then .ok (.plain text)
      else .ok (.unknown text)
    | several => .error (.ambiguous text (several.map (·.1)))

/-- The word that a text is. -/
def ofText {κ : Type} (c : Command κ) (text : String) : Except Misuse (Word κ) :=
  match text.toList with
  | '-' :: _ :: _ => ofDashed c text
  | _ => .ok (.plain text)

/-- The words that texts are. -/
def ofTexts {κ : Type} (c : Command κ) : List String → Except Misuse (List (Word κ))
  | [] => .ok []
  | text :: texts =>
    if text = separatorText then .ok (.separator :: texts.map .plain)
    else do
      let word ← ofText c text
      return word :: (← ofTexts c texts)

end Word

end Argumentation.CommandLine
