import Argumentation.Decimal.Numeral
import Argumentation.Text.Utf8
import Argumentation.Validation.Issue

/-!
# Fields

How the value of a field is read as a whole number, a truth value or a text. Whole numbers and truth
values may be written in several ways; a text has to be one, or the bytes that encode it. Checks of
several fields run side by side: `both` keeps the issues of each.
-/

namespace Argumentation.Field

/-! ### Whole numbers -/

/-- The text without a fraction at its end that consists of zeros. -/
def dropZeroFraction (cs : List Char) : List Char :=
  match cs.span (· != '.') with
  | (whole, '.' :: zeros) => if !zeros.isEmpty && zeros.all (· == '0') then whole else cs
  | _ => cs

/-- What is left of the text without the zeros at its beginning and underscores between them; one
zero stays in front of a point and at the end. The text has to start with a digit or a minus sign,
and another one has to follow zeros, or else a point or nothing. -/
def dropZeros : List Char → Option (List Char)
  | [] => none
  | c :: cs =>
    if c = '0' then behindZeros c cs
    else if Decimal.isDigit c || c = '-' then some (c :: cs)
    else none
where
  /-- What is left behind zeros and underscores, the last of which is `last`. -/
  behindZeros (last : Char) : List Char → Option (List Char)
    | [] => some [last]
    | c :: cs =>
      if c = '0' || c = '_' then behindZeros c cs
      else if Decimal.isDigit c || c = '-' then some (c :: cs)
      else if c = '.' then some (last :: c :: cs)
      else none

/-- Whether two underscores stand next to each other. -/
def hasDoubleLine : List Char → Bool
  | '_' :: '_' :: _ => true
  | _ :: cs => hasDoubleLine cs
  | [] => false

/-- The text without underscores, if they are single and neither its first nor its last character. -/
def dropLines (cs : List Char) : List Char :=
  if cs.head? == some '_' || cs.getLast? == some '_' || hasDoubleLine cs then cs
  else cs.filter (· ≠ '_')

/-- The text in the form in which whole numbers are read, without what people may add to it: white
space, a plus sign, zeros, underscores and a fraction of zeros. -/
def tidied (cs : List Char) : Option (List Char) :=
  match Text.trimBoth Text.isWhiteSpace cs with
  | '+' :: '-' :: _ => none
  | '+' :: cs => body cs
  | '-' :: cs => (body cs).map ('-' :: ·)
  | cs => body cs
where
  /-- The form of a text without a sign. -/
  body (cs : List Char) : Option (List Char) :=
    (dropZeros cs).map fun cs => dropLines (dropZeroFraction cs)

/-- The whole number that a text in this form writes: digits without a zero in front of them, or a
single zero, and possibly a minus sign. The sign counts where the text is too long. -/
def tidyWhole (cs : List Char) : Except IssueKind Int :=
  let negative := cs.head? == some '-'
  let (digits, rest) := (if negative then cs.drop 1 else cs).span Decimal.isDigit
  if digits.isEmpty then .error .unreadableWhole
  else if digits.head? == some '0' then
    if digits.length = 1 && rest.isEmpty then .ok 0 else .error .unreadableWhole
  else if Decimal.digitLimit < cs.length - rest.length then .error .oversizedWhole
  else if rest.isEmpty then .ok (Decimal.signed 10 negative digits)
  else .error .unreadableWhole

/-- The whole number that a text writes. Its length is judged only where it needs no tidying. -/
def wholeOfText (cs : List Char) : Except IssueKind Int :=
  match tidyWhole cs with
  | .ok n => .ok n
  | .error .oversizedWhole => .error .oversizedWhole
  | .error _ =>
    match (tidied cs).map tidyWhole with
    | some (.ok n) => .ok n
    | _ => .error .unreadableWhole

/-- The least size of a double that is too large for a whole number. -/
def wholeBound : Int := 0x8000000000000000

/-- The whole number that a double is. -/
def wholeOfDouble (x : Float) : Except IssueKind Int :=
  if !Decimal.isFinite x then .error .notFinite
  else match Decimal.whole? x with
    | none => .error .fractionalWhole
    | some n => if -wholeBound < n && n < wholeBound then .ok n else .error .oversizedWhole

/-- The whole number that a value stands for. -/
def whole : Value → Except IssueKind Int
  | .int i => .ok i
  | .bool b => .ok (if b then 1 else 0)
  | .float x => wholeOfDouble x
  | .text s => wholeOfText s.toList
  | .bytes bs =>
    match Text.Utf8.decode bs with
    | .ok cs => wholeOfText cs
    | .error _ => .error .unreadableWhole
  | _ => .error .notWhole

/-! ### Truth values -/

/-- The words for false, and with `true` those for true. -/
def truthWords : Bool → List String
  | false => ["0", "off", "f", "false", "n", "no"]
  | true => ["1", "on", "t", "true", "y", "yes"]

/-- The truth value that a number stands for. -/
def truthOfWhole (n : Int) : Except IssueKind Bool :=
  if n = 0 then .ok false
  else if n = 1 then .ok true
  else if -wholeBound ≤ n && n < wholeBound then .error .unreadableTruth
  else .error .notTruth

/-- The truth value that a value stands for. -/
def truth : Value → Except IssueKind Bool
  | .bool b => .ok b
  | .int i => truthOfWhole i
  | .float x =>
    match wholeOfDouble x with
    | .ok n => truthOfWhole n
    | .error _ => .error .notTruth
  | .text s =>
    let word := String.ofList (s.toList.map Char.toLower)
    if (truthWords true).contains word then .ok true
    else if (truthWords false).contains word then .ok false
    else .error .unreadableTruth
  | _ => .error .notTruth

/-! ### Texts -/

/-- The text that a value is, or that its bytes encode. -/
def text : Value → Except IssueKind String
  | .text s => .ok s
  | .bytes bs => ((Text.Utf8.decode bs).map String.ofList).mapError fun _ => .undecodableText
  | _ => .error .notText

/-! ### Checks side by side -/

/-- The outcome of a check: a result, or everything that is wrong. -/
abbrev Checked (α : Type) := Except (List Issue) α

/-- The check of a value that stands at a place. -/
def checkAt {α : Type} (place : List Place) (read : Value → Except IssueKind α) (v : Value) :
    Checked α :=
  (read v).mapError fun kind => [⟨place, kind, v⟩]

/-- Two checks, of which both have to succeed. The issues of both are kept. -/
def both {α β γ : Type} (combine : α → β → γ) : Checked α → Checked β → Checked γ
  | .ok a, .ok b => .ok (combine a b)
  | .ok _, .error es => .error es
  | .error es, .ok _ => .error es
  | .error es, .error fs => .error (es ++ fs)

/-- Checks that all have to succeed. The issues of all are kept. -/
def every {α : Type} (checks : List (Checked α)) : Checked (List α) :=
  checks.foldr (both List.cons) (.ok [])

end Argumentation.Field
