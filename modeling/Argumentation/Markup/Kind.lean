import Argumentation.Decimal.Reading
import Argumentation.Markup.Cursor
import Argumentation.Markup.Tree

/-!
# Kinds of nodes

What a node is. A tag says so outright; a plain scalar without a tag is recognised by its spelling,
and every other node without a tag is a text, a sequence or a mapping as it is written. A spelling
is judged without a line feed at its very end.
-/

namespace Argumentation.Markup

/-- What a node is. -/
inductive Kind where
  | null
  | bool
  | int
  | float
  | binary
  | timestamp
  | str
  | seq
  | map
  | set
  /-- A sequence of pairs of a key and a value, which is ordered and may repeat keys. -/
  | pairs
  /-- The key that merges other mappings into this one. -/
  | merge
  /-- The key whose value stands for the mapping where a scalar is wanted. -/
  | value
  /-- A kind that is not known here. -/
  | other
  deriving DecidableEq, Repr

namespace Kind

/-- The front part of the tags of known kinds. -/
def coreTag : String := "tag:yaml.org,2002:"

/-- The known kinds by the last part of their tags. -/
def names : List (String × Kind) :=
  [("null", .null), ("bool", .bool), ("int", .int), ("float", .float), ("binary", .binary),
    ("timestamp", .timestamp), ("omap", .pairs), ("pairs", .pairs), ("set", .set), ("str", .str),
    ("seq", .seq), ("map", .map), ("merge", .merge), ("value", .value)]

/-- The kind that a tag names. -/
def ofTag (tag : String) : Kind :=
  ((names.find? fun entry => coreTag ++ entry.1 == tag).map (·.2)).getD .other

/-! ### Spellings of numbers -/

/-- Whether the character is a digit or an underscore. -/
def isDigitOrLine (c : Char) : Bool := Decimal.isDigit c || c = '_'

/-- Whether the text starts with a digit and has only digits and underscores. -/
def isDigits : List Char → Bool
  | [] => false
  | c :: cs => Decimal.isDigit c && cs.all isDigitOrLine

/-- What follows a sign, if one stands here. -/
def dropSign : List Char → List Char
  | '-' :: cs | '+' :: cs => cs
  | cs => cs

/-- Whether the text is an exponent with a sign, or empty. -/
def isExponent : List Char → Bool
  | [] => true
  | mark :: sign :: cs =>
    (mark = 'e' || mark = 'E') && (sign = '-' || sign = '+') && !cs.isEmpty &&
      cs.all Decimal.isDigit
  | _ => false

/-- What follows groups of one or two digits below sixty with colons in front of them; there has to
be a group. -/
def afterSixties : List Char → Option (List Char)
  | ':' :: a :: b :: cs =>
    if Decimal.isDigit a && Decimal.isDigit b then
      if a ≤ '5' then some ((afterSixties cs).getD cs) else none
    else if Decimal.isDigit a then some ((afterSixties (b :: cs)).getD (b :: cs))
    else none
  | [':', a] => if Decimal.isDigit a then some [] else none
  | _ => none

/-- Whether the text, without a sign, is a decimal with a point. -/
def isPointed (cs : List Char) : Bool :=
  let (whole, rest) := cs.span isDigitOrLine
  match rest with
  | '.' :: fraction => isDigits whole && isExponent (fraction.dropWhile isDigitOrLine)
  | rest =>
    isDigits whole && match afterSixties rest with
      | some ('.' :: fraction) => fraction.all isDigitOrLine
      | _ => false

/-- Whether the text is spelled as a decimal. -/
def isFloat (cs : List Char) : Bool :=
  isPointed (dropSign cs) ||
    (match cs with
      | '.' :: fraction =>
        isDigits (fraction.takeWhile isDigitOrLine) &&
          isExponent (fraction.dropWhile isDigitOrLine)
      | _ => false) ||
    [".inf".toList, ".Inf".toList, ".INF".toList].contains (dropSign cs) ||
    [".nan".toList, ".NaN".toList, ".NAN".toList].contains cs

/-- Whether the character is a hexadecimal digit or an underscore. -/
def isHexOrLine (c : Char) : Bool :=
  isDigitOrLine c || ('a' ≤ c && c ≤ 'f') || ('A' ≤ c && c ≤ 'F')

/-- Whether the text is spelled as a whole number. -/
def isInt (cs : List Char) : Bool :=
  match dropSign cs with
  | '0' :: 'b' :: ds => !ds.isEmpty && ds.all fun c => c = '0' || c = '1' || c = '_'
  | '0' :: 'x' :: ds => !ds.isEmpty && ds.all isHexOrLine
  | '0' :: ds => ds.all fun c => ('0' ≤ c && c ≤ '7') || c = '_'
  | ds =>
    let (whole, rest) := ds.span isDigitOrLine
    isDigits whole && (rest.isEmpty || afterSixties rest == some [])

/-! ### Spellings of dates -/

/-- A date, and possibly a time of day, as it is written. -/
structure Stamp where
  year : List Char
  month : List Char
  day : List Char
  /-- Hour, minute and second. -/
  time : Option (List Char × List Char × List Char)
  fraction : List Char
  /-- Sign, hours and minutes of the distance from universal time. -/
  zone : Option (Char × List Char × List Char)

/-- The digits that stand here, if their number is allowed, and what follows. -/
def digitsOf (counts : List Nat) (cs : List Char) : Option (List Char × List Char) :=
  let (ds, rest) := cs.span Decimal.isDigit
  if counts.contains ds.length then some (ds, rest) else none

/-- What follows the given character, if it stands here. -/
def after (mark : Char) : List Char → Option (List Char)
  | c :: cs => if c = mark then some cs else none
  | [] => none

/-- The distance from universal time that stands here, if nothing follows it. -/
def readZone (cs : List Char) : Option (Option (Char × List Char × List Char)) :=
  match cs.dropWhile isIndent with
  | [] => if cs.isEmpty then some none else none
  | ['Z'] => some (some ('Z', [], []))
  | sign :: rest =>
    if sign = '-' || sign = '+' then do
      let (hours, rest) ← digitsOf [1, 2] rest
      match rest with
      | [] => return some (sign, hours, [])
      | rest =>
        let (minutes, rest) ← digitsOf [2] (← after ':' rest)
        if rest.isEmpty then return some (sign, hours, minutes) else none
    else none

/-- The date or moment that a text writes. -/
def readStamp (cs : List Char) : Option Stamp := do
  let (year, rest) ← digitsOf [4] cs
  let (month, rest) ← digitsOf [1, 2] (← after '-' rest)
  let (day, rest) ← digitsOf [1, 2] (← after '-' rest)
  match rest with
  | [] => return ⟨year, month, day, none, [], none⟩
  | mark :: rest =>
    let rest ← if mark = 'T' || mark = 't' then some rest
      else if isIndent mark then some (rest.dropWhile isIndent)
      else none
    let (hour, rest) ← digitsOf [1, 2] rest
    let (minute, rest) ← digitsOf [2] (← after ':' rest)
    let (second, rest) ← digitsOf [2] (← after ':' rest)
    let (fraction, rest) := match rest with
      | '.' :: rest => rest.span Decimal.isDigit
      | rest => ([], rest)
    let zone ← readZone rest
    return ⟨year, month, day, some (hour, minute, second), fraction, zone⟩

/-- Whether the text is spelled as a date or a moment. A date alone needs two digits for the month
and the day. -/
def isTimestamp (cs : List Char) : Bool :=
  match readStamp cs with
  | none => false
  | some s => s.time.isSome || (s.month.length = 2 && s.day.length = 2)

/-! ### Kinds by spelling -/

/-- The text without a line feed at its very end. -/
def dropLastBreak (cs : List Char) : List Char :=
  if cs.getLast? == some '\n' then cs.dropLast else cs

/-- The words for nothing and for the truth values. -/
def wordKinds : List (String × Kind) :=
  [("", .null), ("~", .null), ("null", .null), ("Null", .null), ("NULL", .null), ("true", .bool),
    ("True", .bool), ("TRUE", .bool), ("false", .bool), ("False", .bool), ("FALSE", .bool),
    ("<<", .merge), ("=", .value), ("!", .other), ("&", .other), ("*", .other)]

/-- The kind of a plain scalar. -/
def ofSpelling (text : String) : Kind :=
  let cs := dropLastBreak text.toList
  match wordKinds.lookup (String.ofList cs) with
  | some kind => if text.isEmpty || !cs.isEmpty then kind else .str
  | none =>
    if isFloat cs then .float
    else if isInt cs then .int
    else if isTimestamp cs then .timestamp
    else .str

/-- The kind of a scalar with the given tag. -/
def ofScalar (tag : Option String) (plain : Bool) (text : String) : Kind :=
  match tag with
  | none => if plain then ofSpelling text else .str
  | some "!" => ofSpelling text
  | some tag => ofTag tag

/-- The kind of a collection with the given tag, which is `plain` where none is given. -/
def ofCollection (tag : Option String) (plain : Kind) : Kind :=
  match tag with
  | none | some "!" => plain
  | some tag => ofTag tag

end Kind

end Argumentation.Markup
