import Argumentation.Decimal.Reading
import Argumentation.Value.Literal

/-!
# Faults of a document's text

Why a text is not a document, or holds a scalar that looks like a number, a date or a truth value
and is none. The former is one fault whatever the cause; the latter are told apart, because each
names what could not be converted.

What uses a document does not depend on how it is read. It works with any `Reader`, as long as it
tells a text that breaks the rules of the format from every other reason to give up.
-/

namespace Argumentation.Markup

/-- Why a text yields no value. -/
inductive Fault where
  /-- The text does not follow the rules of the format. -/
  | malformed
  /-- A collection lies inside too many others. -/
  | nesting
  /-- An escape names a code point that does not exist. -/
  | codePoint
  /-- An escape names a number that is too large for any code point to be looked up. -/
  | oversizedCodePoint
  /-- An escape names half of a pair of code units, which is no character and so in no text. -/
  | halfPair
  /-- A text is no whole number in the given base. -/
  | whole (base : Nat) (text : String)
  /-- A whole number has more digits than are read. -/
  | digits (count : Nat)
  /-- A text is no decimal. -/
  | decimal (text : String)
  /-- The place value of a group of base sixty is larger than every double. -/
  | oversizedUnit
  /-- Nothing is left of a number without its sign and underscores. -/
  | emptyNumber
  /-- A word is no truth value. -/
  | truthWord (word : String)
  /-- Numbers make no date or moment. -/
  | calendar (fault : CalendarFault)
  /-- A scalar that is tagged as a date is not spelled as one. -/
  | noStamp
  /-- Anything else at which a reader gives up, by its kind and its words. -/
  | other (kind message : String)
  deriving DecidableEq, Repr

/-- The most characters of a text that is no whole number which are shown. -/
def quoteLimit : Nat := 200

/-- The words for a fault in a date or a moment. -/
def calendarMessage : CalendarFault → String
  | .year n => "year " ++ toString n ++ " is out of range"
  | .month => "month must be in 1..12"
  | .day => "day is out of range for month"
  | .hour => "hour must be in 0..23"
  | .minute => "minute must be in 0..59"
  | .second => "second must be in 0..59"
  | .offset seconds =>
    "offset must be a timedelta strictly between -timedelta(hours=24) and timedelta(hours=24), " ++
      "not " ++ Atom.spanLiteral seconds ++ "."

/-- The words for the fault. -/
def Fault.message : Fault → String
  | .malformed => "Invalid YAML format"
  | .nesting => "maximum recursion depth exceeded while calling a Python object"
  | .codePoint => "chr() arg not in range(0x110000)"
  | .oversizedCodePoint => "Python int too large to convert to C int"
  | .halfPair => "surrogates not allowed"
  | .whole base text =>
    let shown := String.ofList ((Text.quoted text).toList.take quoteLimit)
    "invalid literal for int() with base " ++ toString base ++ ": " ++ shown
  | .digits count =>
    "Exceeds the limit (" ++ toString Decimal.digitLimit ++
      " digits) for integer string conversion: value has " ++ toString count ++
      " digits; use sys.set_int_max_str_digits() to increase the limit"
  | .decimal text => "could not convert string to float: " ++ Text.quoted text
  | .oversizedUnit => "int too large to convert to float"
  | .emptyNumber => "string index out of range"
  | .truthWord word => Text.quoted word
  | .calendar fault => calendarMessage fault
  | .noStamp => "'NoneType' object has no attribute 'groupdict'"
  | .other _ message => message

/-- What reads texts: the value that a text holds, or why it holds none. Only `Fault.malformed` says
that the text breaks the rules of the format. -/
abbrev Reader := List Char → Except Fault Value

end Argumentation.Markup
