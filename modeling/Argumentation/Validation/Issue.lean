import Argumentation.Value.Literal
import Argumentation.Value.Writable

/-!
# Issues

What is wrong with a value that a document or a request holds where something else is expected. An
issue says where the value stands, what is wrong with it, and which value it is; a report of issues
counts and lists them under the name of what was expected.
-/

namespace Argumentation

/-- One step of the way to a value. -/
inductive Place where
  | field (name : String)
  | index (i : Nat)
  deriving DecidableEq, Repr

/-- The step as a part of a dotted path. -/
def Place.text : Place → String
  | .field name => name
  | .index i => toString i

/-- What can be wrong with a value. -/
inductive IssueKind where
  | notWhole
  | unreadableWhole
  | oversizedWhole
  | fractionalWhole
  | notFinite
  | notText
  /-- A run of bytes that encodes no text. -/
  | undecodableText
  | notTuple
  | notList
  | notTruth
  | unreadableTruth
  /-- A field that has to be there is not. -/
  | missing
  /-- Neither a mapping nor a value of the named kind. -/
  | notModel (name : String)
  /-- Nothing that has fields. -/
  | notFields
  /-- A text without characters. -/
  | emptyText
  /-- A kind of declaration that does not exist. -/
  | unknownKind (kind : String)
  /-- A rule of its own is broken. -/
  | broken (rule : String)
  /-- Collections lie so deep inside each other that the check is given up. -/
  | nesting
  deriving DecidableEq, Repr

namespace IssueKind

/-- The short name of the kind. -/
def code : IssueKind → String
  | .notWhole => "int_type"
  | .unreadableWhole => "int_parsing"
  | .oversizedWhole => "int_parsing_size"
  | .fractionalWhole => "int_from_float"
  | .notFinite => "finite_number"
  | .notText => "string_type"
  | .undecodableText => "string_unicode"
  | .notTuple => "tuple_type"
  | .notList => "list_type"
  | .notTruth => "bool_type"
  | .unreadableTruth => "bool_parsing"
  | .missing => "missing"
  | .notModel _ => "model_type"
  | .notFields => "model_attributes_type"
  | .emptyText => "string_too_short"
  | .unknownKind _ => "union_tag_invalid"
  | .broken _ => "value_error"
  | .nesting => "recursion_error"

/-- The words for the kind. -/
def message : IssueKind → String
  | .notWhole => "Input should be a valid integer"
  | .unreadableWhole =>
    "Input should be a valid integer, unable to parse string as an integer"
  | .oversizedWhole => "Unable to parse input string as an integer, exceeded maximum size"
  | .fractionalWhole =>
    "Input should be a valid integer, got a number with a fractional part"
  | .notFinite => "Input should be a finite number"
  | .notText => "Input should be a valid string"
  | .undecodableText =>
    "Input should be a valid string, unable to parse raw data as a unicode string"
  | .notTuple => "Input should be a valid tuple"
  | .notList => "Input should be a valid list"
  | .notTruth => "Input should be a valid boolean"
  | .unreadableTruth => "Input should be a valid boolean, unable to interpret input"
  | .missing => "Field required"
  | .notModel name => "Input should be a valid dictionary or instance of " ++ name
  | .notFields => "Input should be a valid dictionary or object to extract fields from"
  | .emptyText => "String should have at least 1 character"
  | .unknownKind kind =>
    "Input tag '" ++ kind ++
      "' found using 'kind' does not match any of the expected tags: 'bare', 'tagged'"
  | .broken rule => "Value error, " ++ rule
  | .nesting => Obstacle.nesting.message

/-- A value cannot be written that has to be. -/
def ofObstacle : Obstacle → IssueKind
  | .digits => .broken Obstacle.digits.message
  | .nesting => .nesting

end IssueKind

/-- Something wrong with a value. -/
structure Issue where
  place : List Place
  kind : IssueKind
  input : Value

namespace Issue

/-- The way to the value, with points between the steps. -/
def path (i : Issue) : String := ".".intercalate (i.place.map Place.text)

/-- The issue as seen from further out. -/
def under (outer : List Place) (i : Issue) : Issue := { i with place := outer ++ i.place }

/-- Where the value stands and what is wrong with it. -/
def summary (i : Issue) : String :=
  if i.place.isEmpty then i.kind.message else i.path ++ ": " ++ i.kind.message

/-- The longest front part of the text that takes at most `size` bytes. -/
def within : (size : Nat) → List Char → List Char
  | _, [] => []
  | size, c :: cs =>
    if c.utf8Size ≤ size then c :: within (size - c.utf8Size) cs else []

/-- A text of at most fifty bytes. Of a longer one only both ends are kept. -/
def abridged (s : String) : String :=
  if s.utf8ByteSize ≤ 50 then s
  else
    let cs := s.toList
    String.ofList (within 25 cs ++ "...".toList ++ (within 24 cs.reverse).reverse)

/-- The name of the kind of a value. -/
def kindName (v : Value) : String :=
  match v.opened with
  | .null => "NoneType"
  | .bool _ => "bool"
  | .int _ => "int"
  | .float _ => "float"
  | .text _ => "str"
  | .bytes _ => "bytes"
  | .date _ => "date"
  | .moment _ => "datetime"
  | .tuple _ => "tuple"
  | .set _ => "set"
  | .mapping _ => "dict"
  | _ => "list"

/-- The value as a report shows it: by its literal, or by its kind if it cannot be written. -/
def shown (v : Value) : String :=
  if v.obstacle?.isNone then v.literal else "<unprintable " ++ kindName v ++ " object>"

/-- The lines that describe the issue in a report. -/
def lines (i : Issue) : List String :=
  (if i.place.isEmpty then [] else [i.path]) ++
    ["  " ++ i.kind.message ++ " [type=" ++ i.kind.code ++ ", input_value=" ++
      abridged (shown i.input) ++ ", input_type=" ++ kindName i.input ++ "]"]

/-- The report of all issues that arose where a `title` was expected. -/
def report (title : String) (issues : List Issue) : String :=
  let heading := toString issues.length ++ " validation error" ++
    (if issues.length = 1 then "" else "s") ++ " for " ++ title
  "\n".intercalate (heading :: issues.flatMap lines)

end Issue

end Argumentation
