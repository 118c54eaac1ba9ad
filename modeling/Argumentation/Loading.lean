import Argumentation.Exhibit
import Argumentation.Markup.Reading
import Argumentation.Rejection

/-!
# Loading documents

A document from its text. The text has to keep within a length, it has to hold a mapping with
arguments, and the fields of the mapping have to make a document. The exhibit is taken from the
lines of the text where they have one, because the value that is read from them has lost its
comments. Any reader of the format will do (`Document.loadBy`).
-/

namespace Argumentation

/-- Why a text is not loaded. -/
inductive LoadFault where
  | tooLong (length : Nat) (limit : Int)
  /-- The text does not follow the rules of the format. -/
  | malformed
  /-- The text is not read, though it does not break the rules of the format. -/
  | unread (fault : Markup.Fault)
  /-- The text holds no mapping with arguments. -/
  | noArguments
  /-- The arguments of the text are empty. -/
  | emptyArguments
  /-- A field does not hold what it should. -/
  | field (issue : Issue)
  /-- A field holds collections that lie too deep inside each other. -/
  | nesting

namespace LoadFault

/-- A text that cannot be read. -/
def ofMarkup : Markup.Fault → LoadFault
  | .malformed => .malformed
  | fault => .unread fault

/-- How a text that is not loaded is answered. -/
def failure : LoadFault → Failure
  | .tooLong length limit =>
    .rejection (.invalidDocument ("Document is " ++ toString length ++
      " characters; the limit is " ++ toString limit ++ "."))
  | .malformed => .rejection (.invalidDocument Markup.Fault.malformed.message)
  | .unread fault => .scalar fault
  | .noArguments =>
    .rejection (.invalidDocument "YAML file must contain an \"arguments\" keyword")
  | .emptyArguments =>
    .rejection (.invalidFramework "The \"arguments\" field must be a non-empty list")
  | .field issue => .rejection (.invalidDocument issue.summary)
  | .nesting => .tooDeep

end LoadFault

namespace Document

/-- The most characters of a document unless a caller says otherwise. -/
def lengthLimit : Int := 200000

/-- The fault of a document with the given issues. A check that was given up is told, and otherwise
the first issue. -/
def faultOf (issues : List Issue) : LoadFault :=
  if issues.any fun issue => issue.kind = .nesting then .nesting
  else (issues.head?.map .field).getD .noArguments

/-- The document that the fields of a value make. -/
def ofFields (v : Value) : Except LoadFault Document := (check v).mapError faultOf

/-- The document that a value makes. -/
def ofValue (v : Value) : Except LoadFault Document :=
  match v.field? "arguments" with
  | none => .error .noArguments
  | some arguments => if arguments.truthy then ofFields v else .error .emptyArguments

/-- The document with another exhibit, if there is one. -/
def withExhibit (d : Document) (exhibit : Option String) : Document :=
  { d with exhibit := exhibit.orElse fun _ => d.exhibit }

/-- The document that a text holds, by what the reader makes of it. -/
def loadBy (reader : Markup.Reader) (text : String) (limit : Int) : Except LoadFault Document := do
  let cs := text.toList
  if limit < cs.length then throw (.tooLong cs.length limit)
  let v ← (reader cs).mapError LoadFault.ofMarkup
  return (← ofValue v).withExhibit (Exhibit.extract text)

/-- The document that a text holds. -/
def load : String → Int → Except LoadFault Document := loadBy Markup.read

end Document

end Argumentation
