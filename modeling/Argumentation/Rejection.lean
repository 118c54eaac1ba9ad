import Argumentation.Document
import Argumentation.Extension.Families
import Argumentation.Markup.Fault
import Argumentation.Text.Utf8

/-!
# Rejections

The answers to input that cannot be worked on. A rejection has a class with a code and a status, and
a message for the reader. A failure is everything that can end an operation: a rejection, or one of
the faults below it that no rule turns into a rejection.
-/

namespace Argumentation

/-- A framework, a document or a request is rejected. -/
inductive Rejection where
  | unspecified (message : String)
  | invalidFramework (message : String)
  | tooLarge (excess : SizeExcess)
  | invalidDocument (message : String)
  deriving DecidableEq, Repr

namespace Rejection

/-- The code of the class. -/
def code : Rejection → String
  | .unspecified _ => "argumentation_error"
  | .invalidFramework _ => "invalid_framework"
  | .tooLarge _ => "framework_too_large"
  | .invalidDocument _ => "invalid_document"

/-- The status with which a service answers. -/
def status : Rejection → Nat
  | .unspecified _ => 400
  | .invalidFramework _ => 422
  | .tooLarge _ => 413
  | .invalidDocument _ => 400

/-- The words for the reader. -/
def message : Rejection → String
  | .unspecified message => message
  | .invalidFramework message => message
  | .tooLarge excess => excess.message
  | .invalidDocument message => message

/-- The message of a rejection without a class of its own, where nothing more is known. -/
def unspecifiedDefault : String := "Argumentation framework rejected."

/-- The message of a rejected framework, where nothing more is known. -/
def invalidFrameworkDefault : String := "Invalid argumentation framework."

/-- The message of a rejected document, where nothing more is known. -/
def invalidDocumentDefault : String := "Invalid framework document."

end Rejection

/-- What can end an operation. -/
inductive Failure where
  | rejection (r : Rejection)
  /-- A value was looked up that is not there. -/
  | missingKey (key : Value)
  /-- A value cannot be converted. -/
  | badValue (message : String)
  /-- The text of a document is not read, though it does not break the rules of the format. -/
  | scalar (fault : Markup.Fault)
  /-- The bytes of a file are no text. -/
  | undecodable (fault : Text.Utf8.Fault)
  /-- Collections lie too deep inside each other. -/
  | tooDeep
  /-- Values are not what a `title` needs. -/
  | issues (title : String) (issues : List Issue)

namespace Failure

/-- The words for the failure. -/
def message : Failure → String
  | .rejection r => r.message
  | .missingKey key => key.literal
  | .badValue message => message
  | .scalar fault => fault.message
  | .undecodable fault => fault.message
  | .tooDeep => Obstacle.nesting.message
  | .issues title found => Issue.report title found

/-- A value that cannot be written where it has to be. -/
def ofObstacle : Obstacle → Failure
  | .digits => .badValue Obstacle.digits.message
  | .nesting => .tooDeep

/-- A bad declaration, where it is not part of a document. -/
def ofDeclaration : DeclarationFault → Failure
  | .fields title found => .issues title found
  | fault =>
    match fault.obstacle? with
    | some obstacle => ofObstacle obstacle
    | none => .badValue fault.plainMessage

/-- A framework that cannot be made. -/
def ofFramework (fault : FrameworkFault) : Failure := .rejection (.invalidFramework fault.message)

/-- An attack that cannot be read. -/
def ofAttack (fault : AttackFault) : Failure :=
  match fault.obstacle?, fault with
  | some obstacle, _ => ofObstacle obstacle
  | none, .missing key => .missingKey key
  | none, fault => .rejection (.invalidFramework fault.message)

/-- Arguments and attacks that do not make a framework. -/
def ofGraph : GraphFault → Failure
  | .framework fault => ofFramework fault
  | .attack fault => ofAttack fault
  | .argument obstacle => ofObstacle obstacle

/-- A framework beyond the limit. The limit is told. -/
def ofExcess (excess : SizeExcess) : Failure :=
  if isWritableInt excess.limit then .rejection (.tooLarge excess) else ofObstacle .digits

end Failure

end Argumentation
