import Argumentation.Validation.Field
import Argumentation.Value.Key
import Argumentation.Value.Writable

/-!
# Declarations of arguments

A document declares an argument by its bare name, or by its name with tags. A tag is a step at which
the argument appears, or a label; the labels `top` and `bottom` mark the argument as a root of a
ranking. Declarations are written in three ways:

* a scalar is the name of a bare argument;
* a mapping with one entry has the name as its key and a tag, a list of tags or nothing as its value;
* a mapping with the keys `kind` and `id` spells the declaration out.

`Declaration.parse` reads all three, and `Declaration.dump` writes the third. A caller may also hand
over a declaration that has been read before; `Declared.read` takes it as it is.
-/

namespace Argumentation

/-- A mark on an argument. -/
inductive Tag where
  | step (n : Int)
  | label (s : String)
  deriving DecidableEq, Repr

/-- The declaration of an argument. -/
inductive Declaration where
  | bare (id : String)
  | tagged (id : String) (tags : List Tag)
  deriving DecidableEq, Repr

/-- Why a value declares no argument. -/
inductive DeclarationFault where
  /-- A value of a kind that names nothing. -/
  | invalid (raw : Value)
  /-- A mapping that does not have one entry. -/
  | entryCount (raw : Value)
  /-- A tag of a kind that names nothing. -/
  | unsupportedTag (raw : Value)
  /-- A mapping without a step as a tag. -/
  | unsupportedMapping (raw : Value)
  /-- A value that has no name because it cannot be written. -/
  | unwritable (obstacle : Obstacle)
  /-- Fields that do not hold what they should. -/
  | fields (title : String) (issues : List Issue)

namespace DeclarationFault

/-- What keeps the value from being written that the fault is about. -/
def obstacle? : DeclarationFault → Option Obstacle
  | .invalid raw | .entryCount raw | .unsupportedTag raw | .unsupportedMapping raw => raw.obstacle?
  | .unwritable obstacle => some obstacle
  | .fields _ _ => none

/-- The words for a fault whose value can be written. -/
def plainMessage : DeclarationFault → String
  | .invalid raw => "Invalid argument declaration " ++ raw.literal
  | .entryCount raw =>
    "Argument declaration " ++ raw.literal ++ " must map exactly one identifier to its tags"
  | .unsupportedTag raw => "Unsupported tag " ++ raw.literal
  | .unsupportedMapping raw =>
    "Unsupported tag " ++ raw.literal ++ "; mapping tags must be \x7bstep: N\x7d"
  | .unwritable obstacle => obstacle.message
  | .fields title issues => Issue.report title issues

/-- The words for the fault. A value that cannot be written is told first. -/
def message (fault : DeclarationFault) : String :=
  match fault.obstacle? with
  | some obstacle => obstacle.message
  | none => fault.plainMessage

end DeclarationFault

/-- The name that a value stands for, if it has one. -/
def nameOf (v : Value) : Except DeclarationFault String := v.written.mapError .unwritable

namespace Tag

/-- The step of a step tag. -/
def step? : Tag → Option Int
  | .step n => some n
  | .label _ => none

/-- The text of a label. -/
def label? : Tag → Option String
  | .step _ => none
  | .label s => some s

/-- The tag that a value stands for, in a list of tags beside a name. -/
def parse (raw : Value) : Except DeclarationFault Tag :=
  match raw.opened with
  | .mapping _ =>
    match raw.field? "step" with
    | none => .error (.unsupportedMapping raw)
    | some v =>
      match Field.checkAt [.field "step"] Field.whole v with
      | .ok n => .ok (.step n)
      | .error issues => .error (.fields "StepTag" issues)
  | .list _ | .tuple _ | .null => .error (.unsupportedTag raw)
  | _ => (nameOf raw).map .label

/-- The step tag that the fields of a value make. -/
def checkStep (raw : Value) : Field.Checked Tag :=
  match raw.entries? with
  | none => .error [⟨[.field "StepTag"], .notModel "StepTag", raw⟩]
  | some _ =>
    match raw.field? "step" with
    | none => .error [⟨[.field "StepTag", .field "step"], .missing, raw⟩]
    | some v => (Field.checkAt [.field "StepTag", .field "step"] Field.whole v).map .step

/-- The tag that a value spells out: a text, or a mapping with a step. What is wrong with it is said
of both possibilities. -/
def check (raw : Value) : Field.Checked Tag :=
  match Field.checkAt [.field "str"] Field.text raw with
  | .ok s => .ok (.label s)
  | .error noText =>
    match checkStep raw with
    | .ok tag => .ok tag
    | .error noStep => .error (noStep ++ noText)

/-- The value that spells the tag out. -/
def dump : Tag → Value
  | .step n => .mapping [(.text "step", .int n)]
  | .label s => .text s

end Tag

namespace Declaration

/-- The name of the declared argument. -/
def id : Declaration → String
  | .bare id => id
  | .tagged id _ => id

/-- The tags of the declared argument. -/
def tags : Declaration → List Tag
  | .bare _ => []
  | .tagged _ tags => tags

/-- The word for the kind of the declaration. -/
def kind : Declaration → String
  | .bare _ => "bare"
  | .tagged .. => "tagged"

/-- The step that the declaration gives. The last step tag counts. -/
def step? (d : Declaration) : Option Int := (d.tags.filterMap Tag.step?).getLast?

/-- Whether the declaration marks the argument as a root of the ranking from the top. -/
def isTop (d : Declaration) : Bool := d.tags.contains (.label "top")

/-- Whether the declaration marks the argument as a root of the ranking from the bottom. -/
def isBottom (d : Declaration) : Bool := d.tags.contains (.label "bottom")

/-- The labels that are shown with the argument: all but the two that mark roots. -/
def labels (d : Declaration) : List String :=
  (d.tags.filterMap Tag.label?).filter fun s => s != "top" && s != "bottom"

/-- The tags beside a name: a list of them, a single one, or none. -/
def tagValues (v : Value) : List Value :=
  match v.opened with
  | .null => []
  | .list items | .tuple items => items
  | _ => [v]

/-- The declaration that a mapping with the one entry `name: tags` makes. -/
def ofEntry (name tags : Value) : Except DeclarationFault Declaration := do
  let id ← nameOf name
  return .tagged id (← (tagValues tags).mapM Tag.parse)

/-- The word for a kind of declaration that does not exist. -/
def kindWord (kind : Value) : String :=
  if kind.obstacle?.isNone then kind.name else "<unprintable " ++ Issue.kindName kind ++ " object>"

/-- The title under which the issues of a spelled-out declaration are reported. -/
def spelledTitle : String := "tagged-union[BareArgument,TaggedArgument]"

/-- The tags of a spelled-out declaration. -/
def checkTags : Option Value → Field.Checked (List Tag)
  | none => .ok []
  | some v =>
    match v.opened with
    | .list items | .tuple items | .set items =>
      Field.every (items.zipIdx.map fun (raw, i) =>
        (Tag.check raw).mapError fun issues => issues.map (Issue.under [.field "tags", .index i]))
    | _ => .error [⟨[.field "tags"], .notTuple, v⟩]

/-- The declaration that a value with the given kind and name spells out. -/
def checkSpelled (kind id raw : Value) : Field.Checked Declaration :=
  let name := Field.checkAt [.field "id"] Field.text id
  let outer (word : String) (issues : List Issue) := issues.map (Issue.under [.field word])
  match kind with
  | .text "bare" => (name.map .bare).mapError (outer "bare")
  | .text "tagged" =>
    (Field.both .tagged name (checkTags (raw.field? "tags"))).mapError (outer "tagged")
  | _ => .error [⟨[], .unknownKind (kindWord kind), raw⟩]

/-- The declaration that a value makes, in any of the three ways. -/
def parse (raw : Value) : Except DeclarationFault Declaration :=
  match raw.opened with
  | .mapping [(name, tags)] => ofEntry name tags
  | .mapping _ =>
    match raw.field? "kind", raw.field? "id" with
    | some kind, some id => (checkSpelled kind id raw).mapError (.fields spelledTitle)
    | _, _ => .error (.entryCount raw)
  | .list _ | .tuple _ | .null | .bool _ => .error (.invalid raw)
  | _ => (nameOf raw).map .bare

/-- The value that spells the declaration out. -/
def dump : Declaration → Value
  | .bare id => .mapping [(.text "kind", .text "bare"), (.text "id", .text id)]
  | .tagged id tags =>
    .mapping [(.text "kind", .text "tagged"), (.text "id", .text id),
      (.text "tags", .tuple (tags.map Tag.dump))]

/-- The value that declares the argument by its name and a list of tags. -/
def entry (d : Declaration) : Value :=
  .mapping [(.text d.id, .list (d.tags.map Tag.dump))]

end Declaration

/-- A declaration as a caller hands it over. -/
inductive Declared where
  | raw (v : Value)
  /-- It has been read before. -/
  | resolved (d : Declaration)

/-- The declaration that is handed over. -/
def Declared.read : Declared → Except DeclarationFault Declaration
  | .raw v => Declaration.parse v
  | .resolved d => .ok d

end Argumentation
