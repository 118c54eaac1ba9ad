import Argumentation.Document
import Argumentation.Json.Encoding
import Argumentation.Json.Reader
import Argumentation.Service.Message

/-!
# Bodies of requests

What the bodies of requests have to hold, and what is answered where they do not. A body is JSON
unless its header says otherwise. Every field is judged, and all issues are reported, in the order
in which the fields are declared here.
-/

namespace Argumentation.Service

/-! ### Issues as JSON -/

/-- A step of the way to a value. -/
def placeJson : Place → Json
  | .field name => .text name
  | .index i => .nat i

/-- What a kind of issue says besides its message. -/
def contextJson : IssueKind → List (String × Json)
  | .broken _ => [("ctx", .object [("error", .object [])])]
  | .notModel name => [("ctx", .object [("class_name", .text name)])]
  | .emptyText => [("ctx", .object [("min_length", .int 1)])]
  | .unknownKind kind =>
    [("ctx", .object [("discriminator", .text "'kind'"), ("tag", .text kind),
      ("expected_tags", .text "'bare', 'tagged'")])]
  | _ => []

/-- An issue with the body of a request. -/
def issueJson (i : Issue) : Json :=
  .object ([("type", .text i.kind.code), ("loc", .array (.text "body" :: i.place.map placeJson)),
    ("msg", .text i.kind.message), ("input", i.input.toJson)] ++ contextJson i.kind)

/-- A body that is not JSON. -/
def faultJson (f : Json.Fault) : Json :=
  .object [("type", .text "json_invalid"), ("loc", .array [.text "body", .nat f.place]),
    ("msg", .text "JSON decode error"), ("input", .object []),
    ("ctx", .object [("error", .text f.reason.message)])]

/-- Why a body is refused. -/
inductive BodyFault where
  /-- Nothing was sent. -/
  | missing
  /-- Its bytes are no text, or it is JSON that goes beyond a limit. -/
  | unreadable
  /-- It is not JSON. -/
  | json (fault : Json.Fault)
  | issues (issues : List Issue)

/-- The details of the fault. -/
def BodyFault.details : BodyFault → List Json
  | .missing => [issueJson ⟨[], .missing, .null⟩]
  | .unreadable => []
  | .json fault => [faultJson fault]
  | .issues found => found.map issueJson

/-! ### The value of a body -/

/-- The kind of content that a header field names, without its parameters. -/
def mediaType (s : String) : List Char :=
  trimmed ((lowered s).toList.takeWhile (· ≠ ';'))

/-- Whether content of the kind is JSON. -/
def isJson (contentType : String) : Bool :=
  match Text.splitAt '/' (mediaType contentType) with
  | [kind, subkind] =>
    kind == "application".toList &&
      (subkind == "json".toList || "+json".toList.isSuffixOf subkind)
  | _ => false

/-- The most arrays and objects of a body that may lie inside each other. -/
def nestingLimit : Nat := 940

/-- The value that the JSON of a body denotes. -/
def jsonValue (body : String) : Except BodyFault Value :=
  match Json.decode? body with
  | none => .error .unreadable
  | some cs =>
    match Json.readChars nestingLimit cs with
    | .ok j => .ok j.toValue
    | .error ⟨.longNumber, _⟩ | .error ⟨.nesting, _⟩ => .error .unreadable
    | .error fault => .error (.json fault)

/-- Whether the body of a request is JSON, as it is unless a header field says otherwise. -/
def holdsJson (r : Request) : Bool := ((r.header? "content-type").map isJson).getD true

/-- The value that a body holds: what its JSON denotes, or the text itself where the header names
another kind of content. -/
def bodyValue (r : Request) : Except BodyFault Value :=
  if r.body.isEmpty then .error .missing
  else if holdsJson r then jsonValue r.body
  else .ok (.text r.body)

/-! ### Fields -/

/-- A field that has to be there. -/
def requiredField {α : Type} (name : String) (v : Value)
    (read : Value → Field.Checked α) : Field.Checked α :=
  match v.field? name with
  | none => .error [⟨[.field name], .missing, v⟩]
  | some x => read x

/-- A field that may be left out. -/
def optionalField {α : Type} (name : String) (v : Value) (default : α)
    (read : Value → Field.Checked α) : Field.Checked α :=
  match v.field? name with
  | none => .ok default
  | some x => read x

/-- A field that holds a text or nothing. -/
def optionalText (name : String) (v : Value) : Field.Checked (Option String) :=
  optionalField name v none fun x =>
    match x with
    | .null => .ok none
    | x => (Field.checkAt [.field name] Field.text x).map some

/-- Two checked fields of a body, both of which are kept. -/
def also {α β : Type} (a : Field.Checked α) (b : Field.Checked β) : Field.Checked (α × β) :=
  Field.both Prod.mk a b

/-- The fields of a body that is an object. -/
def checkObject {α : Type} (read : Value → Field.Checked α) (v : Value) : Except BodyFault α :=
  match v.entries? with
  | none => .error (.issues [⟨[], .notFields, v⟩])
  | some _ => (read v).mapError .issues

/-! ### The bodies -/

/-- The names of arguments whose extensions are wanted: any values in a list. -/
def checkNames (v : Value) : Field.Checked (List String) :=
  match v with
  | .list items => .ok (items.map Value.name)
  | v => .error [⟨[.field "arguments"], .notList, v⟩]

/-- Texts in a list. -/
def checkTexts (name : String) (v : Value) : Field.Checked (List String) :=
  match v with
  | .list items =>
    Field.every (items.zipIdx.map fun (x, i) =>
      Field.checkAt [.field name, .index i] Field.text x)
  | v => .error [⟨[.field name], .notList, v⟩]

/-- Names of arguments, and attacks between them. -/
def checkExtensions (v : Value) : Field.Checked (List String × List Attack) :=
  also (optionalField "arguments" v [] checkNames)
    (optionalField "attacks" v [] Document.checkAttacks)

/-- A ranking that is asked for by its attacks, roots, fallbacks and side. -/
structure RankBody where
  attacks : List Attack
  roots : List String
  fallbackFirst : Option String
  fallbackLast : Option String
  fromTop : Bool

/-- The fields of a ranking that is asked for. -/
def checkRank (v : Value) : Field.Checked RankBody :=
  let attacks := optionalField "attacks" v [] Document.checkAttacks
  let roots := optionalField "roots" v [] (checkTexts "roots")
  let first := optionalText "fallback_first" v
  let last := optionalText "fallback_last" v
  let side := optionalField "is_top_side" v true
    (Field.checkAt [.field "is_top_side"] Field.truth)
  (also attacks (also roots (also first (also last side)))).map
    fun (attacks, roots, first, last, side) => ⟨attacks, roots, first, last, side⟩

/-- A text that is not empty. -/
def filledText (v : Value) : Except IssueKind String :=
  match Field.text v with
  | .ok "" => .error .emptyText
  | read => read

/-- The text of a document, and the title of its report. -/
def checkReport (v : Value) : Field.Checked (String × Option String) :=
  also (requiredField "yaml" v (Field.checkAt [.field "yaml"] filledText))
    (optionalText "title" v)

end Argumentation.Service
