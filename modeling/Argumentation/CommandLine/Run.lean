import Argumentation.CommandLine.Environment
import Argumentation.CommandLine.Invocation
import Argumentation.Loading
import Argumentation.Report.Name
import Argumentation.Report.Page

/-!
# Runs of the program

What the program does when it is called. A run ends with a status, or with a failure that no rule
turns into one, and leaves what it has printed. A document that is rejected and a file that cannot
be reached end the run with status 1, words that are misused with status 2. What reads the texts of
documents is up to the caller (`runBy`); the program itself reads them as `Markup.read` does.
-/

namespace Argumentation.CommandLine

/-- What a run leaves. -/
structure Outcome where
  /-- The status, or the failure that ended the run. -/
  exit : Except Failure Nat
  /-- What was printed. -/
  out : String
  /-- What was printed of faults. -/
  err : String
  /-- Where the service is to be reached, if it was asked for. -/
  served : Option Address

namespace Outcome

/-- A run that ends well. -/
def success (out : String) : Outcome := ⟨.ok 0, out, "", none⟩

/-- A run that ends with a message. -/
def rejected (message : String) : Outcome := ⟨.ok 1, "", "error: " ++ message ++ "\n", none⟩

/-- A command that is not carried out. -/
def ofHalt : Halt → Outcome
  | .help usage => success usage
  | .misuse name usage fault =>
    ⟨.ok 2, "", usage ++ name ++ ": error: " ++ fault.message ++ "\n", none⟩

end Outcome

/-- Why a report is not made. -/
inductive Trouble where
  /-- A file is not reached. -/
  | file (path : Path) (fault : FileFault)
  | failure (f : Failure)

/-- How a report that is not made ends the run. -/
def Trouble.outcome : Trouble → Outcome
  | .file path fault =>
    .rejected ("[Errno " ++ toString fault.number ++ "] " ++ fault.reason ++ ": " ++
      Text.quoted path.text)
  | .failure (.rejection r) => .rejected r.message
  | .failure f => ⟨.error f, "", "", none⟩

/-- No path holds the character U+0000. -/
def checkPath (p : Path) : Except Trouble Unit :=
  if p.text.toList.contains '\x00' then .error (.failure (.badValue "embedded null byte"))
  else .ok ()

/-- The text that bytes encode, with every line end written as a line feed. -/
def decoded (bytes : List UInt8) : Except Trouble String :=
  match Text.Utf8.decode bytes with
  | .ok cs => .ok (String.ofList (Text.Utf8.foldNewlines cs))
  | .error fault => .error (.failure (.undecodable fault))

/-- The document in a text, and its stages, whose steps have to be written. -/
def worked (reader : Markup.Reader) (text : String) (limit : Option Int) :
    Except Trouble (Document × List Stage) := do
  let d ← (Document.loadBy reader text Document.lengthLimit).mapError (.failure ·.failure)
  let stages ← (d.decompose (limit.getD Framework.defaultLimit)).mapError (.failure ·.failure)
  if !Report.stepsAreWritable stages then throw (.failure (.badValue Obstacle.digits.message))
  return (d, stages)

/-- The title of the page of a document. -/
def pageTitle (title : Option String) (source : Path) : String :=
  (title.filter (· ≠ "")).getD (Report.defaultTitle ++ " - " ++ source.name)

/-- Where the page of a document goes. -/
def pagePath (output : Option String) (source : Path) : Path :=
  match output.filter (· ≠ "") with
  | some text => Path.ofText text
  | none => source.withName (Report.defaultName source.text)

/-- Makes the report, and says what is printed. -/
def report {m : Type → Type} [Monad m] (reader : Markup.Reader) (env : Environment m)
    (order : ReportOrder) : ExceptT Trouble m String := do
  let source := Path.ofText order.file
  liftExcept (checkPath source)
  let bytes ← reach source (env.read source)
  let (d, stages) ← liftExcept (do worked reader (← decoded bytes) order.limit)
  if order.json then return (Report.payload d stages).writeIndented ++ "\n"
  let target := pagePath order.output source
  liftExcept (checkPath target)
  reach target (env.write target
    (Report.page d stages none (pageTitle order.title source) (← env.time)))
  return ""
where
  /-- A step that does not touch the environment. -/
  liftExcept {α : Type} (step : Except Trouble α) : ExceptT Trouble m α := ExceptT.mk (pure step)
  /-- A step that touches the file at a path. -/
  reach {α : Type} (p : Path) (step : m (Except FileFault α)) : ExceptT Trouble m α :=
    (ExceptT.mk step).adapt (.file p)

/-- Runs the program with the words behind its name, on documents that a reader reads. -/
def runBy {m : Type → Type} [Monad m] (reader : Markup.Reader) (env : Environment m)
    (texts : List String) : m Outcome := do
  match Invocation.read texts with
  | .error halt => return .ofHalt halt
  | .ok (.serve address) => return { Outcome.success "" with served := some address }
  | .ok (.report order) =>
    match ← (report reader env order).run with
    | .ok out => return .success out
    | .error trouble => return trouble.outcome

/-- Runs the program with the words behind its name. -/
def run {m : Type → Type} [Monad m] (env : Environment m) (texts : List String) : m Outcome :=
  runBy Markup.read env texts

end Argumentation.CommandLine
