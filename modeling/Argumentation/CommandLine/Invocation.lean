import Argumentation.CommandLine.Settings

/-!
# Invocations of the program

The program writes the report of a document, or it serves. `Invocation.read` tells which from the
words behind its name. Faults in the words of a command are told before those in the words around
it, and words that are left over are told last, by the program itself.
-/

namespace Argumentation.CommandLine

/-! ### The commands -/

/-- The options of the program. -/
inductive ProgramKey where
  | help
  | verbose
  deriving DecidableEq

/-- The program. -/
def program : Command ProgramKey where
  name := "argblazer"
  usage := "usage: argblazer [-h] [-v] \x7breport,serve\x7d ...\n"
  options := [⟨.help, ["-h", "--help"], .help⟩, ⟨.verbose, ["-v", "--verbose"], .mark⟩]
  operand := .rest "command"

/-- The options of a report. -/
inductive ReportKey where
  | help
  | output
  | json
  | title
  | maxArguments
  deriving DecidableEq

/-- The command that reports. -/
def reportCommand : Command ReportKey where
  name := "argblazer report"
  usage :=
    "usage: argblazer report [-h] [-o OUTPUT] [--json] [--title TITLE]\n" ++
    "                        [--max-arguments MAX_ARGUMENTS]\n" ++
    "                        file\n"
  options := [
    ⟨.help, ["-h", "--help"], .help⟩,
    ⟨.output, ["-o", "--output"], .text⟩,
    ⟨.json, ["--json"], .mark⟩,
    ⟨.title, ["--title"], .text⟩,
    ⟨.maxArguments, ["--max-arguments"], .whole⟩]
  operand := .one "file"

/-- The options of the service. -/
inductive ServeKey where
  | help
  | host
  | port
  deriving DecidableEq

/-- The command that serves. -/
def serveCommand : Command ServeKey where
  name := "argblazer serve"
  usage := "usage: argblazer serve [-h] [--host HOST] [--port PORT]\n"
  options := [⟨.help, ["-h", "--help"], .help⟩, ⟨.host, ["--host"], .text⟩,
    ⟨.port, ["--port"], .whole⟩]
  operand := .none

/-! ### What is asked for -/

/-- A report that is asked for. -/
structure ReportOrder where
  /-- The document. -/
  file : String
  /-- Where the page goes. -/
  output : Option String
  /-- Whether the payload is printed and no page is written. -/
  json : Bool
  title : Option String
  /-- The most arguments whose extensions are worked out. -/
  limit : Option Int

/-- Where the service is to be reached. -/
structure Address where
  host : String
  port : Int

/-- The address of the service unless another one is given. -/
def Address.default : Address := ⟨"0.0.0.0", 8787⟩

/-- The address with the parts that are given. An empty host and the port zero count as none. -/
def Address.ofParts (host : Option String) (port : Option Int) : Address where
  host := (host.filter (· ≠ "")).getD Address.default.host
  port := (port.filter (· ≠ 0)).getD Address.default.port

/-- What the program is asked to do. -/
inductive Invocation where
  | report (order : ReportOrder)
  | serve (address : Address)

namespace Invocation

/-- The names of the commands. -/
def commands : List String := ["report", "serve"]

/-- A report, and the words that are left over. -/
def readReport (texts : List String) : Except Halt (Invocation × List String) := do
  let s ← reportCommand.read texts
  let order : ReportOrder := {
    file := s.operand.headD ""
    output := s.text? .output
    json := s.has .json
    title := s.text? .title
    limit := s.whole? .maxArguments }
  return (.report order, s.left)

/-- The service, and the words that are left over. -/
def readServe (texts : List String) : Except Halt (Invocation × List String) := do
  let s ← serveCommand.read texts
  return (.serve (Address.ofParts (s.text? .host) (s.whole? .port)), s.left)

/-- The command of the given name with the words behind it. -/
def readCommand : List String → Except Halt (Invocation × List String)
  | "report" :: texts => readReport texts
  | "serve" :: texts => readServe texts
  | texts =>
    .error (.misuse program.name program.usage (.notAmong "command" (texts.headD "") commands))

/-- What the words behind the name of the program ask for. -/
def read (texts : List String) : Except Halt Invocation := do
  let s ← program.read texts
  let (invocation, left) ← readCommand s.operand
  match s.left ++ left with
  | [] => return invocation
  | words => throw (.misuse program.name program.usage (.unrecognized words))

end Invocation

end Argumentation.CommandLine
