import Argumentation.Path

/-!
# Names of reports

The report of a document stands beside it, under the name of the document without its ending.
-/

namespace Argumentation.Report

/-- The endings of document names. -/
def endings : List (List Char) := [".yaml".toList, ".yml".toList]

/-- The characters without the given ending. -/
def dropEnding? (ending cs : List Char) : Option (List Char) :=
  if cs.drop (cs.length - ending.length) = ending then some (cs.take (cs.length - ending.length))
  else none

/-- The name without the ending of a document. A line feed at the very end is left where it is. -/
def stem (name : List Char) : List Char :=
  let (body, tail) := match name.getLast? with
    | some '\n' => (name.dropLast, ['\n'])
    | _ => (name, [])
  match endings.findSome? fun ending => dropEnding? ending body with
  | some cs => cs ++ tail
  | none => name

/-- The name of the report of a document. -/
def defaultName (path : String) : String :=
  String.ofList (stem (Path.ofText path).name.toList) ++ "_argBlazerReport.html"

end Argumentation.Report
