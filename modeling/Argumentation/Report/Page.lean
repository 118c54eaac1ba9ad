import Argumentation.Calendar
import Argumentation.Json.Writer
import Argumentation.Report.Payload
import Argumentation.Text.Escaped

/-!
# Report pages

The page that shows a document and its stages: the exhibit, a section for every stage, and the
payload for the script that draws the graph. Every text of the document is escaped where it becomes
part of the page. The payload stands in a script element, where markup is not read but the end of
the element is: every `</` in it is written `<\/`, which means the same in JSON.
-/

namespace Argumentation.Report

/-- The heading of each family in the tables of extensions. -/
def familyTitle : Semantics → String
  | .conflictFree => "Conflict-free"
  | .admissible => "Admissible"
  | .complete => "Complete"
  | .preferred => "Preferred"
  | .grounded => "Grounded"
  | .stable => "Stable"

/-- An extension, with its members between braces. -/
def extensionHtml (members : List String) : String :=
  if members.isEmpty then "∅"
  else "\x7b" ++ ", ".intercalate (members.map Text.escaped) ++ "\x7d"

/-- A family of extensions. -/
def familyHtml (family : List (List String)) : String :=
  if family.isEmpty then "<span class=\"none\">none</span>"
  else " ".intercalate (family.map fun e => "<span class=\"ext\">" ++ extensionHtml e ++ "</span>")

/-- The row of a semantics in the table of extensions. -/
def familyRow (f : Families) (s : Semantics) : String :=
  "<tr><th>" ++ familyTitle s ++ "</th><td>" ++ familyHtml (f.get s) ++ "</td></tr>"

/-- A rank in a table; an argument that no root reaches has none. -/
def rankHtml (ranks : Distances String) (name : String) : String :=
  ((ranks.lookup name).map fun n => toString n).getD "–"

/-- The row of an argument in the table of ranks. -/
def rankRow (s : Stage) (name : String) : String :=
  "<tr><td>" ++ Text.escaped name ++ "</td><td>" ++ rankHtml s.rankTop name ++ "</td><td>" ++
    rankHtml s.rankBottom name ++ "</td></tr>"

/-- An attack, with an arrow from the attacker to the target. -/
def attackHtml (a : Attack) : String := Text.escaped a.attacker ++ " → " ++ Text.escaped a.target

/-- The attacks of a framework. -/
def attacksHtml (attacks : List Attack) : String :=
  if attacks.isEmpty then "none" else ", ".intercalate (attacks.map attackHtml)

/-- The section of a stage. -/
def sectionHtml (s : Stage) : String :=
  let number := toString s.step
  "\n    <section class=\"step\" id=\"step-" ++ number ++ "\">\n        <h2>Step " ++ number ++
  "</h2>\n        <p><strong>Arguments:</strong> " ++
  ", ".intercalate (s.framework.arguments.map Text.escaped) ++
  "</p>\n        <p><strong>Attacks:</strong> " ++ attacksHtml s.framework.attacks ++
  "</p>\n        <table class=\"families\">\n            " ++
  "\n".intercalate (Semantics.all.map (familyRow s.extensions)) ++
  "\n        </table>\n        <table class=\"ranks\">\n" ++
  "            <tr><th>Argument</th><th>Rank (top)</th><th>Rank (bottom)</th></tr>\n            " ++
  "\n".intercalate (s.framework.arguments.map (rankRow s)) ++
  "\n        </table>\n    </section>"

/-- The text with every `</` written `<\/`. -/
def guardEnds (cs : List Char) : List Char :=
  cs.foldr
    (fun c rest => if c = '<' && rest.head? == some '/' then '<' :: '\\' :: rest else c :: rest) []

/-- The payload as it stands in the page. -/
def payloadHtml (payload : Json) : String := String.ofList (guardEnds payload.write.toList)

/-- The style sheet of the page. -/
def styleSheet : String :=
  "        body \x7b\n" ++
  "            padding: 20px;\n" ++
  "            max-width: 1100px;\n" ++
  "            margin: 0 auto;\n" ++
  "            font-family: -apple-system, BlinkMacSystemFont, \"Segoe UI\", Roboto, " ++
  "Helvetica, Arial, sans-serif;\n" ++
  "        \x7d\n" ++
  "        pre.exhibit \x7b\n" ++
  "            white-space: pre-wrap;\n" ++
  "            background-color: #f8f9fa;\n" ++
  "            border-left: 4px solid #adb5bd;\n" ++
  "            padding: 15px;\n" ++
  "        \x7d\n" ++
  "        .step \x7b\n" ++
  "            margin-bottom: 30px;\n" ++
  "            border-top: 1px solid #dee2e6;\n" ++
  "        \x7d\n" ++
  "        table \x7b border-collapse: collapse; margin: 10px 0; \x7d\n" ++
  "        th, td \x7b padding: 4px 10px; text-align: left; border-bottom: 1px solid #eee; \x7d\n" ++
  "        .ext \x7b font-family: monospace; margin-right: 8px; \x7d\n" ++
  "        .none \x7b color: #868e96; font-style: italic; \x7d\n"

/-- The title of a page that is given none. -/
def defaultTitle : String := "ArgBlazer Report"

/-- What stands where a document has no exhibit. -/
def noExhibit : String := "[Not provided]"

/-- The exhibit as it is shown. An empty one counts as none. -/
def exhibitHtml (exhibit : Option String) : String :=
  let shown := exhibit.getD ""
  Text.escaped (if shown.isEmpty then noExhibit else shown)

/-- The time at which a page is generated, to the minute. -/
def stamp (m : Moment) : String :=
  m.date.text ++ " " ++
    String.ofList (Decimal.padded 2 m.hour ++ ':' :: Decimal.padded 2 m.minute) ++ " UTC"

/-- The page down to its payload. An exhibit that is given goes before that of the document. -/
def pageFront (d : Document) (stages : List Stage) (exhibit : Option String)
    (title time : String) : String :=
  "<!DOCTYPE html>\n<html lang=\"en\">\n<head>\n    <meta charset=\"UTF-8\">\n" ++
  "    <meta name=\"viewport\" content=\"width=device-width, initial-scale=1.0\">\n    <title>" ++
  Text.escaped title ++ "</title>\n    <style>\n" ++ styleSheet ++
  "    </style>\n</head>\n<body>\n    <h1>" ++ Text.escaped title ++
  "</h1>\n    <p class=\"meta\">Generated " ++ time ++ " · " ++ toString stages.length ++
  " step(s)</p>\n    <h2>Exhibit</h2>\n    <pre class=\"exhibit\">" ++
  exhibitHtml (exhibit.orElse fun _ => d.exhibit) ++ "</pre>\n    " ++
  String.join (stages.map sectionHtml) ++ "\n    "

/-- The start tag of the element that holds the payload. -/
def payloadStart : String := "<script type=\"application/json\" id=\"af-data\">"

/-- The page from the end tag of that element on. -/
def pageBack : String := "</script>\n</body>\n</html>\n"

/-- The page of a document with the given stages, generated at the given time. -/
def page (d : Document) (stages : List Stage) (exhibit : Option String) (title time : String) :
    String :=
  pageFront d stages exhibit title time ++ payloadStart ++ payloadHtml (payload d stages) ++ pageBack

end Argumentation.Report
