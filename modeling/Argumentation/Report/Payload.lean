import Argumentation.Json
import Argumentation.Timeline.Stage

/-!
# Report payloads

The data from which a report is drawn: the declared arguments with the step at which they appear,
their roles and labels, the attacks, the ranks at every step, and the families of extensions at every
step. Everything that belongs to a step stands at the same place of its list.
-/

namespace Argumentation.Report

/-- The step of the first stage in which an argument is visible. -/
def firstStep? (stages : List Stage) (name : String) : Option Int :=
  (stages.find? fun s => s.framework.contains name).map (·.step)

/-- The roles that a declaration gives to its argument. -/
def roles (d : Declaration) : List String :=
  (if d.isTop then ["top"] else []) ++ if d.isBottom then ["bottom"] else []

/-- The entry of a declared argument. -/
def argumentEntry (stages : List Stage) (d : Declaration) : Json :=
  .object [("id", .text d.id), ("step", ((firstStep? stages d.id).map Json.int).getD .null),
    ("roles", .texts (roles d)), ("labels", .texts d.labels)]

/-- Ranks by name, in the order of the names. -/
def ranksEntry (ranks : Distances String) : Json :=
  .object ((ranks.mergeSort fun a b => decide (a.1 ≤ b.1)).map fun entry => (entry.1, .nat entry.2))

/-- The families of extensions by the key of their semantics. -/
def familiesEntry (f : Families) : Json :=
  .object (Semantics.all.map fun s => (s.key, .array ((f.get s).map .texts)))

/-- An attack, the attacker first. -/
def attackEntry (a : Attack) : Json := .texts [a.attacker, a.target]

/-- Whether the steps of all stages can be written. -/
def stepsAreWritable (stages : List Stage) : Bool := stages.all fun s => isWritableInt s.step

/-- The payload of the report of a document with the given stages. -/
def payload (d : Document) (stages : List Stage) : Json :=
  .object [
    ("graph", .object [
      ("arguments", .array (d.declarations.map (argumentEntry stages))),
      ("attacks", .array (d.attacks.map attackEntry)),
      ("steps", .object [
        ("numbers", .array (stages.map fun s => .int s.step)),
        ("rank_top", .array (stages.map fun s => ranksEntry s.rankTop)),
        ("rank_bottom", .array (stages.map fun s => ranksEntry s.rankBottom))])]),
    ("extensions", .array (stages.map fun s => familiesEntry s.extensions))]

end Argumentation.Report
