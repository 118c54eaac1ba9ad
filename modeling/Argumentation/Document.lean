import Argumentation.Declaration
import Argumentation.Framework.OfValues

/-!
# Documents

A document declares arguments, attacks and possibly an exhibit, the text that the arguments were
drawn from. `Document.check` reads one from a mapping; each field is judged even if another one is
wrong. `Document.dump` spells a document out again as a mapping of the same kind.
-/

namespace Argumentation

/-- A framework as it is written down. -/
structure Document where
  declarations : List Declaration
  attacks : List Attack
  exhibit : Option String
  deriving DecidableEq, Repr

/-- Why a value lists no attacks. -/
inductive AttackListFault where
  | notList
  | badEntry
  /-- An end of an attack has no name because it cannot be written. -/
  | unwritable (obstacle : Obstacle)
  deriving DecidableEq, Repr

/-- The words for the fault. -/
def AttackListFault.message : AttackListFault → String
  | .notList => "\"attacks\" must be a list of lists"
  | .badEntry =>
    "Each attack must be a list with at least two elements, where the first attacks the second"
  | .unwritable obstacle => obstacle.message

/-- What keeps the ends of an attack from having names. -/
def AttackListFault.obstacle? : AttackListFault → Option Obstacle
  | .unwritable obstacle => some obstacle
  | _ => none

namespace Attack

/-- The attack that an entry of a list of attacks names: by the keys `attacker` and `target`, or as
a sequence of at least two members. -/
def ofEntry (v : Value) : Except AttackListFault Attack :=
  match v.field? "attacker", v.field? "target" with
  | some a, some b => (between a b).mapError .unwritable
  | _, _ =>
    match v.sequence? with
    | some (a :: b :: _) => (between a b).mapError .unwritable
    | _ => .error .badEntry

/-- The attacks that a value lists. Nothing lists none. -/
def listOfValue (v : Value) : Except AttackListFault (List Attack) :=
  match v.opened with
  | .null => .ok []
  | .list items | .tuple items => items.mapM ofEntry
  | _ => .error .notList

/-- The two ends as a sequence. -/
def toValue (a : Attack) : Value := .tuple [.text a.attacker, .text a.target]

end Attack

namespace Document

/-- The values that declare the arguments: the members of a sequence, or the entries of a mapping
one by one. -/
def declarationValues (v : Value) : Option (List Value) :=
  match v.opened with
  | .list items | .tuple items => some items
  | .mapping entries => some (entries.map fun e => .mapping [e])
  | _ => none

/-- A rule that is broken by the value of a field, unless an obstacle comes before it. -/
def brokenRule (name message : String) (obstacle : Option Obstacle) (v : Value) : List Issue :=
  [⟨[.field name], (obstacle.map IssueKind.ofObstacle).getD (.broken message), v⟩]

/-- The issues to which a fault in one of the declarations `v` leads. -/
def declarationIssues (v : Value) : DeclarationFault → List Issue
  | .fields _ issues => issues.map (Issue.under [.field "arguments"])
  | fault => brokenRule "arguments" fault.message fault.obstacle? v

/-- The declarations that the field `arguments` holds. The first bad one ends the check. -/
def checkArguments (v : Value) : Field.Checked (List Declaration) :=
  match declarationValues v with
  | none => .error (brokenRule "arguments" "\"arguments\" must be a non-empty list" none v)
  | some raws => (raws.mapM Declaration.parse).mapError (declarationIssues v)

/-- The attacks that the field `attacks` holds. -/
def checkAttacks (v : Value) : Field.Checked (List Attack) :=
  (Attack.listOfValue v).mapError fun fault => brokenRule "attacks" fault.message fault.obstacle? v

/-- The exhibit that a field holds: nothing, or the name of any value. -/
def checkExhibit (v : Value) : Field.Checked (Option String) :=
  match v with
  | .null => .ok none
  | v =>
    match v.obstacle? with
    | none => .ok (some v.name)
    | some obstacle => .error [⟨[.field "exhibit"], .ofObstacle obstacle, v⟩]

/-- The document that the fields of a mapping make. -/
def checkFields (raw : Value) : Field.Checked Document :=
  let declarations := match raw.field? "arguments" with
    | none => .error [⟨[.field "arguments"], .missing, raw⟩]
    | some v => checkArguments v
  let attacks := match raw.field? "attacks" with
    | none => .ok []
    | some v => checkAttacks v
  let exhibit := match raw.field? "exhibit" with
    | none => .ok none
    | some v => checkExhibit v
  Field.both (fun (ds, attacks) exhibit => ⟨ds, attacks, exhibit⟩)
    (Field.both Prod.mk declarations attacks) exhibit

/-- The title under which the issues of a document are reported. -/
def title : String := "FrameworkDocument"

/-- The document that a value makes. -/
def check (raw : Value) : Field.Checked Document :=
  match raw.entries? with
  | none => .error [⟨[], .notModel title, raw⟩]
  | some _ => checkFields raw

/-- The names of the declared arguments, each at its first place. -/
def names (d : Document) : List String := distinct (d.declarations.map Declaration.id)

/-- The value that spells the document out. -/
def dump (d : Document) : Value :=
  .mapping [(.text "arguments", .list (d.declarations.map Declaration.dump)),
    (.text "attacks", .list (d.attacks.map Attack.toValue)),
    (.text "exhibit", (d.exhibit.map Value.text).getD .null)]

end Document

end Argumentation
