import Argumentation.Framework.Mask
import Argumentation.Value.Key
import Argumentation.Value.Writable

/-!
# Frameworks of values

Callers hand over arguments and attacks as values. An argument is named by the text of its value; an
attack is a sequence, or a text by its characters, of which the first two members name the attacker
and the target. Members beyond the second are ignored. An attack that has been read before is taken
as it is.

A value that cannot be written names nothing. Where one has to be written, as an argument, as an end
of an attack or in a message, the framework is not made.
-/

namespace Argumentation

/-- Why a value names no attack. -/
inductive AttackFault where
  /-- It has fewer than two members. -/
  | short (members : List Value)
  /-- It is a mapping without an entry at this place. -/
  | missing (key : Value)
  /-- One of its ends cannot be written. -/
  | unwritable (obstacle : Obstacle)

namespace AttackFault

/-- What keeps that from being written that the fault is about. -/
def obstacle? : AttackFault → Option Obstacle
  | .short members => (Value.list members).obstacle?
  | .missing _ => none
  | .unwritable obstacle => some obstacle

/-- The words for the fault. -/
def message : AttackFault → String
  | .short members =>
    "Attack " ++ (Value.list members).literal ++ " must name an attacker and a target."
  | .missing key => key.literal
  | .unwritable obstacle => obstacle.message

end AttackFault

namespace Attack

/-- The attack between two values by their names. -/
def between (a b : Value) : Except Obstacle Attack := do
  return ⟨← a.written, ← b.written⟩

/-- The name of the member of a mapping at a place. -/
def endAt (entries : List (Value × Value)) (place : Int) : Except AttackFault String :=
  match Value.lookup? (.int place) entries with
  | none => .error (.missing (.int place))
  | some v => v.written.mapError .unwritable

/-- The attack between the members of a mapping at the first two places. -/
def ofEntries (entries : List (Value × Value)) : Except AttackFault Attack := do
  return ⟨← endAt entries 0, ← endAt entries 1⟩

/-- The attack that a value names. -/
def ofValue (v : Value) : Except AttackFault Attack :=
  match v.members with
  | a :: b :: _ =>
    match v.entries? with
    | some entries => ofEntries entries
    | none => (between a b).mapError .unwritable
  | short => .error (.short short)

end Attack

/-- An attack as a caller hands it over. -/
inductive Attack.Given where
  | raw (v : Value)
  /-- It has been read before. -/
  | resolved (a : Attack)

/-- The attack that is handed over. -/
def Attack.Given.read : Attack.Given → Except AttackFault Attack
  | .raw v => Attack.ofValue v
  | .resolved a => .ok a

/-- Why values do not make a framework. -/
inductive GraphFault where
  | framework (fault : FrameworkFault)
  | attack (fault : AttackFault)
  /-- An argument cannot be written. -/
  | argument (obstacle : Obstacle)

/-- The words for the fault. -/
def GraphFault.message : GraphFault → String
  | .framework fault => fault.message
  | .attack fault => fault.message
  | .argument obstacle => obstacle.message

namespace Framework

/-- The framework of the given arguments and attacks. That there is an argument is judged before the
attacks are looked at, and their form before what they name. -/
def ofNames (names : List String) (attacks : List Attack.Given) : Except GraphFault Framework := do
  if names.isEmpty then throw (.framework .noArguments)
  let attacks ← (attacks.mapM Attack.Given.read).mapError .attack
  (make names attacks).mapError .framework

/-- The names of arguments that are given as values. -/
def namesOfValues (arguments : List Value) : Except GraphFault (List String) :=
  (arguments.mapM Value.written).mapError .argument

/-- The framework whose arguments are named by the given values. They are all named before anything
else is judged. -/
def ofGiven (arguments : List Value) (attacks : List Attack.Given) : Except GraphFault Framework := do
  ofNames (← namesOfValues arguments) attacks

/-- The framework of arguments and attacks as values. -/
def ofValues (arguments attacks : List Value) : Except GraphFault Framework :=
  ofGiven arguments (attacks.map .raw)

/-- The framework of the arguments that the given values name, with the attacks of `F` between those
of them that are texts. -/
def restrictTo (F : Framework) (keep : List Value) : Except GraphFault Framework := do
  let keep := distinct keep
  let names ← namesOfValues keep
  (F.induced names (keep.filterMap Value.text?)).mapError .framework

/-- The mask of the given values, or the first one among them that is not the name of an
argument. -/
def maskOf (F : Framework) : List Value → Except Value Nat
  | [] => .ok 0
  | v :: vs =>
    match v.text?.filter F.contains with
    | some name => (F.maskOf vs).map fun m => F.bit name ||| m
    | none => .error v

end Framework

end Argumentation
