import Argumentation.Framework.Mask

/-!
# Tables of neighbours

The masks of the neighbours of all arguments at once. `Framework.attackersMask` and
`Framework.targetsMask` look through all attacks for one argument each; the tables are filled in by
one walk over the attacks, which notes each attack at the place of its target and at that of its
attacker.
-/

namespace Argumentation.Framework

/-- The masks of the attackers and of the targets of all arguments, by the places of the
arguments. -/
structure Tables where
  attackers : Array Nat
  targets : Array Nat
  deriving DecidableEq, Repr

/-- Notes in a table that the argument `near` has the neighbour `far`. -/
def addNeighbour (F : Framework) (table : Array Nat) (near far : String) : Array Nat :=
  table.modify (F.arguments.idxOf near) fun m => m ||| F.bit far

/-- Notes an attack in both tables. -/
def note (F : Framework) (t : Tables) (a : Attack) : Tables where
  attackers := F.addNeighbour t.attackers a.target a.attacker
  targets := F.addNeighbour t.targets a.attacker a.target

/-- Tables in which no argument has a neighbour. -/
def blank (F : Framework) : Tables := ⟨Array.replicate F.size 0, Array.replicate F.size 0⟩

/-- The tables with all attacks. -/
def tables (F : Framework) : Tables := F.attacks.foldl F.note F.blank

end Argumentation.Framework
