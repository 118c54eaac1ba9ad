import Argumentation.Framework

/-!
# Sets of arguments as masks

A set of arguments is a natural number whose bit `i` stands for the argument at place `i`. Masks
make the enumeration of sets cheap; names come back in canonical form only. A whole number of either
sign stands for a set too: bits beyond the arguments say nothing, and a negative number has all of
them set from some place on.
-/

namespace Argumentation.Framework

/-- The mask of the one argument `name`. -/
def bit (F : Framework) (name : String) : Nat := 1 <<< F.arguments.idxOf name

/-- The mask of a set of arguments. -/
def mask (F : Framework) (names : List String) : Nat :=
  names.foldl (fun m name => m ||| F.bit name) 0

/-- The mask of all arguments. -/
def fullMask (F : Framework) : Nat := (1 <<< F.size) - 1

/-- The mask of the attackers of an argument. -/
def attackersMask (F : Framework) (name : String) : Nat :=
  F.mask ((F.attacks.filter fun a => a.target == name).map (·.attacker))

/-- The mask of the arguments that an argument attacks. -/
def targetsMask (F : Framework) (name : String) : Nat :=
  F.mask ((F.attacks.filter fun a => a.attacker == name).map (·.target))

/-- The mask without its lowest bit. -/
def withoutLowest (m : Nat) : Nat := m &&& (m - 1)

/-- The place of the lowest bit of a mask. -/
def lowest (m : Nat) : Nat := (m ^^^ withoutLowest m).log2

/-- Whether the number `m` has bit `i`. -/
def hasBit (m : Int) (i : Nat) : Bool := (m >>> i) % 2 == 1

/-- The names of the arguments in the set that `m` stands for. -/
def namesOf (F : Framework) (m : Int) : List String :=
  canonical ((F.index.filter fun entry => hasBit m entry.2).map (·.1))

/-- An argument with its own mask and the masks of its neighbours. -/
structure Row where
  name : String
  bit : Nat
  attackers : Nat
  targets : Nat
  deriving DecidableEq, Repr

/-- The rows of the arguments, in the order of the arguments. -/
def rows (F : Framework) : List Row :=
  F.arguments.map fun name => ⟨name, F.bit name, F.attackersMask name, F.targetsMask name⟩

end Argumentation.Framework
