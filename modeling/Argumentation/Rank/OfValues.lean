import Argumentation.Framework.OfValues
import Argumentation.Rank

/-!
# Ranks of values

A ranking as a caller asks for it, with attacks, roots and fallbacks as values. The roots that count
are settled before the attacks are read: where there are none, no attack can be at fault.
-/

namespace Argumentation

namespace Adjacency

/-- The neighbours in the graph of the attacks that the values name. -/
def ofValues (attacks : List Value) : Except AttackFault (Adjacency Value) :=
  (attacks.mapM Attack.ofValue).map fun attacks =>
    ofPairs (attacks.map fun a => (.text a.attacker, .text a.target))

end Adjacency

/-- A ranking that is asked for. -/
structure RankQuery where
  attacks : List Value
  roots : List Value
  /-- The root of a ranking from the top without roots; null if there is none. -/
  fallbackFirst : Value
  /-- The root of a ranking from the bottom without roots; null if there is none. -/
  fallbackLast : Value
  fromTop : Bool

namespace RankQuery

/-- The root that stands in where no roots are given. -/
def fallback (q : RankQuery) : Option Value :=
  match if q.fromTop then q.fallbackFirst else q.fallbackLast with
  | .null => none
  | v => some v

/-- The ranks of all nodes that can be reached from the roots that count. -/
def answer (q : RankQuery) : Except AttackFault (Distances Value) :=
  match Rank.effectiveRoots q.roots q.fallback with
  | [] => .ok []
  | roots => (Adjacency.ofValues q.attacks).map fun g => Rank.fromRoots g roots

end RankQuery

end Argumentation
