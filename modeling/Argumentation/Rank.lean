import Argumentation.Canonical

/-!
# Ranks

The rank of a node is its least distance from a root in the graph that results when the direction of
every attack is ignored. Distances come from a breadth-first search; with several roots a node keeps
the least of its distances. The search is written for nodes of any type with a decided equality and
for adjacency lists of any kind, symmetric or not.
-/

namespace Argumentation

/-- The neighbours of every node that has some, nodes in the order of their first occurrence. -/
abbrev Adjacency (ν : Type) := List (ν × List ν)

/-- Distances of nodes. -/
abbrev Distances (ν : Type) := List (ν × Nat)

namespace Adjacency

variable {ν : Type} [BEq ν]

/-- The neighbours of a node. -/
def neighbours (g : Adjacency ν) (v : ν) : List ν := (g.lookup v).getD []

/-- Adds `v` to the neighbours of `u`, unless it is one of them. -/
def link (u v : ν) : Adjacency ν → Adjacency ν
  | [] => [(u, [v])]
  | (w, vs) :: g =>
    if w == u then (w, if vs.contains v then vs else vs ++ [v]) :: g
    else (w, vs) :: link u v g

/-- Every pair as two neighbours, whatever its direction. -/
def ofPairs (pairs : List (ν × ν)) : Adjacency ν :=
  pairs.foldl (fun g p => link p.2 p.1 (link p.1 p.2 g)) []

/-- The number of places at which a node is listed as a neighbour. -/
def links (g : Adjacency ν) : Nat := (g.flatMap fun entry => entry.2).length

end Adjacency

/-- A breadth-first search under way: the nodes that have been found, in the order in which they
were found, and those of them whose neighbours have not been looked at. -/
structure Search (ν : Type) where
  found : Distances ν
  waiting : Distances ν
  deriving Repr

namespace Search

variable {ν : Type} [BEq ν]

/-- Only the source has been found. -/
def start (source : ν) : Search ν := ⟨[(source, 0)], [(source, 0)]⟩

/-- Notes a node at a distance, unless it has been found before. -/
def discover (distance : Nat) (s : Search ν) (v : ν) : Search ν :=
  if s.found.any fun entry => entry.1 == v then s
  else ⟨s.found ++ [(v, distance)], s.waiting ++ [(v, distance)]⟩

/-- Looks at the neighbours of the first waiting node, until none waits. -/
def run (g : Adjacency ν) : (fuel : Nat) → Search ν → Search ν
  | 0, s => s
  | fuel + 1, s =>
    match s.waiting with
    | [] => s
    | (v, distance) :: rest =>
      run g fuel ((g.neighbours v).foldl (discover (distance + 1)) ⟨s.found, rest⟩)

end Search

namespace Rank

variable {ν : Type} [BEq ν]

/-- The distances from a source, of the nodes that can be reached from it. Each node but the source
is found at a place where it is listed as a neighbour, so there are not more steps than such
places and one. -/
def distancesFrom (g : Adjacency ν) (source : ν) : Distances ν :=
  (Search.run g (g.links + 1) (.start source)).found

/-- Notes a distance of a node, which keeps the least one. -/
def improve (rank : Distances ν) (entry : ν × Nat) : Distances ν :=
  match rank with
  | [] => [entry]
  | (v, d) :: rest =>
    if v == entry.1 then (v, min d entry.2) :: rest else (v, d) :: improve rest entry

/-- The least distance of every node from one of the roots. -/
def fromRoots (g : Adjacency ν) (roots : List ν) : Distances ν :=
  roots.foldl (fun rank root => (distancesFrom g root).foldl improve rank) []

/-- The roots that count: the given ones, and if there are none, the fallback. -/
def effectiveRoots (roots : List ν) (fallback : Option ν) : List ν :=
  if roots.isEmpty then fallback.toList else distinct roots

/-- The ranks of all nodes that can be reached from the roots that count. -/
def compute (pairs : List (ν × ν)) (roots : List ν) (fallback : Option ν) : Distances ν :=
  fromRoots (.ofPairs pairs) (effectiveRoots roots fallback)

end Rank

end Argumentation
