import Argumentation.Proofs.Construction
import Argumentation.Proofs.Ranking
import Argumentation.Rank.OfValues
import Mathlib.Order.Lattice.Nat

/-!
# Argumentation.Proofs.RankQuery

What a caller gets who asks for a ranking with attacks, roots and fallbacks of its own. The roots
that count are the given ones, or the fallback of the side that is asked for; every name gets its
least distance from them, in the graph of the attacks without their directions
(`RankQuery.Answered`). Nothing else shows in the answer: not the order of attacks and roots, not
their repetitions, and not the order in which the neighbours of a name are visited.

A caller's ranking is one of values, and values are told apart as keys, which is coarser than being
equal. Names are told apart in the same way whether they are texts or values, so the whole ranking
of values is that of the texts with the nodes renamed (`Rank.fromRoots_rename`).
-/

namespace Argumentation

/-! ### Renamed nodes -/

section Renaming

variable {ν μ : Type} {f : ν → μ}

/-- The distances of the renamed nodes. -/
def Distances.rename (f : ν → μ) (ranks : Distances ν) : Distances μ :=
  ranks.map fun entry => (f entry.1, entry.2)

/-- The graph of the renamed nodes. -/
def Adjacency.rename (f : ν → μ) (g : Adjacency ν) : Adjacency μ :=
  g.map fun entry => (f entry.1, entry.2.map f)

/-- The search among the renamed nodes. -/
def Search.rename (f : ν → μ) (s : Search ν) : Search μ := ⟨s.found.rename f, s.waiting.rename f⟩

theorem Adjacency.links_rename (g : Adjacency ν) : (g.rename f).links = g.links := by
  simp [links, rename, List.flatMap_map, List.length_flatMap]

variable [BEq ν] [BEq μ]

/-- Nodes are the same exactly if they are the same under their new names. -/
def KeepsApart (f : ν → μ) : Prop := ∀ u v, (f u == f v) = (u == v)

namespace Adjacency

theorem contains_map (apart : KeepsApart f) (vs : List ν) (v : ν) :
    (vs.map f).contains (f v) = vs.contains v := by
  induction vs with
  | nil => rfl
  | cons w vs ih =>
      rw [List.map_cons, List.contains_cons, List.contains_cons, apart, ih]

theorem neighbours_rename (apart : KeepsApart f) (g : Adjacency ν) (v : ν) :
    (g.rename f).neighbours (f v) = (g.neighbours v).map f := by
  simp only [neighbours, rename]
  induction g with
  | nil => rfl
  | cons entry g ih =>
      rw [List.map_cons, List.lookup_cons, List.lookup_cons, apart]
      split
      · rfl
      · exact ih

/-- A link between renamed nodes is the renamed link. -/
theorem link_rename (apart : KeepsApart f) (u v : ν) (g : Adjacency ν) :
    (link u v g).rename f = link (f u) (f v) (g.rename f) := by
  induction g with
  | nil => rfl
  | cons entry g ih =>
      obtain ⟨w, vs⟩ := entry
      simp only [rename, List.map_cons, link, apart w u, contains_map apart] at ih ⊢
      cases w == u with
      | true => cases vs.contains v <;> simp
      | false => simpa using ih

theorem ofPairs_rename (apart : KeepsApart f) (pairs : List (ν × ν)) :
    (ofPairs pairs).rename f = ofPairs (pairs.map fun p => (f p.1, f p.2)) := by
  rw [ofPairs, ofPairs, List.foldl_map]
  refine (List.foldl_hom (f := rename f) fun g p => ?_).symm
  rw [link_rename apart, link_rename apart]

end Adjacency

namespace Search

theorem discover_rename (apart : KeepsApart f) (d : Nat) (s : Search ν) (v : ν) :
    (discover d s v).rename f = discover d (s.rename f) (f v) := by
  have same : ((s.rename f).found.any fun entry => entry.1 == f v) =
      s.found.any fun entry => entry.1 == v := by
    simp [rename, Distances.rename, List.any_map, Function.comp_def, apart _ v]
  rw [discover, discover, same]
  split
  · rfl
  · simp [rename, Distances.rename]

/-- The renamed nodes are visited in the same order, at the same distances. -/
theorem run_rename (apart : KeepsApart f) (g : Adjacency ν) (fuel : Nat) (s : Search ν) :
    (run g fuel s).rename f = run (g.rename f) fuel (s.rename f) := by
  induction fuel generalizing s with
  | zero => rfl
  | succ fuel ih =>
      obtain ⟨found, waiting⟩ := s
      cases waiting with
      | nil => rfl
      | cons entry rest =>
          obtain ⟨v, d⟩ := entry
          show (run g fuel ((g.neighbours v).foldl (discover (d + 1)) ⟨found, rest⟩)).rename f =
            run (g.rename f) fuel (((g.rename f).neighbours (f v)).foldl (discover (d + 1))
              (rename f ⟨found, rest⟩))
          rw [ih, Adjacency.neighbours_rename apart, List.foldl_map]
          refine congrArg (run (g.rename f) fuel) ?_
          exact (List.foldl_hom (f := rename f) fun s v => (discover_rename apart _ s v).symm).symm

end Search

namespace Rank

theorem distancesFrom_rename (apart : KeepsApart f) (g : Adjacency ν) (source : ν) :
    (distancesFrom g source).rename f = distancesFrom (g.rename f) (f source) := by
  rw [distancesFrom, distancesFrom, Adjacency.links_rename]
  exact congrArg Search.found (Search.run_rename apart g _ (.start source))

theorem improve_rename (apart : KeepsApart f) (ranks : Distances ν) (v : ν) (d : Nat) :
    (improve ranks (v, d)).rename f = improve (ranks.rename f) (f v, d) := by
  induction ranks with
  | nil => rfl
  | cons entry ranks ih =>
      obtain ⟨w, n⟩ := entry
      simp only [Distances.rename, List.map_cons, improve, apart w v] at ih ⊢
      cases w == v with
      | true => simp
      | false => simpa using ih

theorem foldl_improve_rename (apart : KeepsApart f) (ranks entries : Distances ν) :
    (entries.foldl improve ranks).rename f = (entries.rename f).foldl improve (ranks.rename f) := by
  rw [Distances.rename.eq_def f entries, List.foldl_map]
  exact (List.foldl_hom (f := Distances.rename f) fun ranks entry =>
    (improve_rename apart ranks entry.1 entry.2).symm).symm

/-- Renaming the nodes renames the ranks. -/
theorem fromRoots_rename (apart : KeepsApart f) (g : Adjacency ν) (roots : List ν) :
    (fromRoots g roots).rename f = fromRoots (g.rename f) (roots.map f) := by
  rw [fromRoots, fromRoots, List.foldl_map]
  refine (List.foldl_hom (f := Distances.rename f) fun ranks root => ?_).symm
  rw [foldl_improve_rename apart, distancesFrom_rename apart]

end Rank

theorem distinct_map (apart : KeepsApart f) (xs : List ν) :
    distinct (xs.map f) = (distinct xs).map f := by
  match xs with
  | [] => rfl
  | a :: xs =>
    have others : (xs.map f).filter (fun b => !b == f a) = (xs.filter fun b => !b == a).map f := by
      rw [List.filter_map]
      simp only [Function.comp_def, apart _ a]
    rw [distinct, distinct, List.map_cons, List.eraseDups_cons, List.eraseDups_cons, others,
      List.map_cons]
    exact congrArg _ (distinct_map apart _)
termination_by xs.length
decreasing_by
  exact Nat.lt_succ_of_le (List.length_filter_le _ xs)

end Renaming

theorem keepsApart_text : KeepsApart Value.text := fun _ _ => rfl

/-! ### Rankings of names -/

/-- One of the two attacks the other. -/
def Joined (given : List Attack) (a b : String) : Prop := ⟨a, b⟩ ∈ given ∨ ⟨b, a⟩ ∈ given

/-- The ranks of the names that the attacks join, as seen from the roots. -/
structure Ranking (given : List Attack) (roots : List String) (ranks : Distances String) :
    Prop where
  /-- No name has two ranks. -/
  nodup : (ranks.map (·.1)).Nodup
  /-- The rank of a name is the least of its distances from the roots, each of which is the length
  of a shortest path. -/
  mem_iff : ∀ a d, (a, d) ∈ ranks ↔
    IsLeast {n | ∃ r ∈ roots, IsLeast {m | Walk (Joined given) r a m} n} d
  /-- Names that no root is connected to have no rank. -/
  mem_names_iff : ∀ a, a ∈ ranks.map (·.1) ↔ ∃ r ∈ roots, ∃ n, Walk (Joined given) r a n
  /-- A root has the rank 0, even if no attack names it. -/
  root : ∀ r ∈ roots, (r, 0) ∈ ranks

namespace Ranking

variable {given given' : List Attack} {roots roots' : List String} {ranks ranks' : Distances String}

theorem ofLeastOf (h : LeastOf
    (fun a n => ∃ r ∈ roots, IsLeast {m | Walk (Joined given) r a m} n) ranks) :
    Ranking given roots ranks := by
  refine ⟨h.nodup, h.mem_iff, fun a => ⟨fun ha => ?_, ?_⟩, fun r hr => ?_⟩
  · obtain ⟨⟨a, d⟩, he, rfl⟩ := List.mem_map.1 ha
    obtain ⟨r, hr, least⟩ := ((h.mem_iff a d).1 he).1
    exact ⟨r, hr, d, least.1⟩
  · rintro ⟨r, hr, n, walk⟩
    by_contra absent
    have reached : {m | Walk (Joined given) r a m}.Nonempty := ⟨n, walk⟩
    exact h.not_noted absent ⟨r, hr, isLeast_csInf reached⟩
  · refine (h.mem_iff r 0).2 ⟨⟨r, hr, .start, fun _ _ => Nat.zero_le _⟩, fun _ _ => Nat.zero_le _⟩

theorem congr (h : Ranking given roots ranks) (same : ∀ r, r ∈ roots ↔ r ∈ roots') :
    Ranking given roots' ranks := by
  obtain ⟨nodup, mem_iff, mem_names_iff, root⟩ := h
  simp only [same] at mem_iff mem_names_iff root
  exact ⟨nodup, mem_iff, mem_names_iff, root⟩

/-- There is only one ranking. -/
theorem perm (h : Ranking given roots ranks) (h' : Ranking given' roots' ranks')
    (joined : ∀ a b, Joined given a b ↔ Joined given' a b) (same : ∀ r, r ∈ roots ↔ r ∈ roots') :
    ranks.Perm ranks' := by
  have next : Joined given = Joined given' := funext fun a => funext fun b => propext (joined a b)
  refine (List.perm_ext_iff_of_nodup (.of_map _ h.nodup) (.of_map _ h'.nodup)).2 ?_
  rintro ⟨a, d⟩
  rw [h.mem_iff, h'.mem_iff, next]
  simp only [same]

end Ranking

/-- The walks from the roots, one after the other, make a ranking, in whatever order neighbours are
listed. -/
theorem Rank.ranking_fromRoots {given : List Attack} {g : Adjacency String}
    (neighbours : ∀ a b, b ∈ g.neighbours a ↔ Joined given a b) (roots : List String) :
    Ranking given roots (fromRoots g roots) := by
  have next : g.Next = Joined given := funext fun a => funext fun b => propext (neighbours a b)
  refine .ofLeastOf ((leastOf_fromRoots g roots).congr fun a n => ?_)
  simp only [mem_distancesFrom_iff, next]

/-- The neighbours of a name are those that it attacks or that attack it. -/
theorem Adjacency.mem_neighbours_ofPairs {given : List Attack} {a b : String} :
    b ∈ (ofPairs (given.map fun e => (e.attacker, e.target))).neighbours a ↔ Joined given a b := by
  have listed (a b : String) :
      (a, b) ∈ given.map (fun e => (e.attacker, e.target)) ↔ ⟨a, b⟩ ∈ given := by
    rw [List.mem_map]
    exact ⟨fun ⟨_, he, same⟩ => by cases same; exact he, fun he => ⟨_, he, rfl⟩⟩
  rw [← Next, next_ofPairs_iff, listed, listed, Joined]

/-! ### Rankings that are asked for -/

namespace RankQuery

/-- A ranking that is asked for with names as roots. -/
def ofNames (attacks : List Value) (roots : List String) (first last : Option String)
    (fromTop : Bool) : RankQuery where
  attacks
  roots := roots.map .text
  fallbackFirst := (first.map .text).getD .null
  fallbackLast := (last.map .text).getD .null
  fromTop

/-- The roots that count: the given ones, and if there are none, the fallback of the side. -/
def rootsOf (roots : List String) (first last : Option String) (fromTop : Bool) : List String :=
  if roots = [] then (if fromTop then first else last).toList else roots

variable {attacks : List Value} {roots : List String} {first last : Option String} {fromTop : Bool}

/-- The roots that count are the same for texts as for the names that they are. -/
theorem effectiveRoots_ofNames :
    Rank.effectiveRoots (ofNames attacks roots first last fromTop).roots
    (ofNames attacks roots first last fromTop).fallback =
      (distinct (rootsOf roots first last fromTop)).map .text := by
  have standIn : (ofNames attacks roots first last fromTop).fallback =
      (if fromTop then first else last).map .text := by
    cases fromTop with
    | true => cases first <;> rfl
    | false => cases last <;> rfl
  rw [standIn, Rank.effectiveRoots, rootsOf]
  cases roots with
  | nil => cases (if fromTop then first else last) <;> rfl
  | cons r roots => exact distinct_map keepsApart_text (r :: roots)

/-- The roots are settled before the attacks are read. -/
theorem answer_ofNames (some_left : rootsOf roots first last fromTop ≠ []) :
    (ofNames attacks roots first last fromTop).answer = (attacks.mapM Attack.ofValue).map
      fun given => (Rank.fromRoots (.ofPairs (given.map fun e => (e.attacker, e.target)))
        (distinct (rootsOf roots first last fromTop))).rename .text := by
  have some_distinct := mt distinct_eq_nil.1 some_left
  rw [answer, effectiveRoots_ofNames]
  generalize distinct (rootsOf roots first last fromTop) = R at some_distinct ⊢
  cases R with
  | nil => exact absurd rfl some_distinct
  | cons r rest =>
      show (Adjacency.ofValues attacks).map (fun g => Rank.fromRoots g ((r :: rest).map .text)) = _
      rw [Adjacency.ofValues]
      cases attacks.mapM Attack.ofValue with
      | error fault => rfl
      | ok given =>
          simp only [Except.map, Rank.fromRoots_rename keepsApart_text,
            Adjacency.ofPairs_rename keepsApart_text, List.map_map, Function.comp_def]

theorem answer_eq_nil (none_left : rootsOf roots first last fromTop = []) :
    (ofNames attacks roots first last fromTop).answer = .ok [] := by
  rw [answer, effectiveRoots_ofNames, none_left]
  rfl

/-- Where the attacks can be read, there is an answer, and it is the ranking from the roots that
count. -/
theorem exists_ranking {given : List Attack} (roots : List String) (first last : Option String)
    (fromTop : Bool) (read : attacks.mapM Attack.ofValue = .ok given) :
    ∃ ranks : Distances String,
      (ofNames attacks roots first last fromTop).answer = .ok (ranks.rename .text) ∧
        Ranking given (rootsOf roots first last fromTop) ranks := by
  by_cases none_left : rootsOf roots first last fromTop = []
  · refine ⟨[], answer_eq_nil none_left, ?_⟩
    rw [none_left]
    exact Rank.ranking_fromRoots (fun _ _ => Adjacency.mem_neighbours_ofPairs) []
  · refine ⟨_, by rw [answer_ofNames none_left, read]; rfl, ?_⟩
    refine Ranking.congr (Rank.ranking_fromRoots (fun _ _ => ?_) _) fun r => mem_distinct
    exact Adjacency.mem_neighbours_ofPairs

/-- Attacks that have been read before are ranked in the same way. -/
theorem ranking_compute (given : List Attack) : Ranking given (rootsOf roots first last fromTop)
    (Rank.compute (given.map fun e => (e.attacker, e.target)) roots
      (if fromTop then first else last)) := by
  refine (Rank.ranking_fromRoots (fun _ _ => Adjacency.mem_neighbours_ofPairs) _).congr fun r => ?_
  rw [Rank.mem_effectiveRoots_iff, rootsOf]
  cases roots with
  | nil => simp [Option.mem_toList]
  | cons a roots => simp

/-- What is answered where a ranking is asked for. -/
structure Answered (attacks : List Value) (roots : List String) (first last : Option String)
    (fromTop : Bool) : Prop where
  /-- Without a root there are no ranks, whatever the attacks are. -/
  rootless : rootsOf roots first last fromTop = [] →
    (ofNames attacks roots first last fromTop).answer = .ok []
  /-- With a root, the first attack that cannot be read is told. -/
  refused : ∀ fault, rootsOf roots first last fromTop ≠ [] →
    attacks.mapM Attack.ofValue = .error fault →
    (ofNames attacks roots first last fromTop).answer = .error fault
  ranked : ∀ given, attacks.mapM Attack.ofValue = .ok given →
    ∃ ranks : Distances String,
      (ofNames attacks roots first last fromTop).answer = .ok (ranks.rename .text) ∧
      Ranking given (rootsOf roots first last fromTop) ranks ∧
      -- the neighbours of a name may be listed in any order
      ∀ g : Adjacency String, (∀ a b, b ∈ g.neighbours a ↔ Joined given a b) →
        (Rank.fromRoots g (rootsOf roots first last fromTop)).Perm ranks
  /-- Attacks that have been read before are ranked in the same way. -/
  resolved : ∀ given : List Attack, Ranking given (rootsOf roots first last fromTop)
    (Rank.compute (given.map fun e => (e.attacker, e.target)) roots
      (if fromTop then first else last))
  /-- Neither the directions of the attacks show, nor the order and the repetitions of attacks and
  roots. -/
  alike : ∀ attacks' roots' first' last' fromTop' given given',
    attacks.mapM Attack.ofValue = .ok given → attacks'.mapM Attack.ofValue = .ok given' →
    (∀ a b, Joined given a b ↔ Joined given' a b) →
    (∀ r, r ∈ rootsOf roots first last fromTop ↔ r ∈ rootsOf roots' first' last' fromTop') →
    ∃ ranks ranks' : Distances String,
      (ofNames attacks roots first last fromTop).answer = .ok (ranks.rename .text) ∧
      (ofNames attacks' roots' first' last' fromTop').answer = .ok (ranks'.rename .text) ∧
      ranks.Perm ranks'

/-- **A ranking is asked for by roots and pairs alone.** With the attacks, roots and fallbacks that
a caller hands over, every name gets its least distance from the roots that count. -/
theorem answered (attacks : List Value) (roots : List String) (first last : Option String)
    (fromTop : Bool) : Answered attacks roots first last fromTop := by
  constructor
  · exact answer_eq_nil
  · intro fault some_left bad
    rw [answer_ofNames some_left, bad]
    rfl
  · intro given read
    obtain ⟨ranks, answer, ranking⟩ := exists_ranking roots first last fromTop read
    refine ⟨ranks, answer, ranking, fun g neighbours => ?_⟩
    exact (Rank.ranking_fromRoots neighbours _).perm ranking (fun _ _ => Iff.rfl) fun _ => Iff.rfl
  · exact ranking_compute
  · intro attacks' roots' first' last' fromTop' given given' read read' joined same
    obtain ⟨ranks, answer, ranking⟩ := exists_ranking roots first last fromTop read
    obtain ⟨ranks', answer', ranking'⟩ := exists_ranking roots' first' last' fromTop' read'
    exact ⟨ranks, ranks', answer, answer', ranking.perm ranking' joined same⟩

/-- The root `z` is named by no attack, and `c` is given twice; the fallback does not count. -/
example : (ofNames [.text "ab", .list [.text "c", .text "b"]] ["c", "z", "c"] (some "a") none
    true).answer = .ok [(.text "c", 0), (.text "b", 1), (.text "a", 2), (.text "z", 0)] := rfl

end RankQuery

end Argumentation
