import Argumentation.Proofs.Distance
import Mathlib.Data.Nat.Find

/-!
# Argumentation.Proofs.Ranking

A ranking gives every node its least distance from the roots that count, in the graph in which the
pairs are joined whatever their direction (`Rank.leastOf_compute`). A walk over the distances from
one root after the other keeps, for every node, the least of the numbers that have been noted of it
(`LeastOf.improve`); since each search finds shortest paths, the least of these is what the shortest
of all paths gives.
-/

namespace Argumentation

variable {ν : Type} {u v w : ν} {d n : Nat} {ranks : Distances ν} {noted noted' : ν → Nat → Prop}

/-! ### The least of what is noted -/

/-- The entries give every node the least of the numbers that are noted of it. -/
structure LeastOf (noted : ν → Nat → Prop) (ranks : Distances ν) : Prop where
  nodup : (ranks.map (·.1)).Nodup
  mem_iff : ∀ v d, (v, d) ∈ ranks ↔ IsLeast {n | noted v n} d

namespace LeastOf

theorem nil : LeastOf (fun (_ : ν) _ => False) [] :=
  ⟨List.nodup_nil, fun v d => by simp [IsLeast]⟩

/-- What has no entry has nothing noted of it, since something noted has a least number. -/
theorem not_noted (h : LeastOf noted ranks) (new : v ∉ ranks.map (·.1)) : ¬ noted v n := by
  classical
  intro hn
  have some_noted : ∃ n, noted v n := ⟨n, hn⟩
  have least : IsLeast {n | noted v n} (Nat.find some_noted) :=
    ⟨Nat.find_spec some_noted, fun m hm => Nat.find_min' some_noted hm⟩
  exact new (List.mem_map_of_mem (f := (·.1)) ((h.mem_iff v _).2 least))

theorem congr (h : LeastOf noted ranks) (same : ∀ v d, noted v d ↔ noted' v d) :
    LeastOf noted' ranks := by
  have : noted = noted' := funext fun v => funext fun d => propext (same v d)
  rwa [← this]

end LeastOf

variable [BEq ν] [LawfulBEq ν]

/-! ### The graph of the pairs -/

namespace Adjacency

variable {a b : ν} {g : Adjacency ν}

/-- The entry of a node is the first one with its key, and this is the one that a link goes to. -/
theorem mem_neighbours_link :
    v ∈ (link a b g).neighbours u ↔ v ∈ g.neighbours u ∨ u = a ∧ v = b := by
  simp only [neighbours]
  induction g with
  | nil =>
      rw [link, List.lookup_cons]
      by_cases h : u = a
      · simp [h]
      · simp [h, beq_false_of_ne h]
  | cons entry g ih =>
      obtain ⟨w, vs⟩ := entry
      rw [link]
      by_cases hw : w = a
      · subst hw
        rw [if_pos (beq_self_eq_true w), List.lookup_cons, List.lookup_cons]
        by_cases hu : u = w
        · subst hu
          by_cases hb : b ∈ vs
          · simp only [beq_self_eq_true, List.contains_iff_mem, hb, if_true, Option.getD_some,
              true_and]
            exact ⟨.inl, fun h => h.elim id fun same => same ▸ hb⟩
          · simp [hb]
        · simp [hu, beq_false_of_ne hu]
      · rw [if_neg (by simpa using hw), List.lookup_cons, List.lookup_cons]
        by_cases hu : u = w
        · subst hu
          simp [hw]
        · simpa [beq_false_of_ne hu] using ih

/-- Two nodes are neighbours if they are a pair, whatever its direction. -/
theorem next_ofPairs_iff {pairs : List (ν × ν)} :
    (ofPairs pairs).Next u v ↔ (u, v) ∈ pairs ∨ (v, u) ∈ pairs := by
  suffices walk : ∀ g : Adjacency ν,
      v ∈ (pairs.foldl (fun g p => link p.2 p.1 (link p.1 p.2 g)) g).neighbours u ↔
        v ∈ g.neighbours u ∨ (u, v) ∈ pairs ∨ (v, u) ∈ pairs by
    simpa [Next, ofPairs, neighbours] using walk []
  induction pairs with
  | nil => simp
  | cons p pairs ih =>
      intro g
      rw [List.foldl_cons, ih, mem_neighbours_link, mem_neighbours_link]
      obtain ⟨a, b⟩ := p
      simp only [List.mem_cons, Prod.mk.injEq]
      tauto

end Adjacency

/-! ### Noting one number after the other -/

namespace Rank

theorem improve_map_fst :
    (improve ranks (v, d)).map (·.1) =
      if v ∈ ranks.map (·.1) then ranks.map (·.1) else ranks.map (·.1) ++ [v] := by
  induction ranks with
  | nil => simp [improve]
  | cons entry ranks ih =>
      obtain ⟨w, n⟩ := entry
      rw [improve]
      by_cases hw : w = v
      · simp [hw]
      · rw [if_neg (by simpa using hw), List.map_cons, ih]
        have apart : v ≠ w := fun h => hw h.symm
        by_cases hv : v ∈ ranks.map (·.1)
        · simp [hv]
        · rw [if_neg hv, if_neg (by simpa [apart] using hv)]
          rfl

theorem mem_improve_of_ne (apart : w ≠ v) : (w, n) ∈ improve ranks (v, d) ↔ (w, n) ∈ ranks := by
  induction ranks with
  | nil => simp [improve, apart]
  | cons entry ranks ih =>
      obtain ⟨x, m⟩ := entry
      rw [improve]
      by_cases hx : x = v
      · subst hx
        simp [apart]
      · rw [if_neg (by simpa using hx), List.mem_cons, List.mem_cons, ih]

theorem mem_improve_of_mem (nodup : (ranks.map (·.1)).Nodup) (h : (v, n) ∈ ranks) :
    (v, min n d) ∈ improve ranks (v, d) := by
  induction ranks with
  | nil => exact absurd h List.not_mem_nil
  | cons entry ranks ih =>
      obtain ⟨w, m⟩ := entry
      rw [List.map_cons, List.nodup_cons] at nodup
      rw [improve]
      rcases List.mem_cons.1 h with same | h
      · cases same
        rw [if_pos (beq_self_eq_true v)]
        exact List.mem_cons_self
      · have apart : w ≠ v := fun same => nodup.1 (same ▸ List.mem_map_of_mem (f := (·.1)) h)
        rw [if_neg (by simpa using apart)]
        exact List.mem_cons_of_mem _ (ih nodup.2 h)

theorem mem_improve_of_not_mem (new : v ∉ ranks.map (·.1)) : (v, d) ∈ improve ranks (v, d) := by
  induction ranks with
  | nil => exact List.mem_singleton_self _
  | cons entry ranks ih =>
      obtain ⟨w, m⟩ := entry
      rw [List.map_cons, List.mem_cons, not_or] at new
      rw [improve, if_neg (by simpa using Ne.symm new.1)]
      exact List.mem_cons_of_mem _ (ih new.2)

end Rank

namespace LeastOf

open Rank

/-- One more number is noted of a node. -/
theorem improve (h : LeastOf noted ranks) (v : ν) (d : Nat) :
    LeastOf (fun w n => noted w n ∨ w = v ∧ n = d) (improve ranks (v, d)) := by
  have nodup : ((Rank.improve ranks (v, d)).map (·.1)).Nodup := by
    rw [improve_map_fst]
    split
    · exact h.nodup
    · next new => exact h.nodup.append (List.nodup_singleton v) (by simpa using new)
  refine ⟨nodup, fun w n => ?_⟩
  by_cases hw : w = v
  · subst hw
    -- the number that the node has now, and that it is the least one
    obtain ⟨m, entry, least⟩ : ∃ m, (w, m) ∈ Rank.improve ranks (w, d) ∧
        IsLeast {n | noted w n ∨ w = w ∧ n = d} m := by
      by_cases known : w ∈ ranks.map (·.1)
      · obtain ⟨⟨w, m⟩, hm, rfl⟩ := List.mem_map.1 known
        refine ⟨min m d, mem_improve_of_mem h.nodup hm, ?_⟩
        have both : {n | noted w n ∨ w = w ∧ n = d} = {n | noted w n} ∪ {d} := by
          ext n
          simp [or_comm]
        rw [both]
        exact ((h.mem_iff w m).1 hm).union isLeast_singleton
      · refine ⟨d, mem_improve_of_not_mem known, .inr ⟨rfl, rfl⟩, ?_⟩
        rintro n (hn | ⟨-, rfl⟩)
        · exact absurd hn (h.not_noted known)
        · exact le_rfl
    constructor
    · intro hn
      obtain rfl : n = m := congrArg Prod.snd (List.inj_on_of_nodup_map nodup hn entry rfl)
      exact least
    · intro hn
      rwa [hn.unique least]
  · rw [mem_improve_of_ne hw, h.mem_iff]
    simp [hw]

/-- The numbers of a whole list are noted. -/
theorem foldl_improve (h : LeastOf noted ranks) (entries : Distances ν) :
    LeastOf (fun v n => noted v n ∨ (v, n) ∈ entries) (entries.foldl Rank.improve ranks) := by
  induction entries generalizing ranks noted with
  | nil => exact h.congr fun v n => by simp
  | cons entry entries ih =>
      obtain ⟨v, d⟩ := entry
      exact (ih (h.improve v d)).congr fun w n => by simp [or_assoc]

end LeastOf

namespace Rank

variable {g : Adjacency ν} {roots : List ν}

theorem leastOf_fromRoots (g : Adjacency ν) (roots : List ν) :
    LeastOf (fun v n => ∃ r ∈ roots, (v, n) ∈ distancesFrom g r) (fromRoots g roots) := by
  suffices walk : ∀ (noted : ν → Nat → Prop) (ranks : Distances ν), LeastOf noted ranks →
      LeastOf (fun v n => noted v n ∨ ∃ r ∈ roots, (v, n) ∈ distancesFrom g r)
        (roots.foldl (fun ranks r => (distancesFrom g r).foldl improve ranks) ranks) from
    (walk _ _ .nil).congr fun v n => by simp
  induction roots with
  | nil => exact fun noted ranks h => h.congr fun v n => by simp
  | cons r roots ih =>
      intro noted ranks h
      exact (ih _ _ (h.foldl_improve _)).congr fun v n => by simp [or_assoc]

/-- The least of the distances from the roots is the length of a shortest path from any of them. -/
theorem isLeast_distance_iff :
    IsLeast {n | ∃ r ∈ roots, (v, n) ∈ distancesFrom g r} d ↔
      IsLeast {n | ∃ r ∈ roots, Walk g.Next r v n} d := by
  have is_walk {n : Nat} : (∃ r ∈ roots, (v, n) ∈ distancesFrom g r) →
      ∃ r ∈ roots, Walk g.Next r v n :=
    fun ⟨r, hr, found⟩ => ⟨r, hr, (mem_distancesFrom_iff.1 found).1⟩
  have shorter {n : Nat} : (∃ r ∈ roots, Walk g.Next r v n) →
      ∃ m ≤ n, ∃ r ∈ roots, (v, m) ∈ distancesFrom g r := by
    rintro ⟨r, hr, walk⟩
    obtain ⟨m, le, found⟩ := (sound_distancesFrom g r).exists_le rfl walk
    exact ⟨m, le, r, hr, found⟩
  constructor
  · rintro ⟨found, least⟩
    refine ⟨is_walk found, fun n walk => ?_⟩
    obtain ⟨m, le, found⟩ := shorter walk
    exact (least found).trans le
  · rintro ⟨walk, least⟩
    obtain ⟨m, le, found⟩ := shorter walk
    obtain rfl : m = d := le.antisymm (least (is_walk found))
    exact ⟨found, fun n found => least (is_walk found)⟩

theorem mem_effectiveRoots_iff {fallback : Option ν} {r : ν} :
    r ∈ effectiveRoots roots fallback ↔ r ∈ roots ∨ roots = [] ∧ fallback = some r := by
  rw [effectiveRoots]
  cases roots with
  | nil => simp [Option.mem_toList]
  | cons a roots => simp

/-- **Ranks are least distances** from the roots that count, where direction does not matter. -/
theorem leastOf_compute (pairs : List (ν × ν)) (roots : List ν) (fallback : Option ν) :
    LeastOf (fun v n => ∃ r, (r ∈ roots ∨ roots = [] ∧ fallback = some r) ∧
      Walk (fun a b => (a, b) ∈ pairs ∨ (b, a) ∈ pairs) r v n) (compute pairs roots fallback) := by
  have ranks := leastOf_fromRoots (.ofPairs pairs) (effectiveRoots roots fallback)
  have next : (Adjacency.ofPairs pairs).Next = fun a b => (a, b) ∈ pairs ∨ (b, a) ∈ pairs :=
    funext fun a => funext fun b => propext Adjacency.next_ofPairs_iff
  refine ⟨ranks.nodup, fun v d => ?_⟩
  rw [compute, ranks.mem_iff, isLeast_distance_iff, next]
  simp only [mem_effectiveRoots_iff]

end Rank

end Argumentation
