import Argumentation.Rank
import Mathlib.Data.List.Nodup
import Mathlib.Order.Bounds.Basic

/-!
# Argumentation.Proofs.Distance

The breadth-first search finds shortest paths, in every graph and whatever the order in which
neighbours are looked at. The search is taken apart into turns (`Search.Turn`), in each of which one
entry leaves the queue, and a run (`Search.Run`) makes turns until no node waits.

The invariant of the search is `Search.Sound`: the nodes that were found first are done with, the
others wait in the order in which they were found, and distances rise along that order by at most one
step over those of the waiting nodes. One look at a node preserves it (`Search.Sound.look`).

That no node waits in the end is a matter of counting. `Search.pending` counts the waiting nodes and
the places at which nodes are listed that have not been found; each turn takes one away.
-/

namespace Argumentation

/-! ### Paths -/

/-- There is a path of the given length from `source` to a node. -/
inductive Walk {ν : Type} (next : ν → ν → Prop) (source : ν) : ν → Nat → Prop where
  | start : Walk next source source 0
  | step {u v : ν} {n : Nat} (before : Walk next source u n) (last : next u v) :
      Walk next source v (n + 1)

/-- A shortest path has its nodes at different distances, so it meets none of them twice. -/
theorem exists_nodup_of_isLeast {ν : Type} {next : ν → ν → Prop} {source v : ν} {d : Nat}
    (h : IsLeast {n | Walk next source v n} d) : ∃ us : List ν, us.length = d + 1 ∧ us.Nodup ∧
      ∀ u ∈ us, ∃ k ≤ d, IsLeast {n | Walk next source u n} k := by
  obtain ⟨walk, least⟩ := h
  induction walk with
  | start => exact ⟨[source], rfl, List.nodup_singleton _, by simpa using ⟨Walk.start, least⟩⟩
  | @step u v n before last ih =>
      -- what leads to the node before the last one is shortest too
      have shortest : n ∈ lowerBounds {n | Walk next source u n} := fun m walk =>
        Nat.le_of_succ_le_succ (least (Walk.step walk last))
      obtain ⟨us, length, nodup, near⟩ := ih shortest
      have far : IsLeast {n | Walk next source v n} (n + 1) := ⟨Walk.step before last, least⟩
      refine ⟨v :: us, by rw [List.length_cons, length], List.nodup_cons.2 ⟨fun again => ?_, nodup⟩,
        List.forall_mem_cons.2 ⟨⟨n + 1, le_rfl, far⟩, fun w hw => ?_⟩⟩
      · obtain ⟨k, le, nearer⟩ := near v again
        exact absurd (far.unique nearer) (Nat.lt_succ_of_le le).ne'
      · obtain ⟨k, le, least⟩ := near w hw
        exact ⟨k, Nat.le_succ_of_le le, least⟩

/-- The node `v` is listed as a neighbour of `u`. -/
def Adjacency.Next {ν : Type} [BEq ν] (g : Adjacency ν) (u v : ν) : Prop := v ∈ g.neighbours u

variable {ν : Type} [BEq ν] {g : Adjacency ν} {source u v : ν} {d : Nat}

namespace Adjacency

/-- The places at which nodes are listed as neighbours. -/
def listed (g : Adjacency ν) : List ν := g.flatMap fun entry => entry.2

theorem neighbours_subset_listed (h : v ∈ g.neighbours u) : v ∈ g.listed := by
  induction g with
  | nil => exact absurd h List.not_mem_nil
  | cons entry g ih =>
      obtain ⟨w, vs⟩ := entry
      rw [neighbours, List.lookup_cons] at h
      rw [listed, List.flatMap_cons, List.mem_append]
      split at h
      · exact .inl h
      · exact .inr (ih h)

end Adjacency

namespace Search

variable {s : Search ν} {vs : List ν}

/-! ### The invariant -/

/-- What holds at any time during a search from `source`. -/
structure Sound (g : Adjacency ν) (source : ν) (s : Search ν) : Prop where
  /-- No node is found twice. -/
  nodup : (s.found.map (·.1)).Nodup
  source_mem : (source, 0) ∈ s.found
  /-- Nodes are found in the order of their distances. -/
  rising : s.found.Pairwise fun e f => e.2 ≤ f.2
  /-- A found node has a path that is as long as its distance. -/
  walk : ∀ e ∈ s.found, Walk g.Next source e.1 e.2
  /-- A waiting node is at most one step nearer than any other one. -/
  near : ∀ w ∈ s.waiting, ∀ e ∈ s.found, e.2 ≤ w.2 + 1
  /-- The nodes that wait are those that were found last. The neighbours of the others have been
  found, no later than one step behind. -/
  done : ∃ before, s.found = before ++ s.waiting ∧
    ∀ e ∈ before, ∀ v ∈ g.neighbours e.1, ∃ d ≤ e.2 + 1, (v, d) ∈ s.found

theorem Sound.start (g : Adjacency ν) (source : ν) : Sound g source (start source) := by
  constructor
  · simp [Search.start]
  · simp [Search.start]
  · simp [Search.start]
  · simpa [Search.start] using Walk.start
  · simp [Search.start]
  · exact ⟨[], rfl, by simp⟩

/-! ### Shortest paths -/

/-- Where no node waits, a node that a path leads to has been found, and no farther away than the
path is long. -/
theorem Sound.exists_le {n : Nat} (h : Sound g source s) (none_left : s.waiting = [])
    (walk : Walk g.Next source v n) : ∃ d ≤ n, (v, d) ∈ s.found := by
  obtain ⟨before, all, complete⟩ := h.done
  rw [none_left, List.append_nil] at all
  induction walk with
  | start => exact ⟨0, le_rfl, h.source_mem⟩
  | @step u v n _ last ih =>
      obtain ⟨d, le, found⟩ := ih
      obtain ⟨d', le', found'⟩ := complete (u, d) (all ▸ found) v last
      exact ⟨d', le'.trans (Nat.succ_le_succ le), found'⟩

/-- Where no node waits, what has been found are the lengths of shortest paths. -/
theorem Sound.mem_found_iff (h : Sound g source s) (none_left : s.waiting = []) :
    (v, d) ∈ s.found ↔ IsLeast {n | Walk g.Next source v n} d := by
  constructor
  · intro found
    refine ⟨h.walk (v, d) found, fun n walk => ?_⟩
    obtain ⟨d', le, found'⟩ := h.exists_le none_left walk
    obtain rfl : d = d' := congrArg Prod.snd (List.inj_on_of_nodup_map h.nodup found found' rfl)
    exact le
  · rintro ⟨walk, least⟩
    obtain ⟨d', le, found⟩ := h.exists_le none_left walk
    have ge : d ≤ d' := least (h.walk (v, d') found)
    rwa [le_antisymm ge le]

/-! ### Turns and runs -/

/-- One turn of a search: the entry `e` leaves the queue, the neighbours of its node are looked at in
an order that nothing fixes, and the entries `new` join the queue. -/
inductive Turn (g : Adjacency ν) (s : Search ν) (e : ν × Nat) (new : Distances ν) :
    Search ν → Prop where
  | look {rest : Distances ν} {order : List ν} (first : s.waiting = e :: rest)
      (lists : ∀ v, v ∈ order ↔ g.Next e.1 v)
      (joins : (order.foldl (discover (e.2 + 1)) ⟨s.found, rest⟩).waiting = rest ++ new) :
      Turn g s e new (order.foldl (discover (e.2 + 1)) ⟨s.found, rest⟩)

/-- A search that goes on from a state until no node waits. The entries `joined` join the queue on the
way and the entries `left` leave it, both in this order. -/
inductive Run (g : Adjacency ν) :
    Search ν → (joined left : Distances ν) → Search ν → Prop where
  | idle {s : Search ν} (none_left : s.waiting = []) : Run g s [] [] s
  | turn {s t last : Search ν} {e : ν × Nat} {new joined left : Distances ν}
      (turn : Turn g s e new t) (rest : Run g t joined left last) :
      Run g s (new ++ joined) (e :: left) last

variable {t : Search ν} {e : ν × Nat} {new joined left : Distances ν}

theorem Run.waiting_eq_nil (h : Run g s joined left t) : t.waiting = [] := by
  induction h with
  | idle none_left => exact none_left
  | turn _ _ ih => exact ih

/-! ### What is left to do -/

/-- Whether a node has been found. -/
def knows (s : Search ν) (v : ν) : Bool := s.found.any fun entry => entry.1 == v

/-- How much there is still to do: the nodes that wait, and the places at which nodes are listed
that have not been found. -/
def pending (g : Adjacency ν) (s : Search ν) : Nat :=
  s.waiting.length + (g.listed.filter fun v => !s.knows v).length

/-- At the beginning, the source and all listed nodes are still to do. -/
theorem pending_start_le (g : Adjacency ν) (source : ν) :
    pending g (start source) ≤ g.links + 1 := by
  have := List.length_filter_le (fun v => !(start source).knows v) g.listed
  simp only [pending, Search.start, List.length_singleton, Adjacency.links]
  exact (Nat.add_comm _ _).trans_le (Nat.succ_le_succ this)

/-! ### One look at a node -/

variable [LawfulBEq ν]

theorem knows_iff : s.knows v = true ↔ v ∈ s.found.map (·.1) := by
  simp [knows]

theorem exists_of_knows (h : s.knows v = true) : ∃ d, (v, d) ∈ s.found := by
  obtain ⟨e, he, rfl⟩ := List.mem_map.1 (knows_iff.1 h)
  exact ⟨e.2, he⟩

/-- What a look at the neighbours `vs` adds: nodes that had not been found, each of them once, at
the given distance. Afterwards all of `vs` have been found. -/
theorem exists_foldl_discover (d : Nat) (vs : List ν) (s : Search ν) :
    ∃ new : Distances ν, vs.foldl (discover d) s = ⟨s.found ++ new, s.waiting ++ new⟩ ∧
      (new.map (·.1)).Nodup ∧
      (∀ e ∈ new, e.2 = d ∧ e.1 ∈ vs ∧ s.knows e.1 = false) ∧
      ∀ v ∈ vs, s.knows v = true ∨ (v, d) ∈ new := by
  induction vs generalizing s with
  | nil => exact ⟨[], by simp⟩
  | cons v vs ih =>
      rw [List.foldl_cons]
      by_cases known : s.knows v = true
      · have same : discover d s v = s := if_pos known
        obtain ⟨new, result, nodup, fresh, covered⟩ := ih s
        refine ⟨new, by rw [same, result], nodup, fun e he => ?_, ?_⟩
        · exact ⟨(fresh e he).1, List.mem_cons_of_mem _ (fresh e he).2.1, (fresh e he).2.2⟩
        · exact List.forall_mem_cons.2 ⟨.inl known, covered⟩
      · have grown : discover d s v = ⟨s.found ++ [(v, d)], s.waiting ++ [(v, d)]⟩ := if_neg known
        rw [grown]
        obtain ⟨new, result, nodup, fresh, covered⟩ := ih ⟨s.found ++ [(v, d)], s.waiting ++ [(v, d)]⟩
        have apart (w : ν) : knows ⟨s.found ++ [(v, d)], s.waiting ++ [(v, d)]⟩ w =
            (s.knows w || v == w) := by
          simp [knows]
        refine ⟨(v, d) :: new, by simp [result], ?_, ?_, ?_⟩
        · rw [List.map_cons, List.nodup_cons]
          refine ⟨fun again => ?_, nodup⟩
          obtain ⟨e, he, same⟩ := List.mem_map.1 again
          have := (fresh e he).2.2
          simp [apart, same] at this
        · refine List.forall_mem_cons.2 ⟨⟨rfl, List.mem_cons_self, by simpa using known⟩, ?_⟩
          intro e he
          obtain ⟨distance, listed, unknown⟩ := fresh e he
          rw [apart, Bool.or_eq_false_iff] at unknown
          exact ⟨distance, List.mem_cons_of_mem _ listed, unknown.1⟩
        · refine List.forall_mem_cons.2 ⟨.inr List.mem_cons_self, fun w hw => ?_⟩
          rcases covered w hw with known | new
          · rw [apart, Bool.or_eq_true, beq_iff_eq] at known
            exact known.imp id fun same : v = w => same ▸ List.mem_cons_self
          · exact .inr (List.mem_cons_of_mem _ new)

/-- A look at the first waiting node, with its neighbours in any order. Everything found so far is at
most one step farther than this node, which is where its new neighbours go. -/
theorem Sound.look {rest : Distances ν} {order : List ν} (h : Sound g source s)
    (first : s.waiting = (u, d) :: rest) (lists : ∀ v, v ∈ order ↔ g.Next u v) :
    Sound g source (order.foldl (discover (d + 1)) ⟨s.found, rest⟩) := by
  obtain ⟨before, split, complete⟩ := h.done
  rw [first] at split
  have u_mem : (u, d) ∈ s.found := by simp [split]
  have near : ∀ e ∈ s.found, e.2 ≤ d + 1 := h.near (u, d) (by simp [first])
  have behind : ∀ w ∈ rest, d ≤ w.2 := by
    have rising := h.rising
    rw [split, List.pairwise_append, List.pairwise_cons] at rising
    exact rising.2.1.1
  obtain ⟨new, result, nodup, fresh, covered⟩ :=
    exists_foldl_discover (d + 1) order ⟨s.found, rest⟩
  rw [result]
  constructor
  · rw [List.map_append]
    refine h.nodup.append nodup fun v old again => ?_
    obtain ⟨e, he, rfl⟩ := List.mem_map.1 again
    have unknown := (fresh e he).2.2
    rw [← Bool.not_eq_true, knows_iff] at unknown
    exact unknown old
  · exact List.mem_append_left _ h.source_mem
  · refine List.pairwise_append.2 ⟨h.rising, ?_, fun e he f hf => ?_⟩
    · exact List.pairwise_of_forall_mem_list fun e he f hf => by
        rw [(fresh e he).1, (fresh f hf).1]
    · rw [(fresh f hf).1]
      exact near e he
  · intro e he
    rcases List.mem_append.1 he with he | he
    · exact h.walk e he
    · rw [(fresh e he).1]
      exact .step (h.walk (u, d) u_mem) ((lists e.1).1 (fresh e he).2.1)
  · -- nothing that waits is nearer than the node looked at, and nothing is found beyond `d + 1`
    have low : ∀ w ∈ rest ++ new, d ≤ w.2 := by
      intro w hw
      rcases List.mem_append.1 hw with hw | hw
      · exact behind w hw
      · rw [(fresh w hw).1]
        exact Nat.le_succ d
    intro w hw e he
    have high : e.2 ≤ d + 1 := by
      rcases List.mem_append.1 he with he | he
      · exact near e he
      · exact (fresh e he).1.le
    exact high.trans (Nat.succ_le_succ (low w hw))
  · -- the node looked at joins those that are done with
    refine ⟨before ++ [(u, d)], by simp [split], fun e he v hv => ?_⟩
    rcases List.mem_append.1 he with he | he
    · obtain ⟨n, le, found⟩ := complete e he v hv
      exact ⟨n, le, List.mem_append_left _ found⟩
    · obtain rfl := List.mem_singleton.1 he
      rcases covered v ((lists v).2 hv) with known | new
      · obtain ⟨n, found⟩ := exists_of_knows known
        exact ⟨n, near (v, n) found, List.mem_append_left _ found⟩
      · exact ⟨d + 1, le_rfl, List.mem_append_right _ new⟩

/-! ### The end of a search -/

/-- A node that is found does not wait at a place any more. -/
theorem pending_discover_le (hv : v ∈ g.listed) : pending g (discover d s v) ≤ pending g s := by
  by_cases known : s.knows v = true
  · have same : discover d s v = s := if_pos known
    rw [same]
  · have grown : discover d s v = ⟨s.found ++ [(v, d)], s.waiting ++ [(v, d)]⟩ := if_neg known
    have fewer : (g.listed.filter fun w => !(discover d s v).knows w) =
        (g.listed.filter fun w => !s.knows w).filter fun w => !(v == w) := by
      rw [List.filter_filter, grown]
      refine List.filter_congr fun w _ => ?_
      simp [knows, Bool.and_comm]
    have less : (g.listed.filter fun w => !(discover d s v).knows w).length <
        (g.listed.filter fun w => !s.knows w).length := by
      rw [fewer, List.length_filter_lt_length_iff_exists]
      exact ⟨v, List.mem_filter.2 ⟨hv, by simpa using known⟩, by simp⟩
    have longer : (discover d s v).waiting.length = s.waiting.length + 1 := by simp [grown]
    -- one node more waits, and at least one place less is left
    simp only [pending]
    omega

theorem pending_foldl_le (sub : ∀ v ∈ vs, v ∈ g.listed) :
    pending g (vs.foldl (discover d) s) ≤ pending g s := by
  induction vs generalizing s with
  | nil => exact le_rfl
  | cons v vs ih =>
      obtain ⟨hv, sub⟩ := List.forall_mem_cons.1 sub
      exact (ih sub).trans (pending_discover_le hv)

/-- While a node waits there is a turn, in whatever order its neighbours are looked at. -/
theorem exists_turn {rest : Distances ν} {order : List ν} (first : s.waiting = e :: rest)
    (lists : ∀ v, v ∈ order ↔ g.Next e.1 v) :
    ∃ new, Turn g s e new (order.foldl (discover (e.2 + 1)) ⟨s.found, rest⟩) := by
  obtain ⟨new, result, -⟩ := exists_foldl_discover (e.2 + 1) order ⟨s.found, rest⟩
  exact ⟨new, .look first lists (by rw [result])⟩

theorem Turn.sound (h : Turn g s e new t) (sound : Sound g source s) : Sound g source t := by
  obtain ⟨first, lists, -⟩ := h
  exact sound.look first lists

/-- A turn takes one entry out of the queue, and what joins the queue is not missing any more. -/
theorem Turn.pending_lt (h : Turn g s e new t) : pending g t < pending g s := by
  obtain @⟨rest, order, first, lists, -⟩ := h
  have step : pending g (order.foldl (discover (e.2 + 1)) ⟨s.found, rest⟩) ≤
      pending g ⟨s.found, rest⟩ :=
    pending_foldl_le fun v hv => Adjacency.neighbours_subset_listed ((lists v).1 hv)
  have one_less : pending g ⟨s.found, rest⟩ + 1 = pending g s := by
    simp only [pending, first, List.length_cons, knows]
    omega
  omega

/-- A run keeps what each of its turns keeps. -/
theorem Run.sound (h : Run g s joined left t) (sound : Sound g source s) : Sound g source t := by
  induction h with
  | idle none_left => exact sound
  | turn turn _ ih => exact ih (turn.sound sound)

/-- A search that has enough fuel is a run. -/
theorem exists_run {fuel : Nat} (enough : pending g s ≤ fuel) :
    ∃ joined left, Run g s joined left (run g fuel s) := by
  induction fuel generalizing s with
  | zero =>
      have none_left : s.waiting.length = 0 := by
        simp only [pending] at enough
        omega
      exact ⟨[], [], .idle (List.length_eq_zero_iff.1 none_left)⟩
  | succ fuel ih =>
      unfold Search.run
      split
      · next none_left => exact ⟨[], [], .idle none_left⟩
      · next u d rest first =>
        obtain ⟨new, turn⟩ := exists_turn (g := g) first fun _ => Iff.rfl
        obtain ⟨joined, left, run⟩ := ih (Nat.le_of_lt_succ (turn.pending_lt.trans_le enough))
        exact ⟨_, _, .turn turn run⟩

end Search

namespace Rank

open Search

variable [LawfulBEq ν]

/-- The search from a source ends with every node looked at. -/
theorem exists_run_distancesFrom (g : Adjacency ν) (source : ν) :
    ∃ joined left, Run g (start source) joined left ⟨distancesFrom g source, []⟩ := by
  obtain ⟨joined, left, run⟩ := exists_run (pending_start_le g source)
  have same : Search.run g (g.links + 1) (start source) = ⟨distancesFrom g source, []⟩ := by
    rw [distancesFrom, ← run.waiting_eq_nil]
  exact ⟨joined, left, same ▸ run⟩

theorem sound_distancesFrom (g : Adjacency ν) (source : ν) :
    Sound g source ⟨distancesFrom g source, []⟩ := by
  obtain ⟨joined, left, run⟩ := exists_run_distancesFrom g source
  exact run.sound (Sound.start g source)

/-- **The search finds shortest paths**, and only them. -/
theorem mem_distancesFrom_iff :
    (v, d) ∈ distancesFrom g source ↔ IsLeast {n | Walk g.Next source v n} d :=
  (sound_distancesFrom g source).mem_found_iff rfl

end Rank

end Argumentation
