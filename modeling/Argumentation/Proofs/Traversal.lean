import Argumentation.Proofs.Distance

/-!
# Argumentation.Proofs.Traversal

How a breadth-first search proceeds, in any graph, from any source, and whatever the order in which
the neighbours of a node are looked at. The graph need not be symmetric, a neighbour need not have
neighbours of its own, and the source need not be in the graph.

The nodes that wait are a queue: what leaves it is what has joined it, in the same order
(`Search.Run.queue`). A node is found when it joins the queue, so the invariant of what has been found
tells of the queue that no node joins it twice and that distances do not fall along it.
-/

namespace Argumentation

variable {ν : Type} [BEq ν] {g : Adjacency ν} {source : ν} {s t : Search ν} {e : ν × Nat}
  {new joined left : Distances ν}

namespace Search

section Queue

variable [LawfulBEq ν]

/-- What joins the queue in a turn goes to its end, and has just been found. -/
theorem Turn.queue (h : Turn g s e new t) :
    ∃ rest, s.waiting = e :: rest ∧ t = ⟨s.found ++ new, rest ++ new⟩ := by
  obtain @⟨rest, order, first, -, joins⟩ := h
  obtain ⟨added, result, -⟩ := exists_foldl_discover (e.2 + 1) order ⟨s.found, rest⟩
  rw [result] at joins ⊢
  obtain rfl : added = new := List.append_cancel_left joins
  exact ⟨rest, first, rfl⟩

/-- First in, first out: the waiting nodes leave the queue before those that join it, and these in the
order in which they join it. What joins it is what is found. -/
theorem Run.queue (h : Run g s joined left t) :
    left = s.waiting ++ joined ∧ t.found = s.found ++ joined := by
  induction h with
  | @idle s none_left => simp [none_left]
  | turn turn _ ih =>
      obtain ⟨rest, first, rfl⟩ := turn.queue
      obtain ⟨left_eq, found_eq⟩ := ih
      rw [first, left_eq, found_eq]
      simp

/-- Each turn takes away some of what there is to do. -/
theorem Run.length_le_pending (h : Run g s joined left t) : left.length ≤ pending g s := by
  induction h with
  | idle none_left => exact Nat.zero_le _
  | turn turn _ ih => exact Nat.succ_le_of_lt (ih.trans_lt turn.pending_lt)

theorem turn_wellFounded (g : Adjacency ν) :
    WellFounded fun t s : Search ν => ∃ e new, Turn g s e new t :=
  Subrelation.wf (fun ⟨_, _, turn⟩ => turn.pending_lt) (measure (pending g)).wf

end Queue

/-! ### What a search does -/

/-- What has happened in a search from `source` by its end, when it has found what is in `last`. The
source is in the queue from the beginning, `joined` join it and `left` leave it in this order. -/
structure Completed (g : Adjacency ν) (source : ν) (joined left : Distances ν) (last : Search ν) :
    Prop where
  /-- No node joins the queue twice, -/
  nodup_queued : (((source, 0) :: joined).map (·.1)).Nodup
  /-- and those that join it are the nodes to which a path leads. -/
  mem_queued_iff : ∀ v, v ∈ ((source, 0) :: joined).map (·.1) ↔ ∃ n, Walk g.Next source v n
  /-- Whatever has joined the queue leaves it, in the same order, -/
  left_eq : left = (source, 0) :: joined
  /-- which is that of the distances. -/
  rising : left.Pairwise fun e f => e.2 ≤ f.2
  /-- The nodes that have been found are those of the queue. -/
  found_eq : last.found = (source, 0) :: joined
  /-- Their distances are the lengths of shortest paths. -/
  mem_found_iff : ∀ v d, (v, d) ∈ last.found ↔ IsLeast {n | Walk g.Next source v n} d
  /-- There are not more turns than nodes are listed as neighbours, and one. -/
  length_le : left.length ≤ g.links + 1

theorem Run.completed [LawfulBEq ν] (h : Run g (start source) joined left t) :
    Completed g source joined left t := by
  have sound := h.sound (Sound.start g source)
  obtain ⟨left_eq, found_eq⟩ := h.queue
  replace left_eq : left = (source, 0) :: joined := left_eq
  replace found_eq : t.found = (source, 0) :: joined := found_eq
  constructor
  · rw [← found_eq]
    exact sound.nodup
  · intro v
    rw [← found_eq]
    constructor
    · intro hv
      obtain ⟨e, he, rfl⟩ := List.mem_map.1 hv
      exact ⟨e.2, sound.walk e he⟩
    · rintro ⟨n, walk⟩
      obtain ⟨d, -, found⟩ := sound.exists_le h.waiting_eq_nil walk
      exact List.mem_map_of_mem found
  · exact left_eq
  · rw [left_eq, ← found_eq]
    exact sound.rising
  · exact found_eq
  · exact fun v d => sound.mem_found_iff h.waiting_eq_nil
  · exact h.length_le_pending.trans (pending_start_le g source)

end Search

open Search

/-- How searches from `source` proceed, in whatever order the neighbours of each node are looked
at. -/
structure Traverses (g : Adjacency ν) (source : ν) : Prop where
  /-- No search goes on forever. -/
  terminates : WellFounded fun t s : Search ν => ∃ e new, Turn g s e new t
  /-- As long as a node waits there is a next turn, for each order of the neighbours. -/
  continues : ∀ (s : Search ν) (e : ν × Nat) (rest : Distances ν) (order : List ν),
    s.waiting = e :: rest → (∀ v, v ∈ order ↔ g.Next e.1 v) →
      ∃ new, Turn g s e new (order.foldl (discover (e.2 + 1)) ⟨s.found, rest⟩)
  completed : ∀ joined left last, Run g (start source) joined left last →
    Completed g source joined left last
  /-- The order makes no difference to the distances. -/
  alike : ∀ joined left last joined' left' last', Run g (start source) joined left last →
    Run g (start source) joined' left' last' → last.found.Perm last'.found
  /-- The distances that are given out come from such a search. -/
  executed : ∃ joined left, Run g (start source) joined left ⟨Rank.distancesFrom g source, []⟩

/-- **Every breadth-first search ends, with each node queued once and at its least distance.** -/
theorem search_traverses {κ : Type} [DecidableEq κ] (g : Adjacency κ) (source : κ) :
    Traverses g source := by
  constructor
  · exact turn_wellFounded g
  · exact fun s e rest order first lists => exists_turn first lists
  · exact fun joined left last run => run.completed
  · intro joined left last joined' left' last' run run'
    have sound := run.sound (Sound.start g source)
    have sound' := run'.sound (Sound.start g source)
    refine (List.perm_ext_iff_of_nodup (.of_map _ sound.nodup) (.of_map _ sound'.nodup)).2 ?_
    rintro ⟨v, d⟩
    rw [sound.mem_found_iff run.waiting_eq_nil, sound'.mem_found_iff run'.waiting_eq_nil]
  · exact Rank.exists_run_distancesFrom g source

/-- The arrow from `a` to `b` cannot be taken back, and `d` has no neighbours of its own. -/
example : Rank.distancesFrom [("a", ["b", "c"]), ("b", ["c", "d", "b"]), ("c", ["b"])] "a" =
    [("a", 0), ("b", 1), ("c", 1), ("d", 2)] := rfl

end Argumentation
