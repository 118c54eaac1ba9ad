import Argumentation.Proofs.Placement

/-!
# Argumentation.Proofs.Approach

Arguments only come nearer to the roots as a framework evolves: what has a rank at one step has one
at every later step, and it is not greater.

The rankings of two steps have nothing in common but the definition of a rank, so they are compared
through paths. At a later step there are more links (`Linked.mono`) and more roots
(`roots_subset_of_le`), and a path that is there stays. The roots are the delicate part: a root would
be replaced by another one if the stand-in were asked for where no marked argument is visible. It is
asked for where none is marked, which is the same at all steps.
-/

namespace Argumentation

namespace Timeline

variable {ds : List Declaration} {given : List Attack} {s t : Int} {a b : String}
  {marks : Declaration → Bool} {standIn : Option Declaration} {earlier later : Distances String}

/-! ### What is there stays -/

theorem Visible.mono (h : Visible ds s a) (le : s ≤ t) : Visible ds t a := by
  obtain ⟨u, before, declared⟩ := h
  exact ⟨u, before.trans le, declared⟩

theorem Linked.mono (h : Linked ds given s a b) (le : s ≤ t) : Linked ds given t a b := by
  obtain ⟨ha, hb, joined⟩ := h
  exact ⟨ha.mono le, hb.mono le, joined⟩

theorem roots_subset_of_le (le : s ≤ t) :
    roots ds marks standIn s ⊆ roots ds marks standIn t := by
  intro r hr
  obtain ⟨visible, counts⟩ := mem_roots.1 hr
  exact mem_roots.2 ⟨visible.mono le, counts⟩

end Timeline

/-- A path stays a path where there are more steps to go. -/
theorem Walk.mono {ν : Type} {next next' : ν → ν → Prop} {source v : ν} {n : Nat}
    (more : ∀ u w, next u w → next' u w) (walk : Walk next source v n) :
    Walk next' source v n := by
  induction walk with
  | start => exact .start
  | step _ last ih => exact .step ih (more _ _ last)

/-! ### Nearer to the roots -/

/-- Every argument that has a rank earlier has one later, and only one, which is not greater. -/
def Approaches (earlier later : Distances String) : Prop :=
  ∀ a d, (a, d) ∈ earlier → ∃ d' ≤ d, ∀ n, (a, n) ∈ later ↔ n = d'

namespace Timeline

variable {ds : List Declaration} {given : List Attack} {s t : Int} {marks : Declaration → Bool}
  {standIn : Option Declaration} {earlier later : Distances String}

theorem Ranked.approaches (hs : Ranked ds given s marks standIn earlier)
    (ht : Ranked ds given t marks standIn later) (le : s ≤ t) : Approaches earlier later := by
  intro a d ranked
  obtain ⟨r, hr, walk⟩ := ((hs.mem_iff a d).1 ranked).1
  -- the shortest path of the earlier step is one of the paths among which the later rank is least
  have path : ∃ r ∈ roots ds marks standIn t, Walk (Linked ds given t) r a d :=
    ⟨r, roots_subset_of_le le hr, walk.mono fun u w linked => linked.mono le⟩
  have reached : a ∈ later.map (·.1) := by
    by_contra absent
    have ranks := LeastOf.mk ht.nodup ht.mem_iff
    exact ranks.not_noted absent path
  obtain ⟨⟨a, d'⟩, ranked', rfl⟩ := List.mem_map.1 reached
  have least := (ht.mem_iff a d').1 ranked'
  refine ⟨d', least.2 path, fun n => ?_⟩
  constructor
  · intro other
    exact ((ht.mem_iff a n).1 other).unique least
  · rintro rfl
    exact ranked'

end Timeline

open Timeline

variable {ds : List Declaration} {given : List Attack} {limit : Int} {p : Plan} {S T : Stage}
  {stages : List Stage} {declarations : List Declared} {attacks : List Attack.Given}

/-- A stage of a plan is ranked as its step says, in both rankings. -/
theorem Stage.Of.ranked (of : Stage.Of p limit S) (made : p.Made ds given limit)
    (marked : p.Marked ds) :
    Ranked ds given S.step Declaration.isTop ds.head? S.rankTop ∧
      Ranked ds given S.step Declaration.isBottom ds.getLast? S.rankBottom := by
  have arguments : ∀ a, a ∈ S.framework.arguments ↔ Visible ds S.step a :=
    fun a => of.mem_arguments made
  rw [of.rankTop, of.rankBottom]
  exact ⟨ranked_ranks arguments (of.attacks_eq made) marked.top marked.first,
    ranked_ranks arguments (of.attacks_eq made) marked.bottom marked.last⟩

/-- **Ranks only improve.** Of two stages of a framework, the later one places every argument at
least as near to the roots as the earlier one, in both rankings. -/
theorem evolve_approaches (h : evolve declarations attacks limit = .ok stages) (hS : S ∈ stages)
    (hT : T ∈ stages) (lt : S.step < T.step) :
    Approaches S.rankTop T.rankTop ∧ Approaches S.rankBottom T.rankBottom := by
  obtain ⟨p, planned, staged⟩ := bind_eq_ok_iff.1 h
  obtain ⟨ds, given, declared, -, made⟩ := Plan.exists_made planned
  have marked := Plan.marked planned declared
  have of := (Stage.ofPlan_eq_ok staged).2
  obtain ⟨topS, bottomS⟩ := (of S hS).ranked made marked
  obtain ⟨topT, bottomT⟩ := (of T hT).ranked made marked
  exact ⟨topS.approaches topT lt.le, bottomS.approaches bottomT lt.le⟩

/-- The argument `d`, which appears last, is another root from the top, next to `c`. -/
def shortcut : List Declared :=
  [.raw (.text "a"), .resolved (.tagged "b" [.step 1]), .resolved (.tagged "a" [.label "top"]),
    .raw (.text "c"), .resolved (.tagged "d" [.step 4, .label "top"])]

/-- A path from `a` over `b` to `c`, and an attack of `c` on `d`. -/
def pursuit : List Attack.Given :=
  [.raw (.text "ab"), .resolved ⟨"c", "b"⟩, .raw (.list [.text "c", .text "d"])]

theorem shortcut_approaches : ∃ stages, evolve shortcut pursuit 20 = .ok stages ∧
    ∃ S ∈ stages, ∃ T ∈ stages, S.step < T.step ∧ ("c", 2) ∈ S.rankTop ∧ ("c", 1) ∈ T.rankTop ∧
      Approaches S.rankTop T.rankTop ∧ Approaches S.rankBottom T.rankBottom := by
  have computed : ((evolve shortcut pursuit 20).map (·.map fun S => (S.step, S.rankTop))).toOption =
      some [(0, [("a", 0)]), (1, [("a", 0), ("b", 1), ("c", 2)]),
        (4, [("a", 0), ("b", 1), ("c", 1), ("d", 0)])] := by
    simp only [evolve, Plan.ofDeclared, Plan.ofDeclarations.eq_def, mergeSort_snd, Stage.ofPlan,
      Plan.snapshots, Plan.stepNumbers, canonicalBy_eq_insertionSort]
    decide +kernel
  obtain ⟨stages, evolved, stage⟩ := exists_stages_of_map computed
  obtain ⟨S, hS, earlier⟩ := stage _ (.tail _ (.head _))
  obtain ⟨T, hT, later⟩ := stage _ (.tail _ (.tail _ (.head _)))
  obtain ⟨stepS, rankS⟩ := Prod.mk.inj earlier
  obtain ⟨stepT, rankT⟩ := Prod.mk.inj later
  have lt : S.step < T.step := by
    rw [stepS, stepT]
    decide
  have nearer := evolve_approaches evolved hS hT lt
  exact ⟨stages, evolved, S, hS, T, hT, lt, by simp [rankS], by simp [rankT], nearer⟩

end Argumentation
