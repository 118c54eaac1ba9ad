import Argumentation.Proofs.Evolution
import Argumentation.Proofs.Ranking

/-!
# Argumentation.Proofs.Placement

What the ranks of a stage are, told by the declarations and attacks alone. A stage is ranked twice,
from the top and from the bottom. The two rankings differ in the mark that makes an argument a root
and in the declaration that stands in where no argument has the mark; what is said of one is said of
the other (`Timeline.Ranked`).

A mark counts wherever it stands. An argument with a mark that has not appeared yet is no root, but
it already keeps the stand-in from being one.
-/

namespace Argumentation

namespace Timeline

variable {ds : List Declaration} {given : List Attack} {s : Int} {a b : String}
  {marks : Declaration → Bool} {standIn : Option Declaration} {ranks : Distances String}

/-- The argument `a` has appeared by the step `s`. -/
def Visible (ds : List Declaration) (s : Int) (a : String) : Prop :=
  ∃ t ≤ s, (a, t) ∈ resolveSteps ds

/-- Both arguments have appeared by the step `s`, and one of them attacks the other. -/
def Linked (ds : List Declaration) (given : List Attack) (s : Int) (a b : String) : Prop :=
  Visible ds s a ∧ Visible ds s b ∧ (⟨a, b⟩ ∈ given ∨ ⟨b, a⟩ ∈ given)

/-- The roots at the step `s`: the visible ones of the arguments with the mark, or if no declaration
has it, the visible argument of the declaration that stands in. -/
def roots (ds : List Declaration) (marks : Declaration → Bool) (standIn : Option Declaration)
    (s : Int) : Set String :=
  {a | Visible ds s a ∧
    if ds.any marks then ∃ d ∈ ds, marks d = true ∧ d.id = a else ∃ d, standIn = some d ∧ d.id = a}

theorem mem_roots : a ∈ roots ds marks standIn s ↔ Visible ds s a ∧
    if ds.any marks then ∃ d ∈ ds, marks d = true ∧ d.id = a else ∃ d, standIn = some d ∧ d.id = a :=
  Iff.rfl

/-- The ranks at the step `s`, in a ranking from the roots that the mark and the stand-in make. -/
structure Ranked (ds : List Declaration) (given : List Attack) (s : Int)
    (marks : Declaration → Bool) (standIn : Option Declaration) (ranks : Distances String) :
    Prop where
  /-- No argument has two ranks. -/
  nodup : (ranks.map (·.1)).Nodup
  /-- The rank is the length of a shortest path from any of the roots. -/
  mem_iff : ∀ a d, (a, d) ∈ ranks ↔
    IsLeast {n | ∃ r ∈ roots ds marks standIn s, Walk (Linked ds given s) r a n} d
  visible : ∀ e ∈ ranks, Visible ds s e.1
  root : ∀ r ∈ roots ds marks standIn s, (r, 0) ∈ ranks
  rootless : roots ds marks standIn s = ∅ → ranks = []

/-- What a path from a visible argument leads to is visible. -/
theorem visible_of_walk {n : Nat} (ha : Visible ds s a) (walk : Walk (Linked ds given s) a b n) :
    Visible ds s b := by
  cases walk with
  | start => exact ha
  | step _ last => exact last.2.1

/-- All of it follows from what the ranks of the arguments are. -/
theorem ranked_of_leastOf (h : LeastOf
    (fun a n => ∃ r ∈ roots ds marks standIn s, Walk (Linked ds given s) r a n) ranks) :
    Ranked ds given s marks standIn ranks := by
  refine ⟨h.nodup, h.mem_iff, ?_, ?_, ?_⟩
  · rintro ⟨a, d⟩ he
    obtain ⟨r, hr, walk⟩ := ((h.mem_iff a d).1 he).1
    exact visible_of_walk hr.1 walk
  · intro r hr
    exact (h.mem_iff r 0).2 ⟨⟨r, hr, .start⟩, fun _ _ => Nat.zero_le _⟩
  · intro none_left
    refine List.eq_nil_iff_forall_not_mem.2 ?_
    rintro ⟨a, d⟩ he
    obtain ⟨r, hr, -⟩ := ((h.mem_iff a d).1 he).1
    rw [none_left] at hr
    exact hr

end Timeline

open Timeline

variable {ds : List Declaration} {given : List Attack} {limit : Int} {p : Plan} {S : Stage}
  {declarations : List Declared} {attacks : List Attack.Given}

namespace Plan

/-- What a plan says of the roots. -/
structure Marked (ds : List Declaration) (p : Plan) : Prop where
  top : p.top = distinct ((ds.filter Declaration.isTop).map Declaration.id)
  bottom : p.bottom = distinct ((ds.filter Declaration.isBottom).map Declaration.id)
  first : ds.head?.map Declaration.id = some p.first
  last : ds.getLast?.map Declaration.id = some p.last

theorem mem_distinct_marked {marks : Declaration → Bool} {a : String} :
    a ∈ distinct ((ds.filter marks).map Declaration.id) ↔ ∃ d ∈ ds, marks d = true ∧ d.id = a := by
  simp [and_assoc]

theorem marked (h : ofDeclared declarations attacks limit = .ok p)
    (read : declarations.mapM Declared.read = .ok ds) : Marked ds p := by
  obtain ⟨ds', read', h⟩ := bind_eq_ok_iff.1 h
  obtain rfl : ds = ds' := Except.ok.inj (read.symm.trans (mapError_eq_ok_iff.1 read'))
  cases ds with
  | nil => exact nomatch h
  | cons d rest =>
      obtain ⟨F, -, h⟩ := bind_eq_ok_iff.1 h
      obtain ⟨⟨⟩, -, h⟩ := bind_eq_ok_iff.1 h
      cases h
      refine ⟨rfl, rfl, rfl, ?_⟩
      rw [List.getLast?_eq_getLast_of_ne_nil (List.cons_ne_nil d rest)]
      rfl

end Plan

namespace Stage

variable {F : Framework} {s : Int} {marks : Declaration → Bool} {standIn : Option Declaration}
  {marked : List String} {fallback r : String}

/-- The roots that count in a stage are those of its step. -/
theorem mem_roots_iff (arguments : ∀ a, a ∈ F.arguments ↔ Visible ds s a)
    (of_marks : marked = distinct ((ds.filter marks).map Declaration.id))
    (of_standIn : standIn.map Declaration.id = some fallback) :
    (r ∈ marked.filter F.contains ∨ marked.filter F.contains = [] ∧
      (if marked.isEmpty && F.contains fallback then some fallback else none) = some r) ↔
    r ∈ roots ds marks standIn s := by
  have mem_marked : r ∈ marked ↔ ∃ d ∈ ds, marks d = true ∧ d.id = r := by
    rw [of_marks, Plan.mem_distinct_marked]
  have is_standIn : (∃ d, standIn = some d ∧ d.id = r) ↔ fallback = r := by
    obtain ⟨d, rfl, rfl⟩ := Option.map_eq_some_iff.1 of_standIn
    simp
  have unmarked : marked = [] ↔ ¬ ds.any marks = true := by
    rw [of_marks, distinct_eq_nil]
    simp
  rw [mem_roots, ← mem_marked, is_standIn]
  -- the stand-in is asked for where nothing is marked, not where nothing marked is visible
  by_cases none_marked : marked = []
  · rw [if_neg (unmarked.1 none_marked)]
    by_cases there : fallback ∈ F.arguments
    · simp only [none_marked, List.filter_nil, List.not_mem_nil, List.isEmpty_nil, Bool.true_and,
        Framework.contains_iff, there, if_true, Option.some.injEq, true_and, false_or]
      refine ⟨?_, And.right⟩
      rintro rfl
      exact ⟨(arguments _).1 there, rfl⟩
    · simp only [none_marked, List.filter_nil, List.not_mem_nil, List.isEmpty_nil, Bool.true_and,
        Framework.contains_iff, there, if_false, reduceCtorEq, and_false, or_false, false_iff]
      rintro ⟨visible, rfl⟩
      exact there ((arguments _).2 visible)
  · rw [if_pos (not_not.1 fun h => none_marked (unmarked.2 h))]
    have not_empty : marked.isEmpty = false := List.isEmpty_eq_false_iff.2 none_marked
    simp [not_empty, List.mem_filter, arguments, and_comm]

/-- A framework that is what has appeared by a step is ranked as the step says. -/
theorem ranked_ranks (arguments : ∀ a, a ∈ F.arguments ↔ Visible ds s a)
    (attacks : F.attacks = given.filter fun e => F.contains e.attacker && F.contains e.target)
    (of_marks : marked = distinct ((ds.filter marks).map Declaration.id))
    (of_standIn : standIn.map Declaration.id = some fallback) :
    Ranked ds given s marks standIn (ranks F marked fallback) := by
  have linked {a b : String} : Linked ds given s a b ↔
      (a, b) ∈ F.attacks.map (fun e => (e.attacker, e.target)) ∨
        (b, a) ∈ F.attacks.map (fun e => (e.attacker, e.target)) := by
    have joined (a b : String) : (a, b) ∈ F.attacks.map (fun e => (e.attacker, e.target)) ↔
        ⟨a, b⟩ ∈ given ∧ Visible ds s a ∧ Visible ds s b := by
      rw [attacks, List.mem_map]
      constructor
      · rintro ⟨e, he, same⟩
        cases same
        simpa [List.mem_filter, arguments] using he
      · intro he
        exact ⟨⟨a, b⟩, by simpa [List.mem_filter, arguments] using he, rfl⟩
    rw [joined, joined, Linked]
    tauto
  have next : Linked ds given s = fun a b =>
      (a, b) ∈ F.attacks.map (fun e => (e.attacker, e.target)) ∨
        (b, a) ∈ F.attacks.map (fun e => (e.attacker, e.target)) :=
    funext fun a => funext fun b => propext linked
  refine ranked_of_leastOf ?_
  rw [next]
  exact (Rank.leastOf_compute _ _ _).congr fun a n => exists_congr fun r =>
    and_congr_left fun _ => mem_roots_iff arguments of_marks of_standIn

/-- What a path along attacks leads to is an argument, if it starts at one. -/
theorem mem_arguments_of_walk {a : String} {n : Nat} (root : r ∈ F.arguments)
    (walk : Walk (fun a b => (a, b) ∈ F.attacks.map (fun e => (e.attacker, e.target)) ∨
      (b, a) ∈ F.attacks.map (fun e => (e.attacker, e.target))) r a n) : a ∈ F.arguments := by
  cases walk with
  | start => exact root
  | step _ last =>
      rcases last with forth | back
      · obtain ⟨e, he, same⟩ := List.mem_map.1 forth
        cases same
        exact (F.declared e he).2
      · obtain ⟨e, he, same⟩ := List.mem_map.1 back
        cases same
        exact (F.declared e he).1

/-- **Ranks are below the number of arguments.** A shortest path meets no argument twice. -/
theorem rank_lt_size (F : Framework) (marked : List String) (fallback : String) :
    ∀ entry ∈ ranks F marked fallback, entry.2 < F.size := by
  intro entry ranked
  obtain ⟨⟨r, counts, walk⟩, least⟩ := ((Rank.leastOf_compute _ _ _).mem_iff _ _).1 ranked
  have root : r ∈ F.arguments := by
    rcases counts with visible | ⟨-, standIn⟩
    · exact Framework.contains_iff.1 (List.mem_filter.1 visible).2
    · split at standIn
      · next there =>
          obtain rfl := Option.some.inj standIn
          exact Framework.contains_iff.1 (Bool.and_eq_true_iff.1 there).2
      · exact nomatch standIn
  obtain ⟨us, length, nodup, near⟩ :=
    exists_nodup_of_isLeast ⟨walk, fun n walk => least ⟨r, counts, walk⟩⟩
  have among : us ⊆ F.arguments := fun u hu => by
    obtain ⟨k, -, shortest⟩ := near u hu
    exact mem_arguments_of_walk root shortest.1
  rw [Nat.lt_iff_add_one_le, ← length]
  exact (List.subperm_of_subset nodup among).length_le

end Stage

/-- **A stage places the arguments by their distance from the roots**, in both rankings. -/
theorem evolve_ranked {stages : List Stage} (h : evolve declarations attacks limit = .ok stages) :
    ∃ ds given, declarations.mapM Declared.read = .ok ds ∧
      attacks.mapM Attack.Given.read = .ok given ∧ ∀ S ∈ stages,
        Ranked ds given S.step Declaration.isTop ds.head? S.rankTop ∧
        Ranked ds given S.step Declaration.isBottom ds.getLast? S.rankBottom := by
  obtain ⟨p, planned, staged⟩ := bind_eq_ok_iff.1 h
  obtain ⟨ds, given, declared, attacked, made⟩ := Plan.exists_made planned
  have marked := Plan.marked planned declared
  refine ⟨ds, given, declared, attacked, fun S hS => ?_⟩
  have of := (Stage.ofPlan_eq_ok staged).2 S hS
  have arguments : ∀ a, a ∈ S.framework.arguments ↔ Visible ds S.step a :=
    fun a => of.mem_arguments made
  have joined := of.attacks_eq made
  rw [of.rankTop, of.rankBottom]
  exact ⟨Stage.ranked_ranks arguments joined marked.top marked.first,
    Stage.ranked_ranks arguments joined marked.bottom marked.last⟩

/-- The only argument marked as a root from the top appears last; none is marked from the bottom. -/
def belated : List Declared :=
  [.raw (.text "a"), .resolved (.tagged "b" [.step 1]),
    .resolved (.tagged "c" [.label "top", .step 2]), .raw (.text "a")]

theorem belated_ranked : ∃ stages, evolve belated rejoinders 20 = .ok stages ∧
    ∃ ds given, belated.mapM Declared.read = .ok ds ∧
      rejoinders.mapM Attack.Given.read = .ok given ∧ ∀ S ∈ stages,
        Ranked ds given S.step Declaration.isTop ds.head? S.rankTop ∧
        Ranked ds given S.step Declaration.isBottom ds.getLast? S.rankBottom := by
  have planned : (Plan.ofDeclared belated rejoinders 20).toBool = true := by decide +kernel
  obtain ⟨stages, evolved⟩ := exists_evolve_of_toBool planned
  exact ⟨stages, evolved, evolve_ranked evolved⟩

end Argumentation
