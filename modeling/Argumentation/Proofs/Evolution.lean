import Argumentation.Proofs.Appearance
import Argumentation.Timeline.Stage

/-!
# Argumentation.Proofs.Evolution

What the stages of a framework are. There is a stage for each step at which an argument appears, in
the order of the steps, and it holds the part of the framework that is visible there. That it only
grows follows from the order of the plan: what is visible at a step is a front part of what is
visible later. The last stage has everything.
-/

namespace Argumentation

open Timeline

variable {ds : List Declaration} {given : List Attack} {limit : Int} {p : Plan} {S : Stage}
  {stages : List Stage}

/-! ### The stages of a plan -/

namespace Stage

/-- The stage is that of the plan at its step. -/
structure Of (p : Plan) (limit : Int) (S : Stage) : Prop where
  framework : p.framework.restrict (p.visibleAt S.step) = .ok S.framework
  extensions : S.framework.extensions limit = .ok S.extensions
  rankTop : S.rankTop = ranks S.framework p.top p.first
  rankBottom : S.rankBottom = ranks S.framework p.bottom p.last

theorem Of.make {s : Int} {F : Framework} (visible : p.framework.restrict (p.visibleAt s) = .ok F)
    (h : make p limit s F = .ok S) : S.step = s ∧ Of p limit S := by
  obtain ⟨extensions, enumerated, h⟩ := bind_eq_ok_iff.1 h
  cases h
  exact ⟨rfl, visible, enumerated, rfl, rfl⟩

/-- The stages of a plan are those at its steps, one for each. -/
theorem ofPlan_eq_ok (h : ofPlan p limit = .ok stages) :
    stages.map (·.step) = p.stepNumbers ∧ ∀ S ∈ stages, Of p limit S := by
  obtain ⟨snapshots, cut, computed⟩ := bind_eq_ok_iff.1 h
  replace cut := Plan.snapshots_eq_ok_iff.1 (mapError_eq_ok_iff.1 cut)
  replace computed := mapM_eq_ok_iff.1 (mapError_eq_ok_iff.1 computed)
  clear h
  generalize p.stepNumbers = steps at cut ⊢
  induction cut generalizing stages with
  | nil =>
      cases computed
      exact ⟨rfl, fun _ hS => absurd hS List.not_mem_nil⟩
  | @cons s snapshot _ _ visible _ ih =>
      obtain ⟨t, F⟩ := snapshot
      obtain ⟨rfl, visible⟩ := visible
      cases computed with
      | cons here rest =>
          obtain ⟨same, all⟩ := ih rest
          obtain ⟨step, of⟩ := Of.make visible here
          exact ⟨congrArg₂ List.cons step same, List.forall_mem_cons.2 ⟨of, all⟩⟩

/-- A plan can be cut down at each of its steps, and what is visible there can be enumerated. -/
theorem exists_snapshots (h : p.Made ds given limit) :
    ∃ snapshots, p.snapshots = .ok snapshots ∧ ∀ snapshot ∈ snapshots,
      snapshot.2.checkSize limit = .ok () ∧
        ∃ S, make p limit snapshot.1 snapshot.2 = .ok S := by
  refine exists_mapM_eq_ok fun s hs => ?_
  obtain ⟨F, visible⟩ := h.exists_restrict hs
  have small := h.size_restrict_le visible
  refine ⟨(s, F), by rw [visible]; rfl, Framework.checkSize_eq_ok_iff.2 small, ?_⟩
  exact ⟨_, bind_eq_ok_iff.2 ⟨_, Framework.extensions_eq_ok small, rfl⟩⟩

/-- Nothing fails once there is a plan. -/
theorem exists_ofPlan_eq_ok (h : p.Made ds given limit) :
    ∃ stages, ofPlan p limit = .ok stages := by
  obtain ⟨snapshots, cut, computable⟩ := exists_snapshots h
  obtain ⟨stages, computed, -⟩ := exists_mapM_eq_ok (P := fun _ => True) fun snapshot listed =>
    (computable snapshot listed).2.imp fun S hS => ⟨hS, trivial⟩
  refine ⟨stages, bind_eq_ok_iff.2 ⟨snapshots, mapError_eq_ok_iff.2 cut, ?_⟩⟩
  exact mapError_eq_ok_iff.2 computed

/-! ### What is visible at a stage -/

theorem Of.arguments_eq (of : Of p limit S) (h : p.Made ds given limit) :
    S.framework.arguments = p.visibleAt S.step :=
  h.arguments_restrict of.framework

theorem Of.mem_arguments (of : Of p limit S) (h : p.Made ds given limit) {a : String} :
    a ∈ S.framework.arguments ↔ ∃ s ≤ S.step, (a, s) ∈ resolveSteps ds := by
  rw [of.arguments_eq h, h.mem_visibleAt]

theorem Of.attacks_eq (of : Of p limit S) (h : p.Made ds given limit) :
    S.framework.attacks =
      given.filter fun e => S.framework.contains e.attacker && S.framework.contains e.target := by
  rw [(Framework.restrict_eq_ok_iff.1 of.framework).2, h.attacks]
  simp only [Framework.contains, of.arguments_eq h]

/-- A stage has what its framework is found to have, as no framework of a plan is too large. -/
theorem Of.extensions_eq (of : Of p limit S) (h : p.Made ds given limit) :
    S.extensions = S.framework.families := by
  have enumerated := of.extensions
  rw [Framework.extensions_eq_ok (h.size_restrict_le of.framework)] at enumerated
  exact (Except.ok.inj enumerated).symm

/-! ### Growth -/

variable {T : Stage}

theorem Of.arguments_prefix_of_le (hS : Of p limit S) (hT : Of p limit T)
    (h : p.Made ds given limit) (le : S.step ≤ T.step) :
    S.framework.arguments <+: T.framework.arguments := by
  rw [hS.arguments_eq h, hT.arguments_eq h]
  exact h.visibleAt_prefix_of_le le

/-- Something appears at a later stage, so there are more arguments than before. -/
theorem Of.arguments_lt (hS : Of p limit S) (hT : Of p limit T) (h : p.Made ds given limit)
    (listed : T.step ∈ p.stepNumbers) (lt : S.step < T.step) :
    S.framework.arguments.length < T.framework.arguments.length := by
  have front := hS.arguments_prefix_of_le hT h lt.le
  -- an argument of the later step is there, and it cannot have been there before
  obtain ⟨a, ha⟩ := h.mem_stepNumbers.1 listed
  have appeared : a ∈ T.framework.arguments := (hT.mem_arguments h).2 ⟨T.step, le_rfl, ha⟩
  refine lt_of_le_of_ne front.length_le fun same => ?_
  rw [← front.eq_of_length same, hS.mem_arguments h] at appeared
  obtain ⟨s, le, hs⟩ := appeared
  exact absurd (eq_of_mem_resolveSteps hs ha) (le.trans_lt lt).ne

theorem Of.attacks_sublist (hS : Of p limit S) (hT : Of p limit T) (h : p.Made ds given limit)
    (le : S.step ≤ T.step) :
    S.framework.attacks.Sublist T.framework.attacks := by
  have kept := (hS.arguments_prefix_of_le hT h le).subset
  rw [hS.attacks_eq h, hT.attacks_eq h]
  refine List.monotone_filter_right _ fun e he => ?_
  simp only [Framework.contains_iff, Bool.and_eq_true] at he ⊢
  exact ⟨kept he.1, kept he.2⟩

/-- A stage that is not before any other one has everything. -/
theorem Of.everything (hS : Of p limit S) (h : p.Made ds given limit)
    (greatest : ∀ s ∈ p.stepNumbers, s ≤ S.step) :
    (∀ d ∈ ds, d.id ∈ S.framework.arguments) ∧ S.framework.attacks = given := by
  have all {a : String} (declared : ∃ s, (a, s) ∈ resolveSteps ds) : a ∈ S.framework.arguments := by
    obtain ⟨s, hs⟩ := declared
    exact (hS.mem_arguments h).2 ⟨s, greatest s (h.mem_stepNumbers.2 ⟨a, hs⟩), hs⟩
  have of_plan {a : String} (ha : a ∈ p.framework.arguments) : a ∈ S.framework.arguments := by
    rw [h.arguments] at ha
    exact all (by simpa using ha)
  refine ⟨fun d hd => all (exists_mem_resolveSteps.2 ⟨d, hd, rfl⟩), ?_⟩
  rw [hS.attacks_eq h, List.filter_eq_self]
  intro e he
  rw [← h.attacks] at he
  simp only [Framework.contains_iff, Bool.and_eq_true]
  exact ⟨of_plan (p.framework.declared e he).1, of_plan (p.framework.declared e he).2⟩

/-- There is a last stage, and its step is the greatest. -/
theorem exists_last (h : p.Made ds given limit) (steps : stages.map (·.step) = p.stepNumbers) :
    ∃ S, stages.getLast? = some S ∧ S ∈ stages ∧ ∀ s ∈ p.stepNumbers, s ≤ S.step := by
  obtain ⟨s, last, greatest⟩ := h.exists_greatest
  rw [← steps, List.getLast?_map] at last
  obtain ⟨S, hS, rfl⟩ := Option.map_eq_some_iff.1 last
  exact ⟨S, hS, List.mem_of_getLast? hS, greatest⟩

end Stage

/-! ### The evolution -/

/-- What the stages of the declarations `ds` and the attacks `given` are. -/
structure Evolution (ds : List Declaration) (given : List Attack) (limit : Int)
    (stages : List Stage) : Prop where
  rising : (stages.map (·.step)).Pairwise (· < ·)
  /-- There is a stage for each step at which an argument appears. -/
  mem_steps : ∀ s, s ∈ stages.map (·.step) ↔ ∃ a, (a, s) ∈ resolveSteps ds
  arguments : ∀ S ∈ stages, ∀ a, a ∈ S.framework.arguments ↔ ∃ s ≤ S.step, (a, s) ∈ resolveSteps ds
  ordered : ∀ S ∈ stages, S.framework.arguments.Pairwise (Precedes ds)
  attacks : ∀ S ∈ stages, S.framework.attacks =
    given.filter fun e => S.framework.contains e.attacker && S.framework.contains e.target
  extensions : ∀ S ∈ stages, S.framework.extensions limit = .ok S.extensions
  /-- The arguments of a stage come first in every later one, which has more of them, and no attack
  disappears. -/
  growing : stages.Pairwise fun S T => S.framework.arguments <+: T.framework.arguments ∧
    S.framework.arguments.length < T.framework.arguments.length ∧
    S.framework.attacks.Sublist T.framework.attacks
  last : ∃ S, stages.getLast? = some S ∧ (∀ d ∈ ds, d.id ∈ S.framework.arguments) ∧
    S.framework.attacks = given

/-- The stages of a plan are an evolution of what it has been made of. -/
theorem Plan.Made.evolution (h : p.Made ds given limit) (made : Stage.ofPlan p limit = .ok stages) :
    Evolution ds given limit stages := by
  obtain ⟨steps, of⟩ := Stage.ofPlan_eq_ok made
  have listed : ∀ S ∈ stages, S.step ∈ p.stepNumbers :=
    fun S hS => steps ▸ List.mem_map_of_mem hS
  have rising : (stages.map (·.step)).Pairwise (· < ·) := steps ▸ Plan.stepNumbers_rising p
  constructor
  · exact rising
  · exact fun s => by rw [steps, h.mem_stepNumbers]
  · exact fun S hS a => (of S hS).mem_arguments h
  · intro S hS
    rw [(of S hS).arguments_eq h]
    exact h.order_precedes.sublist (List.take_sublist _ _)
  · exact fun S hS => (of S hS).attacks_eq h
  · exact fun S hS => (of S hS).extensions
  · refine (List.pairwise_map.1 rising).imp_of_mem fun {S T} hS hT lt => ⟨?_, ?_, ?_⟩
    · exact (of S hS).arguments_prefix_of_le (of T hT) h lt.le
    · exact (of S hS).arguments_lt (of T hT) h (listed T hT) lt
    · exact (of S hS).attacks_sublist (of T hT) h lt.le
  · obtain ⟨S, last, hS, greatest⟩ := Stage.exists_last h steps
    exact ⟨S, last, (of S hS).everything h greatest⟩

/-- **A framework evolves by its steps.** Whenever declarations and attacks have stages, they can
all be read, and the stages are the evolution of what is read. -/
theorem evolve_evolution {declarations : List Declared} {attacks : List Attack.Given}
    (h : evolve declarations attacks limit = .ok stages) :
    ∃ ds given, declarations.mapM Declared.read = .ok ds ∧
      attacks.mapM Attack.Given.read = .ok given ∧ Evolution ds given limit stages := by
  obtain ⟨p, planned, staged⟩ := bind_eq_ok_iff.1 h
  obtain ⟨ds, given, declared, attacked, made⟩ := Plan.exists_made planned
  exact ⟨ds, given, declared, attacked, made.evolution staged⟩

/-- Stages are missing only where there is no plan. -/
theorem exists_evolve_eq_ok {declarations : List Declared} {attacks : List Attack.Given}
    (planned : Plan.ofDeclared declarations attacks limit = .ok p) :
    ∃ stages, evolve declarations attacks limit = .ok stages := by
  obtain ⟨ds, given, -, -, made⟩ := Plan.exists_made planned
  obtain ⟨stages, staged⟩ := Stage.exists_ofPlan_eq_ok made
  exact ⟨stages, bind_eq_ok_iff.2 ⟨p, planned, staged⟩⟩

/-- There are stages if there is found to be a plan. -/
theorem exists_evolve_of_toBool {declarations : List Declared} {attacks : List Attack.Given}
    (planned : (Plan.ofDeclared declarations attacks limit).toBool = true) :
    ∃ stages, evolve declarations attacks limit = .ok stages := by
  cases h : Plan.ofDeclared declarations attacks limit with
  | error fault =>
      rw [h] at planned
      exact nomatch planned
  | ok p => exact exists_evolve_eq_ok h

/-- What has been computed of all stages holds of a stage each. -/
theorem exists_stages_of_map {declarations : List Declared} {attacks : List Attack.Given}
    {α : Type} {f : Stage → α} {xs : List α}
    (computed : ((evolve declarations attacks limit).map (·.map f)).toOption = some xs) :
    ∃ stages, evolve declarations attacks limit = .ok stages ∧
      ∀ x ∈ xs, ∃ S ∈ stages, f S = x := by
  obtain ⟨stages, evolved, rfl⟩ := map_eq_ok_iff.1 (eq_ok_of_toOption computed)
  exact ⟨stages, evolved, fun x hx => List.mem_map.1 hx⟩

/-- Arguments that are declared out of the order of their steps, one of them twice. -/
def untimely : List Declared :=
  [.resolved (.tagged "b" [.step 2]), .raw (.text "a"), .resolved (.tagged "c" [.step (-1)]),
    .raw (.text "b")]

/-- Attacks between them, one of them twice. -/
def rejoinders : List Attack.Given :=
  [.resolved ⟨"b", "c"⟩, .raw (.list [.text "a", .text "a"]), .resolved ⟨"b", "c"⟩]

theorem untimely_evolution : ∃ stages, evolve untimely rejoinders 20 = .ok stages ∧
    ∃ ds given, untimely.mapM Declared.read = .ok ds ∧
      rejoinders.mapM Attack.Given.read = .ok given ∧ Evolution ds given 20 stages := by
  have planned : (Plan.ofDeclared untimely rejoinders 20).toBool = true := by decide +kernel
  obtain ⟨stages, evolved⟩ := exists_evolve_of_toBool planned
  exact ⟨stages, evolved, evolve_evolution evolved⟩

end Argumentation
