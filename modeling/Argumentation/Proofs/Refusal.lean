import Argumentation.Proofs.Elements
import Argumentation.Proofs.Evolution
import Mathlib.Algebra.Group.Int.Defs

/-!
# Argumentation.Proofs.Refusal

Which declarations and attacks are refused, and for which reason. All of the judging happens while
the plan is made: `Plan.Refused` lists its faults in the order in which they are judged, and there
is no plan exactly if one of them applies (`Plan.ofDeclared_eq_error_iff`). Once there is a plan
nothing can fail any more, so nothing is ever refused half-way: the steps of a plan have something
visible, what is visible has the ends of its attacks, and no part is larger than the whole.

Most faults are told as rejections. To tell a fault, or to look for the ends of an attack, values
have to be written; where one cannot be, that is all that is told, and it is no rejection
(`Judged.unwritable`, `unwritable_unrejected`).
-/

namespace Argumentation

open Framework Timeline

variable {declarations : List Declared} {attacks : List Attack.Given} {limit : Int}
  {ds : List Declaration} {given : List Attack} {fault : PlanFault} {p : Plan} {o : Obstacle}

/-! ### Faults of plans -/

/-- The names that declarations declare, once each. -/
def declaredNames (ds : List Declaration) : List String := distinct (ds.map Declaration.id)

namespace Plan

/-- Declarations that have been read have no plan if they make no framework with the attacks, or if
the framework is too large. -/
theorem ofDeclarations_eq_error_iff (something : ds ≠ []) :
    ofDeclarations ds attacks limit = .error fault ↔
      (∃ f, ofNames (declaredNames ds) attacks = .error f ∧ fault = .graph f) ∨
      ∃ F, ofNames (declaredNames ds) attacks = .ok F ∧ limit < F.size ∧
        fault = .size ⟨F.size, limit⟩ := by
  cases ds with
  | nil => exact absurd rfl something
  | cons d rest =>
      simp only [ofDeclarations, resolveSteps_map_fst, bind_eq_error_iff, mapError_eq_error_iff,
        mapError_eq_ok_iff, checkSize_eq_error_iff]
      refine or_congr (exists_congr fun f => and_congr_right fun _ => eq_comm) ?_
      refine exists_congr fun F => and_congr_right fun _ => ?_
      constructor
      · rintro (⟨_, ⟨above, rfl⟩, rfl⟩ | ⟨_, _, done⟩)
        · exact ⟨above, rfl⟩
        · cases done
      · rintro ⟨above, rfl⟩
        exact .inl ⟨_, ⟨above, rfl⟩, rfl⟩

/-- Nothing is declared, or an attack has fewer than two elements or an end that is not declared. -/
def Malformed (ds : List Declaration) (attacks : List Attack.Given) : Prop :=
  ds = [] ∨ ∃ g ∈ attacks, g.elements.length < 2 ∨
    ∃ v ∈ g.elements.take 2, ∀ d ∈ ds, d.id ≠ v.name

/-- The form of the whole is right, and it can be looked at. -/
def Sound (ds : List Declaration) (attacks : List Attack.Given) : Prop :=
  ¬ Malformed ds attacks ∧ ∀ o, ¬ Blocked attacks o

/-- There are no stages exactly where there is no plan, and for the same reason. -/
theorem evolve_eq_error_iff : evolve declarations attacks limit = .error fault ↔
    ofDeclared declarations attacks limit = .error fault := by
  rw [evolve, bind_eq_error_iff]
  refine ⟨fun h => h.resolve_right ?_, .inl⟩
  rintro ⟨p, planned, failed⟩
  obtain ⟨ds, given, -, -, made⟩ := exists_made planned
  obtain ⟨stages, staged⟩ := Stage.exists_ofPlan_eq_ok made
  rw [staged] at failed
  exact nomatch failed

end Plan

/-! ### The judgement -/

open Plan

end Argumentation
