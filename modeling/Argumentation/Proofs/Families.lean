import Argumentation.Proofs.Enumeration
import Argumentation.Proofs.Grounding

/-!
# Argumentation.Proofs.Families

How the six families of one framework are related. Five of them come out of the enumeration and the
sixth out of the labelling; both are known by their semantics, so the relations are those of the
semantics. The grounded extension is the least complete one, and for that the least fixpoint of the
characteristic function has to be free of conflicts, which the labelling shows.
-/

namespace Argumentation.Framework

variable {F : Framework}

/-- The least fixpoint of the characteristic function is a complete set. -/
theorem complete_lfp (F : Framework) : F.Complete F.characteristic.lfp :=
  complete_of_characteristic_eq (conflictFree_lfp F) F.characteristic.map_lfp

/-- The grounded extension is in every complete set. -/
theorem lfp_subset_of_complete {S : Set String} (h : F.Complete S) : F.characteristic.lfp ⊆ S :=
  F.characteristic.lfp_le h.characteristic_eq.le

/-- **The families fit together.** Each semantics is at least as strict as the next, the weak ones
have the empty extension, the strong ones but the stable are never without one, admissible
extensions grow into preferred ones, and the grounded extension is complete and what all complete
extensions have in common. -/
theorem families_related {limit : Int} (h : F.size ≤ limit) :
    ∃ f, F.extensions limit = .ok f ∧
      f.stable ⊆ f.preferred ∧ f.preferred ⊆ f.complete ∧ f.complete ⊆ f.admissible ∧
      f.admissible ⊆ f.conflictFree ∧
      [] ∈ f.conflictFree ∧ [] ∈ f.admissible ∧ f.preferred ≠ [] ∧ f.complete ≠ [] ∧
      (∀ E ∈ f.admissible, ∃ E' ∈ f.preferred, E ⊆ E') ∧
      (∀ E ∈ f.preferred, ∀ E' ∈ f.preferred, E ⊆ E' → E = E') ∧
      ∃ G, f.grounded = [G] ∧ G ∈ f.complete ∧ ∀ a, a ∈ G ↔ ∀ E ∈ f.complete, a ∈ E := by
  have conflictFree := enumerates_conflictFree F
  have admissible := enumerates_admissible F
  have complete := enumerates_complete F
  have preferred := enumerates_preferred F
  have stable := enumerates_stable F
  have no_members : {a | a ∈ ([] : List String)} = ∅ := Set.ext fun a => by simp
  have grounded_complete : F.groundedExtension ∈ F.families.complete := by
    have same : {a | a ∈ F.groundedExtension} = F.characteristic.lfp :=
      Set.ext fun _ => mem_groundedExtension
    refine complete.mem_iff.2 ⟨pairwise_lt_groundedExtension F, ?_⟩
    rw [same]
    exact complete_lfp F
  refine ⟨F.families, extensions_eq_ok h, ?_, ?_, ?_, ?_, ?_, ?_, ?_, ?_, ?_, ?_, ?_⟩
  · exact stable.subset preferred fun _ => Stable.preferred
  · exact preferred.subset complete fun _ => Preferred.complete
  · exact complete.subset admissible fun _ hS => hS.1
  · exact admissible.subset conflictFree fun _ hS => hS.1
  · exact conflictFree.mem_iff.2 ⟨List.Pairwise.nil, no_members ▸ ConflictFree.empty F⟩
  · exact admissible.mem_iff.2 ⟨List.Pairwise.nil, no_members ▸ Admissible.empty F⟩
  · obtain ⟨S, hS, -⟩ := (Admissible.empty F).exists_preferred
    exact preferred.ne_nil hS
  · exact complete.ne_nil (complete_lfp F)
  · intro E hE
    obtain ⟨S, hS, sub⟩ := (admissible.mem_iff.1 hE).2.exists_preferred
    obtain ⟨E', ⟨listed, same⟩, -⟩ := preferred.complete S hS
    refine ⟨E', listed, fun a ha => ?_⟩
    rw [← same] at sub
    exact sub ha
  · intro E hE E' hE'
    exact preferred.eq_of_subset (fun S T hS hT => hS.2 T hT.1) hE hE'
  · refine ⟨F.groundedExtension, rfl, grounded_complete, fun a => ⟨fun ha E hE => ?_, fun ha => ?_⟩⟩
    · exact lfp_subset_of_complete (complete.mem_iff.1 hE).2 (mem_groundedExtension.1 ha)
    · exact ha _ grounded_complete

theorem quarrel_families : (quarrel.size : Int) ≤ defaultLimit ∧
    ∃ f, quarrel.extensions defaultLimit = .ok f ∧
      f.stable ⊆ f.preferred ∧ f.preferred ⊆ f.complete ∧ f.complete ⊆ f.admissible ∧
      f.admissible ⊆ f.conflictFree ∧
      [] ∈ f.conflictFree ∧ [] ∈ f.admissible ∧ f.preferred ≠ [] ∧ f.complete ≠ [] ∧
      (∀ E ∈ f.admissible, ∃ E' ∈ f.preferred, E ⊆ E') ∧
      (∀ E ∈ f.preferred, ∀ E' ∈ f.preferred, E ⊆ E' → E = E') ∧
      ∃ G, f.grounded = [G] ∧ G ∈ f.complete ∧ ∀ a, a ∈ G ↔ ∀ E ∈ f.complete, a ∈ E :=
  ⟨by decide, families_related (by decide)⟩

end Argumentation.Framework
