import Argumentation.Proofs.Renaming
import Mathlib.Order.WellFoundedSet

/-!
# Argumentation.Proofs.Acyclic

Where no chain of attacks leads back to its start, there is nothing to choose. Whether an argument is
accepted depends on its attackers alone, and along the attacks every argument is decided one after
the other (`Acyclic.decided`). So the grounded extension is stable, and it leaves no room for another
complete set.

The labelling knows nothing of chains: it looks at the arguments in the order of their declarations,
and a long chain takes it many rounds. That it does not stop short is seen from its end, at which an
argument without a label would need an attacker without one.
-/

namespace Argumentation.Framework

variable {F : Framework} {S : Set String} {a b : String}

/-! ### Chains of attacks -/

/-- No chain of attacks leads from an argument back to itself. -/
def Acyclic (F : Framework) : Prop := ∀ a, ¬ Relation.TransGen F.Attacks a a

/-- If the arguments can be numbered so that all attacks go upwards, there is no cycle. -/
theorem acyclic_of_rising (number : String → Nat)
    (rising : ∀ e ∈ F.attacks, number e.attacker < number e.target) : F.Acyclic := by
  have upwards {a b : String} (chain : Relation.TransGen F.Attacks a b) : number a < number b := by
    induction chain with
    | single hab => exact rising _ hab
    | tail _ hbc ih => exact ih.trans (rising _ hbc)
  intro a cycle
  exact lt_irrefl _ (upwards cycle)

/-- There are finitely many arguments, so no chain goes back for ever. -/
theorem Acyclic.wellFoundedOn (h : F.Acyclic) :
    {a | a ∈ F.arguments}.WellFoundedOn (Relation.TransGen F.Attacks) := by
  have : IsStrictOrder String (Relation.TransGen F.Attacks) :=
    { irrefl := h, trans := fun _ _ _ => Relation.TransGen.trans }
  exact (List.finite_toSet F.arguments).wellFoundedOn

/-! ### Nothing is left undecided -/

/-- Every argument is in the least fixpoint or attacked by it. -/
theorem Acyclic.decided (h : F.Acyclic) (ha : a ∈ F.arguments) :
    a ∈ F.characteristic.lfp ∨ ∃ b ∈ F.characteristic.lfp, F.Attacks b a := by
  -- along the attacks: what is known of an argument is known of all its attackers before
  apply h.wellFoundedOn.induction ha
  intro a ha ih
  by_cases hit : ∃ b ∈ F.characteristic.lfp, F.Attacks b a
  · exact .inr hit
  · left
    rw [← F.characteristic.map_lfp]
    refine ⟨ha, fun b hba => ?_⟩
    rcases ih b hba.left_mem (.single hba) with b_in | b_out
    · exact absurd ⟨b, b_in, hba⟩ hit
    · exact b_out

theorem Acyclic.stable_lfp (h : F.Acyclic) : F.Stable F.characteristic.lfp := by
  refine ⟨conflictFree_lfp F, fun b hb out => ?_⟩
  exact (h.decided hb).resolve_left out

/-- All arguments have a label when the labelling ends. -/
theorem Acyclic.labels_eq_fullMask (h : F.Acyclic) :
    F.labelling.accepted ||| F.labelling.rejected = F.fullMask := by
  have sound := Labelling.sound_labelling F
  rw [← members_eq_iff (Nat.or_lt_two_pow sound.accepted_lt sound.rejected_lt) fullMask_lt,
    members_or, members_fullMask]
  refine Set.Subset.antisymm ?_ fun a ha => ?_
  · rintro a (a_in | a_out)
    · exact a_in.1
    · exact a_out.1
  · rcases h.decided ha with a_in | ⟨b, b_in, hba⟩
    · left
      rwa [Labelling.members_accepted_eq_lfp]
    · right
      rw [← Labelling.members_accepted_eq_lfp] at b_in
      exact Labelling.out_of_attacker_in (Labelling.round_labelling F) b_in hba

/-! ### One extension -/

/-- Where the grounded extension is stable, it is the only complete set. -/
theorem complete_iff_eq_lfp (stable : F.Stable F.characteristic.lfp) :
    F.Complete S ↔ S = F.characteristic.lfp := by
  constructor
  · intro complete
    exact (stable.eq_of_subset complete.1.1 (lfp_subset_of_complete complete)).symm
  · rintro rfl
    exact complete_lfp F

theorem preferred_iff_eq_lfp (stable : F.Stable F.characteristic.lfp) :
    F.Preferred S ↔ S = F.characteristic.lfp := by
  constructor
  · intro preferred
    exact (complete_iff_eq_lfp stable).1 preferred.complete
  · rintro rfl
    exact stable.preferred

theorem stable_iff_eq_lfp (stable : F.Stable F.characteristic.lfp) :
    F.Stable S ↔ S = F.characteristic.lfp := by
  constructor
  · intro stable'
    exact (preferred_iff_eq_lfp stable).1 stable'.preferred
  · rintro rfl
    exact stable

/-- A family of a property that only the least fixpoint has is the family of the grounded
extension. -/
theorem Enumerates.eq_grounded {family : List (List String)} {P : Set String → Prop}
    (h : Enumerates family P) (only : ∀ S, P S ↔ S = F.characteristic.lfp) :
    family = [F.groundedExtension] := by
  have same : P = fun S => S = F.characteristic.lfp := funext fun S => propext (only S)
  subst same
  exact h.eq (enumerates_grounded F)

/-- **Without cycles there is one extension.** It is the only complete, the only preferred and the
only stable one, and the grounded one. The labelling leaves no argument without a label: the members
of the extension are at peace, and what is not in it is attacked by it. -/
theorem Acyclic.families_eq_grounded {limit : Int} (h : F.Acyclic) (small : F.size ≤ limit) :
    ∃ f, F.extensions limit = .ok f ∧ f.complete = [F.groundedExtension] ∧
      f.preferred = [F.groundedExtension] ∧ f.stable = [F.groundedExtension] ∧
      f.grounded = [F.groundedExtension] ∧
      F.labelling.accepted ||| F.labelling.rejected = F.fullMask ∧
      F.ConflictFree {a | a ∈ F.groundedExtension} ∧
      ∀ b ∈ F.arguments, b ∉ F.groundedExtension → ∃ a ∈ F.groundedExtension, F.Attacks a b := by
  have stable := h.stable_lfp
  have same : {a | a ∈ F.groundedExtension} = F.characteristic.lfp :=
    Set.ext fun _ => mem_groundedExtension
  refine ⟨F.families, extensions_eq_ok small, ?_, ?_, ?_, rfl, h.labels_eq_fullMask, ?_⟩
  · exact (enumerates_complete F).eq_grounded fun S => complete_iff_eq_lfp stable
  · exact (enumerates_preferred F).eq_grounded fun S => preferred_iff_eq_lfp stable
  · exact (enumerates_stable F).eq_grounded fun S => stable_iff_eq_lfp stable
  · show F.Stable {a | a ∈ F.groundedExtension}
    rw [same]
    exact stable

/-- A chain of attacks from `a` to `d` whose arguments are declared against its direction, with an
attack that leaves one of its members out. -/
def chain : Framework where
  arguments := ["d", "c", "b", "a"]
  attacks := [⟨"c", "d"⟩, ⟨"b", "c"⟩, ⟨"b", "d"⟩, ⟨"a", "b"⟩]
  arguments_ne_nil := by decide
  nodup := by decide
  declared := by decide

theorem chain_families_eq_grounded : chain.Acyclic ∧ (chain.size : Int) ≤ defaultLimit ∧
    ∃ f, chain.extensions defaultLimit = .ok f ∧ f.complete = [chain.groundedExtension] ∧
      f.preferred = [chain.groundedExtension] ∧ f.stable = [chain.groundedExtension] ∧
      f.grounded = [chain.groundedExtension] ∧
      chain.labelling.accepted ||| chain.labelling.rejected = chain.fullMask ∧
      chain.ConflictFree {a | a ∈ chain.groundedExtension} ∧
      ∀ b ∈ chain.arguments, b ∉ chain.groundedExtension →
        ∃ a ∈ chain.groundedExtension, chain.Attacks a b := by
  have acyclic : chain.Acyclic :=
    acyclic_of_rising (fun a => ["a", "b", "c", "d"].idxOf a) (by decide)
  exact ⟨acyclic, by decide, acyclic.families_eq_grounded (by decide)⟩

example : chain.groundedExtension = ["a", "c"] := by cbv

end Argumentation.Framework
