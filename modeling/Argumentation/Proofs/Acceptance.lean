import Argumentation.Framework
import Mathlib.Data.Set.Finite.Lattice
import Mathlib.Data.Set.Finite.List
import Mathlib.Order.FixedPoints
import Mathlib.Order.Preorder.Finite
import Mathlib.Order.CompletePartialOrder

/-!
# Argumentation.Proofs.Acceptance

The semantics of a framework as properties of sets of arguments, without masks and without an
algorithm: what it means that a set is conflict-free, admissible, complete, stable or preferred, and
the characteristic function, whose least fixpoint is the grounded extension.

The theory of these notions that does not depend on how they are decided stands here too. Its hinge
is the **fundamental lemma** (`Admissible.insert`): an admissible set stays admissible when an
argument joins that it defends. From it follows that preferred sets are complete.
-/

namespace Argumentation.Framework

variable {F : Framework} {S T : Set String} {a b : String}

/-! ### Attack and defence -/

/-- The argument `a` attacks the argument `b`. -/
def Attacks (F : Framework) (a b : String) : Prop := ⟨a, b⟩ ∈ F.attacks

/-- Every attacker of `a` is attacked by a member of `S`. -/
def Defends (F : Framework) (S : Set String) (a : String) : Prop :=
  ∀ b, F.Attacks b a → ∃ c ∈ S, F.Attacks c b

theorem Attacks.left_mem (h : F.Attacks a b) : a ∈ F.arguments := (F.declared _ h).1

theorem Attacks.right_mem (h : F.Attacks a b) : b ∈ F.arguments := (F.declared _ h).2

theorem Defends.mono (h : F.Defends S a) (sub : S ⊆ T) : F.Defends T a := by
  intro b hb
  obtain ⟨c, hc, hcb⟩ := h b hb
  exact ⟨c, sub hc, hcb⟩

/-! ### The semantics -/

/-- A set of arguments none of which attacks another one or itself. -/
def ConflictFree (F : Framework) (S : Set String) : Prop :=
  (∀ a ∈ S, a ∈ F.arguments) ∧ ∀ a ∈ S, ∀ b ∈ S, ¬ F.Attacks a b

/-- A conflict-free set that defends its members. -/
def Admissible (F : Framework) (S : Set String) : Prop :=
  F.ConflictFree S ∧ ∀ a ∈ S, F.Defends S a

/-- An admissible set that has every argument that it defends. -/
def Complete (F : Framework) (S : Set String) : Prop :=
  F.Admissible S ∧ ∀ a ∈ F.arguments, F.Defends S a → a ∈ S

/-- A conflict-free set that attacks every argument that it leaves out. -/
def Stable (F : Framework) (S : Set String) : Prop :=
  F.ConflictFree S ∧ ∀ b ∈ F.arguments, b ∉ S → ∃ a ∈ S, F.Attacks a b

/-- An admissible set that is not a proper part of another one. -/
def Preferred (F : Framework) (S : Set String) : Prop :=
  F.Admissible S ∧ ∀ T, F.Admissible T → ¬ S ⊂ T

/-- The characteristic function: the arguments that a set defends. -/
def characteristic (F : Framework) : Set String →o Set String where
  toFun S := {a | a ∈ F.arguments ∧ F.Defends S a}
  monotone' _ _ sub _ ha := ⟨ha.1, ha.2.mono sub⟩

@[simp] theorem mem_characteristic :
    a ∈ F.characteristic S ↔ a ∈ F.arguments ∧ F.Defends S a := Iff.rfl

/-! ### How the semantics are related -/

theorem ConflictFree.empty (F : Framework) : F.ConflictFree ∅ :=
  ⟨fun _ h => absurd h (Set.notMem_empty _), fun _ h => absurd h (Set.notMem_empty _)⟩

theorem Admissible.empty (F : Framework) : F.Admissible ∅ :=
  ⟨ConflictFree.empty F, fun _ h => absurd h (Set.notMem_empty _)⟩

/-- **Fundamental lemma.** An admissible set stays admissible when an argument joins that it
defends. The newcomer cannot be in conflict with the set: its attackers are attacked by the set, and
so are the attackers of each member. -/
theorem Admissible.insert (h : F.Admissible S) (ha : a ∈ F.arguments) (hd : F.Defends S a) :
    F.Admissible (insert a S) := by
  obtain ⟨⟨sub, free⟩, defended⟩ := h
  have not_from (b : String) (hb : b ∈ S) : ¬ F.Attacks b a := by
    intro hba
    obtain ⟨c, hc, hcb⟩ := hd b hba
    exact free c hc b hb hcb
  have not_to (b : String) (hb : b ∈ S) : ¬ F.Attacks a b := by
    intro hab
    obtain ⟨c, hc, hca⟩ := defended b hb a hab
    exact not_from c hc hca
  have not_self : ¬ F.Attacks a a := by
    intro haa
    obtain ⟨c, hc, hca⟩ := hd a haa
    exact not_from c hc hca
  refine ⟨⟨?_, ?_⟩, ?_⟩
  · rintro b (rfl | hb)
    · exact ha
    · exact sub b hb
  · rintro b (rfl | hb) c (rfl | hc)
    · exact not_self
    · exact not_to c hc
    · exact not_from b hb
    · exact free b hb c hc
  · rintro b (rfl | hb)
    · exact hd.mono (Set.subset_insert _ _)
    · exact (defended b hb).mono (Set.subset_insert _ _)

theorem Stable.admissible (h : F.Stable S) : F.Admissible S := by
  refine ⟨h.1, fun a ha b hba => h.2 b hba.left_mem fun hb => ?_⟩
  exact h.1.2 b hb a ha hba

/-- A conflict-free set that has a stable one inside has nothing more. -/
theorem Stable.eq_of_subset (h : F.Stable S) (hT : F.ConflictFree T) (sub : S ⊆ T) : S = T := by
  refine sub.antisymm fun b hb => ?_
  by_contra out
  obtain ⟨a, ha, hab⟩ := h.2 b (hT.1 b hb) out
  exact hT.2 a (sub ha) b hb hab

theorem Stable.preferred (h : F.Stable S) : F.Preferred S :=
  ⟨h.admissible, fun _ hT proper => proper.ne (h.eq_of_subset hT.1 proper.subset)⟩

theorem Preferred.complete (h : F.Preferred S) : F.Complete S := by
  refine ⟨h.1, fun a ha hd => ?_⟩
  by_contra out
  exact h.2 _ (h.1.insert ha hd) (Set.ssubset_insert out)

/-- Complete sets are fixpoints of the characteristic function. -/
theorem Complete.characteristic_eq (h : F.Complete S) : F.characteristic S = S := by
  refine Set.Subset.antisymm (fun a ha => h.2 a ha.1 ha.2) fun a ha => ?_
  exact ⟨h.1.1.1 a ha, h.1.2 a ha⟩

/-- A conflict-free fixpoint of the characteristic function is complete. -/
theorem complete_of_characteristic_eq (free : F.ConflictFree S) (h : F.characteristic S = S) :
    F.Complete S := by
  refine ⟨⟨free, fun a ha => ?_⟩, fun a ha hd => ?_⟩
  · rw [← h] at ha
    exact ha.2
  · rw [← h]
    exact ⟨ha, hd⟩

/-- Only finitely many sets are admissible, so each of them has a preferred one around it. -/
theorem Admissible.exists_preferred (h : F.Admissible S) : ∃ T, F.Preferred T ∧ S ⊆ T := by
  have finite : {T | F.Admissible T}.Finite :=
    (List.finite_toSet F.arguments).finite_subsets.subset fun T hT a ha => hT.1.1 a ha
  obtain ⟨T, sub, hT⟩ := finite.exists_le_maximal h
  refine ⟨T, ⟨hT.prop, fun U hU proper => ?_⟩, sub⟩
  exact proper.not_subset (hT.le_of_ge hU proper.subset)

/-! ### A small framework -/

/-- Two arguments that attack each other, one of them twice, and one that attacks itself. -/
def quarrel : Framework where
  arguments := ["b", "a", "c"]
  attacks := [⟨"b", "a"⟩, ⟨"a", "b"⟩, ⟨"c", "c"⟩, ⟨"a", "b"⟩]
  arguments_ne_nil := by decide
  nodup := by decide
  declared := by decide

end Argumentation.Framework
