import Argumentation.Proofs.RankQuery
import Argumentation.Proofs.Renaming

/-!
# Argumentation.Proofs.Restriction

What is left when a framework is cut down to some of its arguments. The arguments that are kept
stand in the order in which they were asked for, so every place and every mask is a new one; the
names and the attacks between them stay as they were (`attacks_restrict_iff`).

Hence a second cut does not see the first one (`restrict_restrict`), and the sets without conflicts
are the old ones among the arguments that are kept. The two enumerations visit different masks in a
different order; they are compared by the sets that they list, which `Enumerates` allows.
-/

namespace Argumentation.Framework

variable {F G : Framework} {kept fewer : List String} {a b : String} {S : Set String}

/-! ### The arguments and attacks that are kept -/

theorem namesOfValues_text (names : List String) :
    namesOfValues (names.map .text) = .ok names := by
  refine mapError_eq_ok_iff.2 (mapM_eq_ok_iff.2 ?_)
  simp [List.forall₂_map_left_iff, List.forall₂_same]

/-- Names that are handed over as values cut a framework down like the names themselves. -/
theorem restrictTo_text (F : Framework) (names : List String) :
    F.restrictTo (names.map .text) = (F.restrict names).mapError .framework := by
  have texts : ((distinct names).map Value.text).filterMap Value.text? = distinct names := by
    simp [List.filterMap_map, Function.comp_def, Value.text?]
  have same (c : String) : (distinct names).contains c = names.contains c := by
    rw [Bool.eq_iff_iff, List.contains_iff_mem, List.contains_iff_mem, mem_distinct]
  rw [restrictTo, distinct_map keepsApart_text, namesOfValues_text, texts]
  show (F.induced _ _).mapError GraphFault.framework = _
  simp only [restrict, induced, same, make, distinct_eq_self (nodup_distinct names)]

theorem mem_arguments_restrict (cut : F.restrict kept = .ok G) : a ∈ G.arguments ↔ a ∈ kept := by
  rw [(restrict_eq_ok_iff.1 cut).1, mem_distinct]

/-- An attack is kept with both of its ends. -/
theorem attacks_restrict_iff (cut : F.restrict kept = .ok G) :
    G.Attacks a b ↔ F.Attacks a b ∧ a ∈ kept ∧ b ∈ kept := by
  rw [Attacks, (restrict_eq_ok_iff.1 cut).2]
  simp [Attacks]

theorem size_restrict_le (cut : F.restrict kept = .ok G) (own : ∀ a ∈ kept, a ∈ F.arguments) :
    G.size ≤ F.size := by
  have sub : G.arguments ⊆ F.arguments := fun a ha => own a ((mem_arguments_restrict cut).1 ha)
  exact (List.subperm_of_subset G.nodup sub).length_le

/-- What is cut down twice is what is cut down at once. -/
theorem restrict_restrict (cut : F.restrict kept = .ok G) (sub : ∀ a ∈ fewer, a ∈ kept) :
    G.restrict fewer = F.restrict fewer := by
  rw [restrict, induced, (restrict_eq_ok_iff.1 cut).2, List.filter_filter, restrict, induced]
  refine congrArg (make fewer) (List.filter_congr fun e _ => ?_)
  -- an attack between members of `fewer` has passed the first cut
  rw [Bool.eq_iff_iff]
  simp only [Bool.and_eq_true, List.contains_iff_mem]
  exact and_iff_left_of_imp fun ends => ⟨sub _ ends.1, sub _ ends.2⟩

/-! ### The sets without conflicts -/

/-- The sets without conflicts are those of `F` that have none but kept members. -/
theorem conflictFree_restrict_iff (cut : F.restrict kept = .ok G)
    (own : ∀ a ∈ kept, a ∈ F.arguments) :
    G.ConflictFree S ↔ F.ConflictFree S ∧ ∀ a ∈ S, a ∈ kept := by
  constructor
  · intro h
    obtain ⟨inside, free⟩ := h
    have members : ∀ a ∈ S, a ∈ kept := fun a ha => (mem_arguments_restrict cut).1 (inside a ha)
    refine ⟨⟨fun a ha => own a (members a ha), fun a ha b hb attack => ?_⟩, members⟩
    exact free a ha b hb ((attacks_restrict_iff cut).2 ⟨attack, members a ha, members b hb⟩)
  · intro h
    obtain ⟨⟨-, free⟩, members⟩ := h
    refine ⟨fun a ha => (mem_arguments_restrict cut).2 (members a ha), fun a ha b hb attack => ?_⟩
    exact free a ha b hb ((attacks_restrict_iff cut).1 attack).1

/-- A part of a family that is told by a test lists the sets that have the property of the test as
well. -/
theorem Enumerates.filter {family : List (List String)} {P Q : Set String → Prop}
    (h : Enumerates family P) {test : List String → Bool}
    (test_iff : ∀ E, test E = true ↔ Q {a | a ∈ E}) :
    Enumerates (family.filter test) fun S => P S ∧ Q S := by
  constructor
  · intro E hE
    obtain ⟨listed, passed⟩ := List.mem_filter.1 hE
    obtain ⟨rising, hP⟩ := h.sound E listed
    exact ⟨rising, hP, (test_iff E).1 passed⟩
  · intro S hS
    obtain ⟨hP, hQ⟩ := hS
    obtain ⟨E, ⟨listed, rfl⟩, unique⟩ := h.complete S hP
    refine ⟨E, ⟨List.mem_filter.2 ⟨listed, (test_iff E).2 hQ⟩, rfl⟩, fun D hD => ?_⟩
    exact unique D ⟨(List.mem_filter.1 hD.1).1, hD.2⟩
  · exact h.rising.filter test

theorem families_restrict_conflictFree (cut : F.restrict kept = .ok G)
    (own : ∀ a ∈ kept, a ∈ F.arguments) :
    G.families.conflictFree = F.families.conflictFree.filter fun E => E.all kept.contains := by
  have among : Enumerates (F.families.conflictFree.filter fun E => E.all kept.contains)
      fun S => F.ConflictFree S ∧ ∀ a ∈ S, a ∈ kept :=
    (enumerates_conflictFree F).filter fun E => by simp
  have same : G.ConflictFree = fun S => F.ConflictFree S ∧ ∀ a ∈ S, a ∈ kept :=
    funext fun S => propext (conflictFree_restrict_iff cut own)
  exact (same ▸ enumerates_conflictFree G).eq among

/-! ### Frameworks that are cut down -/

/-- The framework `G` is what is left of `F` with the arguments `kept`. -/
structure Restricts (F : Framework) (kept : List String) (G : Framework) : Prop where
  arguments : Firsts kept G.arguments
  /-- The attacks stay in their order and are kept as often as they were listed. -/
  attacks : G.attacks =
    F.attacks.filter fun e => kept.contains e.attacker && kept.contains e.target
  /-- The names may be handed over as values. -/
  handed : F.restrictTo (kept.map .text) = .ok G
  /-- A second cut gives the framework that it gives without the first one, and so the same places
  and masks. -/
  again : ∀ fewer, fewer ≠ [] → (∀ a ∈ fewer, a ∈ kept) →
    ∃ H, F.restrict fewer = .ok H ∧ G.restrict fewer = .ok H
  /-- Within the limit, the conflict-free sets are those of `F` among the kept arguments. -/
  conflictFree : ∀ limit : Int, F.size ≤ limit → ∃ f g,
    F.extensions limit = .ok f ∧ G.extensions limit = .ok g ∧
      g.conflictFree = f.conflictFree.filter fun E => E.all kept.contains

/-- **Cutting down keeps the names and what goes on between them.** To whatever arguments of its own
a framework is cut down, in whatever order and however often they are named, it is the part of the
framework that these arguments make up. -/
theorem restrict_restricts (some_left : kept ≠ []) (own : ∀ a ∈ kept, a ∈ F.arguments) :
    ∃ G, F.restrict kept = .ok G ∧ Restricts F kept G := by
  obtain ⟨G, cut⟩ := F.exists_restrict some_left
  obtain ⟨arguments, attacks⟩ := restrict_eq_ok_iff.1 cut
  have handed : F.restrictTo (kept.map .text) = .ok G := by
    rw [restrictTo_text, cut]
    rfl
  refine ⟨G, cut, arguments ▸ firsts_distinct kept, attacks, handed, fun fewer left sub => ?_,
    fun limit small => ?_⟩
  · obtain ⟨H, at_once⟩ := F.exists_restrict left
    exact ⟨H, at_once, (restrict_restrict cut sub).trans at_once⟩
  · have small' : G.size ≤ limit := le_trans (Int.ofNat_le.2 (size_restrict_le cut own)) small
    exact ⟨F.families, G.families, extensions_eq_ok small, extensions_eq_ok small',
      families_restrict_conflictFree cut own⟩

/-- The quarrel without one of its sides, the arguments named in another order and one twice. -/
theorem quarrel_restricts : ["c", "a", "c"] ≠ [] ∧
    (∀ a ∈ ["c", "a", "c"], a ∈ quarrel.arguments) ∧
    ∃ G, quarrel.restrict ["c", "a", "c"] = .ok G ∧ Restricts quarrel ["c", "a", "c"] G :=
  ⟨by decide, by decide, restrict_restricts (by decide) (by decide)⟩

end Argumentation.Framework
