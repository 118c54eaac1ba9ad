import Argumentation.Proofs.Interning
import Argumentation.Proofs.Renaming

/-!
# Argumentation.Proofs.Direction

What appears later cannot change what holds among the arguments that are there, as long as it does
not attack them. The earlier framework is then a part of the later one that nothing outside attacks
(`Unattacked`), and its complete, preferred and grounded extensions are what those of the later one
have in common with it.

Cutting an extension down to the part is the easy direction, as members are defended against
attackers in the part by members in the part. For the way back an extension of the part has to be
found inside one of the whole. There is more than one way to go on outside, and not all of them
leave the part alone:

* a complete set of the part is admissible in the whole, and among the admissible sets around it that
  add nothing inside the part a greatest one is complete (`Unattacked.exists_complete`);
* a preferred set is in a preferred one of the whole, which cannot add anything inside the part,
  while a greater set inside the part could be glued to what lies outside
  (`Unattacked.admissible_union`).
-/

namespace Argumentation

namespace Framework

variable {F G : Framework} {S T E : Set String} {a b : String}

/-! ### Parts of a framework -/

/-- The members of a set that are arguments of `F`. -/
def inside (F : Framework) (E : Set String) : Set String := E ∩ {a | a ∈ F.arguments}

theorem mem_inside : a ∈ F.inside E ↔ a ∈ E ∧ a ∈ F.arguments := Iff.rfl

theorem inside_eq_self (sub : ∀ a ∈ S, a ∈ F.arguments) : F.inside S = S :=
  Set.inter_eq_left.2 sub

theorem inside_mono (sub : S ⊆ T) : F.inside S ⊆ F.inside T := Set.inter_subset_inter_left _ sub

theorem inside_insert (outside : a ∉ F.arguments) : F.inside (insert a E) = F.inside E := by
  ext b
  rw [mem_inside, mem_inside, Set.mem_insert_iff]
  constructor
  · rintro ⟨rfl | hb, there⟩
    · exact absurd there outside
    · exact ⟨hb, there⟩
  · rintro ⟨hb, there⟩
    exact ⟨.inr hb, there⟩

/-- The arguments of `F` and the attacks between them are a part of `G`, and every attack of `G` on
one of them is one of these attacks. -/
structure Unattacked (F G : Framework) : Prop where
  arguments : ∀ a ∈ F.arguments, a ∈ G.arguments
  attacks_iff : ∀ a b, F.Attacks a b ↔ G.Attacks a b ∧ b ∈ F.arguments

namespace Unattacked

variable (part : Unattacked F G)
include part

theorem attacks_of_part (hab : F.Attacks a b) : G.Attacks a b := ((part.attacks_iff a b).1 hab).1

/-- What attacks an argument of the part is in the part. -/
theorem attacks_in_part (hab : G.Attacks a b) (hb : b ∈ F.arguments) : F.Attacks a b :=
  (part.attacks_iff a b).2 ⟨hab, hb⟩

/-! ### Cutting down -/

/-- Only members inside the part can attack an argument of the part. -/
theorem hits_iff (hb : b ∈ F.arguments) :
    (∃ c ∈ F.inside E, F.Attacks c b) ↔ ∃ c ∈ E, G.Attacks c b := by
  constructor
  · rintro ⟨c, hc, hcb⟩
    exact ⟨c, hc.1, part.attacks_of_part hcb⟩
  · rintro ⟨c, hc, hcb⟩
    have hcb' := part.attacks_in_part hcb hb
    exact ⟨c, ⟨hc, hcb'.left_mem⟩, hcb'⟩

/-- An argument of the part is defended inside exactly if it is defended at all. -/
theorem defends_iff (ha : a ∈ F.arguments) : F.Defends (F.inside E) a ↔ G.Defends E a := by
  constructor
  · intro defended b hba
    have hba' := part.attacks_in_part hba ha
    exact (part.hits_iff hba'.left_mem).1 (defended b hba')
  · intro defended b hba
    exact (part.hits_iff hba.left_mem).2 (defended b (part.attacks_of_part hba))

theorem admissible_inside (h : G.Admissible E) : F.Admissible (F.inside E) := by
  refine ⟨⟨fun a ha => ha.2, fun a ha b hb hab => ?_⟩, fun a ha => ?_⟩
  · exact h.1.2 a ha.1 b hb.1 (part.attacks_of_part hab)
  · exact (part.defends_iff ha.2).2 (h.2 a ha.1)

theorem complete_inside (h : G.Complete E) : F.Complete (F.inside E) := by
  refine ⟨part.admissible_inside h.1, fun a ha defended => ⟨?_, ha⟩⟩
  exact h.2 a (part.arguments a ha) ((part.defends_iff ha).1 defended)

/-! ### Going on outside -/

/-- What is admissible in the part needs no defence against the rest. -/
theorem admissible_of_part (h : F.Admissible S) : G.Admissible S := by
  refine ⟨⟨fun a ha => part.arguments a (h.1.1 a ha), fun a ha b hb hab => ?_⟩, fun a ha => ?_⟩
  · exact h.1.2 a ha b hb (part.attacks_in_part hab (h.1.1 b hb))
  · rw [← part.defends_iff (h.1.1 a ha), inside_eq_self h.1.1]
    exact h.2 a ha

/-- An admissible set of the part is compatible with what lies outside of an admissible set of the
whole, if it has all that the latter has inside. -/
theorem admissible_union (hS : F.Admissible S) (hE : G.Admissible E) (sub : F.inside E ⊆ S) :
    G.Admissible (S ∪ E) := by
  have hS' := part.admissible_of_part hS
  -- an attack on `S` comes from the part, where `S` has all of `E`
  have not_from (a : String) (ha : a ∈ E) (b : String) (hb : b ∈ S) : ¬ G.Attacks a b := by
    intro hab
    have hab' := part.attacks_in_part hab (hS.1.1 b hb)
    exact hS.1.2 a (sub ⟨ha, hab'.left_mem⟩) b hb hab'
  -- an attack of `S` on `E` would be answered by such an attack
  have not_to (a : String) (ha : a ∈ S) (b : String) (hb : b ∈ E) : ¬ G.Attacks a b := by
    intro hab
    obtain ⟨c, hc, hca⟩ := hE.2 b hb a hab
    exact not_from c hc a ha hca
  refine ⟨⟨?_, ?_⟩, ?_⟩
  · rintro a (ha | ha)
    · exact hS'.1.1 a ha
    · exact hE.1.1 a ha
  · rintro a (ha | ha) b (hb | hb)
    · exact hS'.1.2 a ha b hb
    · exact not_to a ha b hb
    · exact not_from a ha b hb
    · exact hE.1.2 a ha b hb
  · rintro a (ha | ha)
    · exact (hS'.2 a ha).mono Set.subset_union_left
    · exact (hE.2 a ha).mono Set.subset_union_right

/-- A complete set of the part is what a complete set of the whole has inside. -/
theorem exists_complete (h : F.Complete S) : ∃ E, G.Complete E ∧ F.inside E = S := by
  have finite : {E | G.Admissible E ∧ F.inside E = S}.Finite :=
    (List.finite_toSet G.arguments).finite_subsets.subset fun E hE a ha => hE.1.1.1 a ha
  have start : G.Admissible S ∧ F.inside S = S :=
    ⟨part.admissible_of_part h.1, inside_eq_self h.1.1.1⟩
  obtain ⟨E, -, greatest⟩ := finite.exists_le_maximal start
  obtain ⟨hE, same⟩ := greatest.prop
  refine ⟨E, ⟨hE, fun a ha defended => ?_⟩, same⟩
  by_cases there : a ∈ F.arguments
  · -- the newcomer is defended inside the part, where nothing is missing
    have defended' : F.Defends S a := same ▸ (part.defends_iff there).2 defended
    have member : a ∈ F.inside E := same.symm ▸ h.2 a there defended'
    exact member.1
  · -- outside the part the newcomer may join, so it has
    have joined : F.inside (insert a E) = S := by
      rw [inside_insert there, same]
    have larger := greatest.le_of_ge ⟨hE.insert ha defended, joined⟩ (Set.subset_insert a E)
    exact larger (Set.mem_insert a E)

/-! ### The three semantics -/

theorem complete_iff : F.Complete S ↔ ∃ E, G.Complete E ∧ F.inside E = S := by
  constructor
  · exact part.exists_complete
  · rintro ⟨E, hE, rfl⟩
    exact part.complete_inside hE

theorem preferred_iff : F.Preferred S ↔ ∃ E, G.Preferred E ∧ F.inside E = S := by
  constructor
  · intro h
    obtain ⟨E, hE, sub⟩ := (part.admissible_of_part h.1).exists_preferred
    have kept : S ⊆ F.inside E := Set.subset_inter sub h.1.1.1
    refine ⟨E, hE, ?_⟩
    by_contra other
    exact h.2 _ (part.admissible_inside hE.1) (kept.ssubset_of_ne (Ne.symm other))
  · rintro ⟨E, hE, rfl⟩
    refine ⟨part.admissible_inside hE.1, fun T hT proper => ?_⟩
    -- a greater set inside the part makes a greater one of the whole
    obtain ⟨a, ha, new⟩ := Set.exists_of_ssubset proper
    have glued := part.admissible_union hT hE.1 proper.subset
    refine hE.2 _ glued ⟨Set.subset_union_right, fun back => new ⟨?_, hT.1.1 a ha⟩⟩
    exact back (.inl ha)

/-- The grounded set of the part is what the one of the whole has inside. -/
theorem lfp_eq : F.characteristic.lfp = F.inside G.characteristic.lfp := by
  refine le_antisymm (lfp_subset_of_complete (part.complete_inside (complete_lfp G))) ?_
  obtain ⟨E, hE, same⟩ := part.exists_complete (complete_lfp F)
  rw [← same]
  exact inside_mono (lfp_subset_of_complete hE)

end Unattacked

/-! ### Families that are cut down -/

/-- No attack of the later framework goes from an argument that the earlier one does not have to one
that it has. -/
def Spares (later earlier : Framework) : Prop :=
  ∀ e ∈ later.attacks, e.attacker ∉ earlier.arguments → e.target ∉ earlier.arguments

/-- The family has what the members of the later family have in common with the arguments of `F`,
and nothing else. -/
def Projects (F : Framework) (family later : List (List String)) : Prop :=
  ∀ D, D ∈ family ↔ ∃ E ∈ later, E.filter F.contains = D

theorem setOf_mem_filter (E : List String) :
    {a | a ∈ E.filter F.contains} = F.inside {a | a ∈ E} := by
  ext a
  simp [mem_inside]

/-- Families project onto each other if the sets that they list do. -/
theorem Enumerates.projects {family later : List (List String)} {P Q : Set String → Prop}
    (h : Enumerates family P) (h' : Enumerates later Q)
    (cut : ∀ S, P S ↔ ∃ E, Q E ∧ F.inside E = S) : F.Projects family later := by
  intro D
  rw [h.mem_iff, cut]
  constructor
  · rintro ⟨rising, S, hS, same⟩
    obtain ⟨E, ⟨hE, rfl⟩, -⟩ := h'.complete S hS
    refine ⟨E, hE, ((h'.sound E hE).1.filter _).eq_of_mem_iff rising fun a => ?_⟩
    rw [← setOf_mem_filter] at same
    exact Set.ext_iff.1 same a
  · rintro ⟨E, hE, rfl⟩
    obtain ⟨rising, hQ⟩ := h'.sound E hE
    exact ⟨rising.filter _, _, hQ, (setOf_mem_filter E).symm⟩

theorem Unattacked.groundedExtension_eq (part : Unattacked F G) :
    F.groundedExtension = G.groundedExtension.filter F.contains := by
  refine (pairwise_lt_groundedExtension F).eq_of_mem_iff
    ((pairwise_lt_groundedExtension G).filter _) fun a => ?_
  rw [List.mem_filter, mem_groundedExtension, mem_groundedExtension, contains_iff, part.lfp_eq]
  rfl

end Framework

open Framework

/-! ### The evolution -/

variable {ds : List Declaration} {given : List Attack} {limit : Int} {p : Plan} {S T : Stage}
  {stages : List Stage} {declarations : List Declared} {attacks : List Attack.Given}

namespace Stage

/-- If nothing that appears later attacks what is there, the earlier framework is an unattacked part
of the later one. -/
theorem Of.unattacked (hS : Of p limit S) (hT : Of p limit T) (made : p.Made ds given limit)
    (le : S.step ≤ T.step) (spared : T.framework.Spares S.framework) :
    Unattacked S.framework T.framework := by
  have front := hS.front hT made le
  refine ⟨fun a ha => front.arguments.subset ha, fun a b => ?_⟩
  rw [front.attacks_iff]
  constructor
  · intro ⟨hab, _, hb⟩
    exact ⟨hab, hb⟩
  · intro ⟨hab, hb⟩
    have ha : a ∈ S.framework.arguments := by
      by_contra new
      exact spared ⟨a, b⟩ hab new hb
    exact ⟨hab, ha, hb⟩

end Stage

/-- **Later arguments that attack nothing earlier change nothing earlier.** The complete, preferred
and grounded extensions of a stage are then what is left of those of a later stage when it is cut
down to the arguments of the earlier one. -/
theorem evolve_projects (h : evolve declarations attacks limit = .ok stages) (hS : S ∈ stages)
    (hT : T ∈ stages) (lt : S.step < T.step) (spared : T.framework.Spares S.framework) :
    S.framework.Projects S.extensions.complete T.extensions.complete ∧
      S.framework.Projects S.extensions.preferred T.extensions.preferred ∧
      ∃ E, T.extensions.grounded = [E] ∧
        S.extensions.grounded = [E.filter S.framework.contains] := by
  obtain ⟨p, planned, staged⟩ := bind_eq_ok_iff.1 h
  obtain ⟨ds, given, -, -, made⟩ := Plan.exists_made planned
  have ofS := (Stage.ofPlan_eq_ok staged).2 S hS
  have ofT := (Stage.ofPlan_eq_ok staged).2 T hT
  have part := ofS.unattacked ofT made lt.le spared
  rw [ofS.extensions_eq made, ofT.extensions_eq made]
  refine ⟨?_, ?_, T.framework.groundedExtension, rfl, ?_⟩
  · exact (enumerates_complete _).projects (enumerates_complete _) fun _ => part.complete_iff
  · exact (enumerates_preferred _).projects (enumerates_preferred _) fun _ => part.preferred_iff
  · show [S.framework.groundedExtension] = _
    rw [part.groundedExtension_eq]

/-- Two arguments in conflict, and two that appear later, in conflict with each other but not with
the first ones, which attack one of them. -/
def onlookers : List Declared :=
  [.resolved (.tagged "c" [.step 3]), .resolved (.tagged "b" [.step 1]), .raw (.text "a"),
    .resolved (.tagged "d" [.step 3])]

/-- The two conflicts, and the attack of `a` on `c`. -/
def quarrels : List Attack.Given :=
  [.raw (.text "cd"), .raw (.text "dc"), .resolved ⟨"a", "b"⟩, .resolved ⟨"b", "a"⟩,
    .raw (.list [.text "a", .text "c"])]

theorem onlookers_projects : ∃ stages, evolve onlookers quarrels 20 = .ok stages ∧
    ∃ S ∈ stages, ∃ T ∈ stages, S.step < T.step ∧ T.framework.Spares S.framework ∧
      S.framework.Projects S.extensions.complete T.extensions.complete ∧
      S.framework.Projects S.extensions.preferred T.extensions.preferred ∧
      ∃ E, T.extensions.grounded = [E] ∧
        S.extensions.grounded = [E.filter S.framework.contains] := by
  have computed : ((evolve onlookers quarrels 20).map
      (·.map fun S => (S.step, S.framework.arguments, S.framework.attacks))).toOption = some
        [(1, ["b", "a"], [⟨"a", "b"⟩, ⟨"b", "a"⟩]),
          (3, ["b", "a", "c", "d"],
            [⟨"c", "d"⟩, ⟨"d", "c"⟩, ⟨"a", "b"⟩, ⟨"b", "a"⟩, ⟨"a", "c"⟩])] := by
    simp only [evolve, Plan.ofDeclared, Plan.ofDeclarations.eq_def, mergeSort_snd, Stage.ofPlan,
      Plan.snapshots, Plan.stepNumbers, canonicalBy_eq_insertionSort]
    decide +kernel
  obtain ⟨stages, evolved, stage⟩ := exists_stages_of_map computed
  obtain ⟨S, hS, earlier⟩ := stage _ (.head _)
  obtain ⟨T, hT, later⟩ := stage _ (.tail _ (.head _))
  simp only [Prod.mk.injEq] at earlier later
  have lt : S.step < T.step := by
    rw [earlier.1, later.1]
    decide
  have spared : T.framework.Spares S.framework := by
    rw [Spares, later.2.2, earlier.2.1]
    decide
  exact ⟨stages, evolved, S, hS, T, hT, lt, spared, evolve_projects evolved hS hT lt spared⟩

end Argumentation
