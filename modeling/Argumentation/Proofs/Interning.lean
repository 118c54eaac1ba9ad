import Argumentation.Proofs.Evolution
import Argumentation.Proofs.Tables

/-!
# Argumentation.Proofs.Interning

All stages share one table of places. The framework of a stage is made anew from the whole one,
whose arguments stand in the order of their declarations, and gives each argument its place again.
The places agree nevertheless, because what is visible at a step is a front part of what is visible
later (`Framework.Front`). So the bit of an argument never changes, and a mask of a stage is the
mask of a later stage with the bits of the newcomers cleared.

The masks are those of the tables that are filled in by a walk over the attacks (`RowAt`). What makes
them fit is that a place below the earlier size belongs to an argument of the earlier framework
(`Front.mem_of_idxOf_lt`): clearing the bits above it drops the newcomers and no one else.
-/

namespace Argumentation

namespace Framework

variable {F G : Framework} {a b : String} {names later : List String}

/-! ### Places -/

theorem position?_eq_idxOf (ha : a ∈ F.arguments) :
    F.position? a = some (F.arguments.idxOf a) :=
  position?_eq_some_iff.2 (List.getElem?_idxOf ha)

theorem rows_idxOf (ha : a ∈ F.arguments) :
    F.rows[F.arguments.idxOf a]? = some ⟨a, F.bit a, F.attackersMask a, F.targetsMask a⟩ := by
  rw [rows, List.getElem?_map, List.getElem?_idxOf ha]
  rfl

/-- The row without the neighbours outside of a mask. -/
def Row.cut (m : Nat) (r : Row) : Row :=
  { r with attackers := r.attackers &&& m, targets := r.targets &&& m }

/-- At place `i` the framework has the row `r`, and its tables have the neighbours of the row. -/
structure RowAt (F : Framework) (i : Nat) (r : Row) : Prop where
  row : F.rows[i]? = some r
  attackers : F.tables.attackers[i]? = some r.attackers
  targets : F.tables.targets[i]? = some r.targets

/-- The tables are filled in by a walk over the attacks, and agree with the rows then. -/
theorem rowAt_of_getElem? {i : Nat} {r : Row} (row : F.rows[i]? = some r) : F.RowAt i r := by
  refine ⟨row, ?_, ?_⟩
  · rw [← Array.getElem?_toList, ← F.tabled.rows_attackers, List.getElem?_map, row]
    rfl
  · rw [← Array.getElem?_toList, ← F.tabled.rows_targets, List.getElem?_map, row]
    rfl

/-! ### Front parts of a framework -/

/-- The arguments of `F` come first in `G`, and its attacks are those of `G` between them. -/
structure Front (F G : Framework) : Prop where
  arguments : F.arguments <+: G.arguments
  attacks_iff : ∀ a b, F.Attacks a b ↔ G.Attacks a b ∧ a ∈ F.arguments ∧ b ∈ F.arguments

namespace Front

variable (front : Front F G)
include front

theorem idxOf_eq (ha : a ∈ F.arguments) : F.arguments.idxOf a = G.arguments.idxOf a := by
  obtain ⟨rest, same⟩ := front.arguments
  rw [← same, List.idxOf_append_of_mem ha]

/-- What has a place below the size of the front part is in the front part. -/
theorem mem_of_idxOf_lt (lt : G.arguments.idxOf a < F.size) : a ∈ F.arguments := by
  obtain ⟨rest, same⟩ := front.arguments
  by_contra new
  rw [← same, List.idxOf_append_of_notMem new] at lt
  exact absurd lt (Nat.not_lt.2 (Nat.le_add_right _ _))

theorem bit_eq (ha : a ∈ F.arguments) : F.bit a = G.bit a := by
  rw [bit, bit, front.idxOf_eq ha]

/-- The mask of some names is the mask of more of them without the bits beyond the front part, if
only newcomers are added. -/
theorem mask_eq (kept : ∀ b, b ∈ names ↔ b ∈ later ∧ b ∈ F.arguments) :
    F.mask names = G.mask later &&& F.fullMask := by
  refine Nat.eq_of_testBit_eq fun i => Bool.eq_iff_iff.2 ?_
  rw [Nat.testBit_and, fullMask_eq, Nat.testBit_two_pow_sub_one, Bool.and_eq_true,
    decide_eq_true_iff, testBit_mask, testBit_mask]
  constructor
  · intro ⟨b, hb, place⟩
    have hb := (kept b).1 hb
    refine ⟨⟨b, hb.1, ?_⟩, ?_⟩
    · rw [← front.idxOf_eq hb.2, place]
    · rw [← place]
      exact idxOf_lt_size hb.2
  · intro ⟨⟨b, hb, place⟩, inside⟩
    have there := front.mem_of_idxOf_lt (place ▸ inside)
    exact ⟨b, (kept b).2 ⟨hb, there⟩, by rw [front.idxOf_eq there, place]⟩

theorem attackersMask_eq (ha : a ∈ F.arguments) :
    F.attackersMask a = G.attackersMask a &&& F.fullMask := by
  refine front.mask_eq fun b => ?_
  rw [mem_attackers, mem_attackers, front.attacks_iff]
  simp [ha]

theorem targetsMask_eq (ha : a ∈ F.arguments) :
    F.targetsMask a = G.targetsMask a &&& F.fullMask := by
  refine front.mask_eq fun b => ?_
  rw [mem_targets, mem_targets, front.attacks_iff]
  simp [ha]

end Front

/-- The argument `a` has the same place in both frameworks, and there the same row and masks, up to
neighbours that only `G` has. -/
def SharesPlace (F G : Framework) (a : String) : Prop :=
  ∃ i r, F.position? a = some i ∧ G.position? a = some i ∧
    G.RowAt i r ∧ r.name = a ∧ F.RowAt i (r.cut F.fullMask)

theorem Front.sharesPlace (front : Front F G) (ha : a ∈ F.arguments) : F.SharesPlace G a := by
  have ha' : a ∈ G.arguments := front.arguments.subset ha
  refine ⟨_, _, ?_, position?_eq_idxOf ha', rowAt_of_getElem? (rows_idxOf ha'), rfl,
    rowAt_of_getElem? ?_⟩
  · rw [position?_eq_idxOf ha, front.idxOf_eq ha]
  · rw [← front.idxOf_eq ha, rows_idxOf ha, Row.cut, front.bit_eq ha, front.attackersMask_eq ha,
      front.targetsMask_eq ha]

end Framework

open Framework

/-! ### The evolution -/

variable {ds : List Declaration} {given : List Attack} {limit : Int} {p : Plan} {S T : Stage}
  {stages : List Stage} {declarations : List Declared} {attacks : List Attack.Given}

/-- What is there at a stage is a front part of what is there later. -/
theorem Stage.Of.front (hS : Of p limit S) (hT : Of p limit T) (made : p.Made ds given limit)
    (le : S.step ≤ T.step) : Front S.framework T.framework := by
  have kept := hS.arguments_prefix_of_le hT made le
  refine ⟨kept, fun a b => ?_⟩
  constructor
  · intro hab
    exact ⟨(hS.attacks_sublist hT made le).subset hab, hab.left_mem, hab.right_mem⟩
  · intro ⟨hab, ha, hb⟩
    have later : ⟨a, b⟩ ∈ T.framework.attacks := hab
    rw [hT.attacks_eq made] at later
    show ⟨a, b⟩ ∈ S.framework.attacks
    rw [hS.attacks_eq made, List.mem_filter]
    exact ⟨(List.mem_filter.1 later).1, by simp [ha, hb]⟩

/-- **All stages share one table of places.** An argument has the same place at every stage at which
it is visible, and its row at a stage is the one of any later stage with the bits of the arguments
that appear in between cleared. -/
theorem evolve_sharesPlaces (h : evolve declarations attacks limit = .ok stages) (hS : S ∈ stages)
    (hT : T ∈ stages) (lt : S.step < T.step) :
    ∀ a ∈ S.framework.arguments, S.framework.SharesPlace T.framework a := by
  obtain ⟨p, planned, staged⟩ := bind_eq_ok_iff.1 h
  obtain ⟨ds, given, -, -, made⟩ := Plan.exists_made planned
  have of := (Stage.ofPlan_eq_ok staged).2
  have front := (of S hS).front (of T hT) made lt.le
  intro a ha
  exact front.sharesPlace ha

theorem untimely_sharesPlaces : ∃ stages, evolve untimely rejoinders 20 = .ok stages ∧
    ∃ S ∈ stages, ∃ T ∈ stages, S.step < T.step ∧
      ∀ a ∈ S.framework.arguments, S.framework.SharesPlace T.framework a := by
  have computed : ((evolve untimely rejoinders 20).map (·.map (·.step))).toOption =
      some [-1, 2] := by
    simp only [evolve, Plan.ofDeclared, Plan.ofDeclarations.eq_def, mergeSort_snd, Stage.ofPlan,
      Plan.snapshots, Plan.stepNumbers, canonicalBy_eq_insertionSort]
    decide +kernel
  obtain ⟨stages, evolved, stage⟩ := exists_stages_of_map computed
  obtain ⟨S, hS, earlier⟩ := stage _ (.head _)
  obtain ⟨T, hT, later⟩ := stage _ (.tail _ (.head _))
  have lt : S.step < T.step := by
    rw [earlier, later]
    decide
  exact ⟨stages, evolved, S, hS, T, hT, lt, evolve_sharesPlaces evolved hS hT lt⟩

end Argumentation
