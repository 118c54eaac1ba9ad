import Argumentation.Extension.Families
import Argumentation.Proofs.Verdict
import Mathlib.Data.Nat.Factorization.Basic
import Mathlib.Tactic.Ring

/-!
# Argumentation.Proofs.Enumeration

The enumeration of all sets of arguments finds every extension, once each and under its semantics.

The walk through the masks `0, 1, 2, …` keeps the invariant `Enumeration.Covers F k`: below `k` the
table says of every mask what its set attacks, and each family has the masks that pass its test. One
visit preserves it (`Covers.visit`) because a mask without its lowest bit is smaller, so that its
entry stands in the table already. The masks below `2 ^ F.size` stand for the sets of arguments one
to one, so the masks that have been found encode exactly the sets of a semantics (`Encodes`), and
their sorted names enumerate them (`Enumerates`).
-/

namespace Argumentation.Framework

variable {F : Framework} {m k i : Nat}

/-! ### The lowest bit -/

/-- A mask that is not zero, taken apart at its lowest bit. -/
theorem exists_lowest_form (hm : m ≠ 0) : ∃ t q, m = 2 ^ (t + 1) * q + 2 ^ t := by
  obtain ⟨t, odd, ⟨q, rfl⟩, rfl⟩ := Nat.exists_eq_two_pow_mul_odd hm
  exact ⟨t, q, by ring⟩

theorem withoutLowest_form (t q : Nat) :
    withoutLowest (2 ^ (t + 1) * q + 2 ^ t) = 2 ^ (t + 1) * q := by
  have half : 2 ^ t < 2 ^ (t + 1) := Nat.pow_lt_pow_right (by decide) (Nat.lt_succ_self t)
  have pos : 0 < 2 ^ t := Nat.two_pow_pos t
  have pred : 2 ^ (t + 1) * q + 2 ^ t - 1 = 2 ^ (t + 1) * q + (2 ^ t - 1) := by omega
  refine Nat.eq_of_testBit_eq fun i => ?_
  rw [withoutLowest, pred, Nat.testBit_and, Nat.testBit_two_pow_mul_add _ half,
    Nat.testBit_two_pow_mul_add _ (by omega), Nat.testBit_two_pow_mul]
  -- up to the lowest bit the two masks have no bit in common, above it they agree
  by_cases low : i < t + 1
  · rw [if_pos low, if_pos low, Nat.testBit_two_pow, Nat.testBit_two_pow_sub_one]
    have apart : ¬ (t = i ∧ i < t) := by omega
    simpa [Nat.not_le.2 low] using fun h => Nat.not_lt.1 fun h' => apart ⟨h, h'⟩
  · rw [if_neg low, if_neg low, Bool.and_self]
    simp [Nat.not_lt.1 low]

theorem lowest_form (t q : Nat) : lowest (2 ^ (t + 1) * q + 2 ^ t) = t := by
  have half : 2 ^ t < 2 ^ (t + 1) := Nat.pow_lt_pow_right (by decide) (Nat.lt_succ_self t)
  have alone : (2 ^ (t + 1) * q + 2 ^ t) ^^^ 2 ^ (t + 1) * q = 2 ^ t := by
    refine Nat.eq_of_testBit_eq fun i => ?_
    rw [Nat.testBit_xor, Nat.testBit_two_pow_mul_add _ half, Nat.testBit_two_pow_mul]
    by_cases low : i < t + 1
    · simp [low, Nat.not_le.2 low]
    · have above : t ≠ i := by omega
      simp [low, Nat.not_lt.1 low, above]
  rw [lowest, withoutLowest_form, alone, Nat.log2_two_pow]

theorem withoutLowest_lt (hm : m ≠ 0) : withoutLowest m < m := by
  obtain ⟨t, q, rfl⟩ := exists_lowest_form hm
  rw [withoutLowest_form]
  exact Nat.lt_add_of_pos_right (Nat.two_pow_pos t)

/-- A bit of a mask is its lowest one, or it is left when that one is taken away. -/
theorem testBit_iff_lowest (hm : m ≠ 0) :
    m.testBit i = true ↔ i = lowest m ∨ (withoutLowest m).testBit i = true := by
  obtain ⟨t, q, rfl⟩ := exists_lowest_form hm
  have half : 2 ^ t < 2 ^ (t + 1) := Nat.pow_lt_pow_right (by decide) (Nat.lt_succ_self t)
  rw [withoutLowest_form, lowest_form, Nat.testBit_two_pow_mul_add _ half, Nat.testBit_two_pow_mul]
  by_cases low : i < t + 1
  · simp [low, Nat.not_le.2 low, Nat.testBit_two_pow, eq_comm]
  · have above : i ≠ t := by omega
    simp [low, Nat.not_lt.1 low, above]

/-- A set that is not empty is the set without its lowest member, and that member. -/
theorem exists_members_eq_insert (hm : m ≠ 0) (small : m < 2 ^ F.size) :
    ∃ a ∈ F.arguments, F.arguments.idxOf a = lowest m ∧
      F.members m = insert a (F.members (withoutLowest m)) := by
  have set : m.testBit (lowest m) = true := (testBit_iff_lowest hm).2 (.inl rfl)
  have inside : lowest m < F.size := by
    by_contra out
    rw [testBit_eq_false_of_size_le small (not_lt.1 out)] at set
    exact Bool.false_ne_true set
  obtain ⟨a, ha, place⟩ := exists_idxOf_eq inside
  refine ⟨a, ha, place, Set.ext fun b => ?_⟩
  rw [Set.mem_insert_iff, mem_members, mem_members, testBit_iff_lowest hm, ← place]
  constructor
  · rintro ⟨hb, same | set⟩
    · exact .inl ((List.idxOf_inj hb).1 same)
    · exact .inr ⟨hb, set⟩
  · rintro (rfl | ⟨hb, set⟩)
    · exact ⟨ha, .inl rfl⟩
    · exact ⟨hb, .inr set⟩

/-! ### What a set attacks, from the table -/

/-- The masks of the targets, each at the place of its argument. -/
theorem getD_targets {a : String} (ha : a ∈ F.arguments) :
    (F.rows.map (·.targets)).toArray.getD (F.arguments.idxOf a) 0 = F.targetsMask a := by
  have entry : (F.rows.map (·.targets))[F.arguments.idxOf a]? = some (F.targetsMask a) := by
    rw [rows, List.map_map, List.getElem?_map, List.getElem?_idxOf ha]
    rfl
  rw [Array.getD_eq_getD_getElem?, List.getElem?_toArray, entry]
  rfl

theorem attackedBy_zero : attackedBy F.rows 0 = 0 := by
  refine eq_of_members_eq attackedBy_lt (Nat.two_pow_pos _) ?_
  ext b
  simp

/-- What a set attacks is what the set without its lowest member attacks, and the targets of that
member. -/
theorem attackedBy_eq_or (hm : m ≠ 0) (small : m < 2 ^ F.size) :
    attackedBy F.rows m = attackedBy F.rows (withoutLowest m) |||
      (F.rows.map (·.targets)).toArray.getD (lowest m) 0 := by
  obtain ⟨a, ha, place, split⟩ := exists_members_eq_insert hm small
  rw [← place, getD_targets ha]
  refine eq_of_members_eq attackedBy_lt (Nat.or_lt_two_pow attackedBy_lt targetsMask_lt) ?_
  ext b
  rw [members_or, Set.mem_union, mem_members_attackedBy, mem_members_attackedBy,
    mem_members_targetsMask, split]
  simp [or_comm]

/-! ### The walk through the masks -/

/-- All masks below `k` have been visited. -/
structure Enumeration.Covers (F : Framework) (k : Nat) (e : Enumeration) : Prop where
  /-- The table says what each visited set attacks. -/
  attacked : e.attacked.toList = (List.range k).map (attackedBy F.rows)
  conflictFree : e.conflictFree.toList =
    (List.range k).filter fun m => isConflictFree m (attackedBy F.rows m)
  admissible : e.admissible.toList =
    (List.range k).filter fun m => isAdmissible F.rows m (attackedBy F.rows m)
  complete : e.complete.toList =
    (List.range k).filter fun m => isComplete F.rows m (attackedBy F.rows m)
  stable : e.stable.toList =
    (List.range k).filter fun m => isStable F.fullMask m (attackedBy F.rows m)

namespace Enumeration

/-- What one visit adds to the table and to each family, in terms of the tests on the mask. A set
that has exactly what it defends is within it, so the nested tests say the same as the four tests
apart. -/
theorem visit_toList (rows : List Row) {targets : Array Nat} (full : Nat) {e : Enumeration}
    {hit : Nat} (h : e.hitOf targets m = hit) :
    let e' := e.visit rows targets full m
    e'.attacked.toList = e.attacked.toList ++ [hit] ∧
    e'.conflictFree.toList = e.conflictFree.toList ++ (bif isConflictFree m hit then [m] else []) ∧
    e'.admissible.toList = e.admissible.toList ++ (bif isAdmissible rows m hit then [m] else []) ∧
    e'.complete.toList = e.complete.toList ++ (bif isComplete rows m hit then [m] else []) ∧
    e'.stable.toList = e.stable.toList ++ (bif isStable full m hit then [m] else []) := by
  -- the cases are the ways through the visit, which asks one test inside the other
  by_cases free : isConflictFree m hit = true
  · by_cases safe : within m (defendedBy rows hit) = true
    · by_cases exact_ : (defendedBy rows hit == m) = true
      · by_cases all : (m ||| hit == full) = true <;>
          simp [visit, h, isAdmissible, isComplete, isStable, free, safe, exact_, all]
      · by_cases all : (m ||| hit == full) = true <;>
          simp [visit, h, isAdmissible, isComplete, isStable, free, safe, exact_, all]
    · -- a set that is not safe is not even looked at as a complete one
      have unequal : ¬ (defendedBy rows hit == m) = true := by
        intro same
        rw [beq_iff_eq.1 same] at safe
        exact safe (within_refl m)
      by_cases all : (m ||| hit == full) = true <;>
        simp [visit, h, isAdmissible, isComplete, isStable, free, safe, unequal, all]
  · simp [visit, h, isAdmissible, isComplete, isStable, free]

theorem Covers.start (F : Framework) : Covers F 0 start :=
  ⟨rfl, rfl, rfl, rfl, rfl⟩

/-- What the next set attacks is read off the table. -/
theorem Covers.hitOf_eq {e : Enumeration} (h : Covers F k e) (small : k < 2 ^ F.size) :
    e.hitOf (F.rows.map (·.targets)).toArray k = attackedBy F.rows k := by
  by_cases zero : k = 0
  · rw [hitOf, if_pos zero, zero, attackedBy_zero]
  · have entry : e.attacked.getD (withoutLowest k) 0 = attackedBy F.rows (withoutLowest k) := by
      rw [Array.getD_eq_getD_getElem?, ← Array.getElem?_toList, h.attacked, List.getElem?_map,
        List.getElem?_range (withoutLowest_lt zero)]
      rfl
    rw [hitOf, if_neg zero, entry, attackedBy_eq_or zero small]

/-- One visit adds the next mask to the table and to the families whose test it passes. -/
theorem Covers.visit {e : Enumeration} (h : Covers F k e) (small : k < 2 ^ F.size) :
    Covers F (k + 1) (e.visit F.rows (F.rows.map (·.targets)).toArray F.fullMask k) := by
  obtain ⟨attacked, conflictFree, admissible, complete, stable⟩ :=
    visit_toList F.rows F.fullMask (h.hitOf_eq small)
  constructor
  · rw [attacked, h.attacked, List.range_succ, List.map_append, List.map_singleton]
  · rw [conflictFree, h.conflictFree, List.range_succ, List.filter_append, List.filter_singleton]
  · rw [admissible, h.admissible, List.range_succ, List.filter_append, List.filter_singleton]
  · rw [complete, h.complete, List.range_succ, List.filter_append, List.filter_singleton]
  · rw [stable, h.stable, List.range_succ, List.filter_append, List.filter_singleton]

/-- The walk covers every mask that it has come to. -/
theorem covers_foldl (hk : k ≤ 2 ^ F.size) :
    Covers F k ((List.range k).foldl
      (visit F.rows (F.rows.map (·.targets)).toArray F.fullMask) Enumeration.start) := by
  induction k with
  | zero => exact Covers.start F
  | succ k ih =>
      rw [List.range_succ, List.foldl_append]
      exact (ih (Nat.le_of_succ_le hk)).visit hk

end Enumeration

/-- The enumeration covers all masks that stand for sets of arguments. -/
theorem covers_enumeration (F : Framework) : Enumeration.Covers F (2 ^ F.size) F.enumeration := by
  rw [enumeration, Nat.one_shiftLeft]
  exact Enumeration.covers_foldl le_rfl

/-! ### The masks of a family -/

/-- The masks stand for the sets with the property `P`, each for one of them. -/
structure Encodes (F : Framework) (masks : Array Nat) (P : Set String → Prop) : Prop where
  nodup : masks.toList.Nodup
  mem_iff : ∀ m, m ∈ masks.toList ↔ m < 2 ^ F.size ∧ P (F.members m)

theorem encodes_of_filter {masks : Array Nat} {test : Nat → Bool} {P : Set String → Prop}
    (h : masks.toList = (List.range (2 ^ F.size)).filter test)
    (test_iff : ∀ m < 2 ^ F.size, (test m = true ↔ P (F.members m))) : Encodes F masks P := by
  refine ⟨?_, fun m => ?_⟩
  · rw [h]
    exact List.nodup_range.filter test
  · rw [h, List.mem_filter, List.mem_range]
    exact and_congr_right (test_iff m)

theorem encodes_conflictFree (F : Framework) :
    Encodes F F.enumeration.conflictFree F.ConflictFree :=
  encodes_of_filter (covers_enumeration F).conflictFree fun _ => isConflictFree_iff

theorem encodes_admissible (F : Framework) : Encodes F F.enumeration.admissible F.Admissible :=
  encodes_of_filter (covers_enumeration F).admissible fun _ => isAdmissible_iff

theorem encodes_complete (F : Framework) : Encodes F F.enumeration.complete F.Complete :=
  encodes_of_filter (covers_enumeration F).complete fun _ => isComplete_iff

theorem encodes_stable (F : Framework) : Encodes F F.enumeration.stable F.Stable :=
  encodes_of_filter (covers_enumeration F).stable fun _ => isStable_iff

/-- Masks that are in no other mask of a list stand for the maximal sets with its property. -/
theorem Encodes.maximal {masks : Array Nat} {P : Set String → Prop} (h : Encodes F masks P)
    (sub : ∀ S, P S → ∀ a ∈ S, a ∈ F.arguments) :
    Encodes F (maximal masks) fun S => P S ∧ ∀ T, P T → ¬ S ⊂ T := by
  refine ⟨?_, fun m => ?_⟩
  · rw [Framework.maximal, Array.toList_filter]
    exact h.nodup.filter _
  rw [Framework.maximal, Array.toList_filter, List.mem_filter, h.mem_iff, and_assoc]
  refine and_congr_right fun small => and_congr_right fun _ => ?_
  simp only [Bool.not_eq_true', ← Bool.not_eq_true, Array.any_eq_true', Bool.and_eq_true,
    bne_iff_ne, not_exists, not_and]
  constructor
  · -- a greater set has a mask of its own, which the filter has compared
    intro alone T hT proper
    obtain ⟨n, hn, rfl⟩ := exists_mask (sub T hT)
    have listed : n ∈ masks := Array.mem_toList_iff.1 ((h.mem_iff n).2 ⟨hn, hT⟩)
    refine alone n listed ?_ ((within_iff_members_subset small).2 proper.subset)
    rintro rfl
    exact proper.ne rfl
  · intro alone n listed apart inside
    obtain ⟨hn, hP⟩ := (h.mem_iff n).1 (Array.mem_toList_iff.2 listed)
    have subset := (within_iff_members_subset small).1 inside
    exact alone _ hP (subset.ssubset_of_ne fun same => apart (eq_of_members_eq small hn same))

theorem encodes_preferred (F : Framework) :
    Encodes F (maximal F.enumeration.admissible) F.Preferred :=
  (encodes_admissible F).maximal fun _ h => h.1.1

/-! ### The families of names -/

/-- The family has exactly the sets with the property `P`. -/
structure Enumerates (family : List (List String)) (P : Set String → Prop) : Prop where
  /-- Its members are written in strictly rising order and have the property. -/
  sound : ∀ E ∈ family, E.Pairwise (· < ·) ∧ P {a | a ∈ E}
  /-- Each set with the property is there in one written form. -/
  complete : ∀ S, P S → ∃! E, E ∈ family ∧ {a | a ∈ E} = S
  /-- It rises strictly in the lexicographic order, so nothing is listed twice. -/
  rising : family.Pairwise (List.Lex (· < ·))

namespace Enumerates

variable {family family' : List (List String)} {P Q : Set String → Prop}

theorem mem_iff (h : Enumerates family P) {E : List String} :
    E ∈ family ↔ E.Pairwise (· < ·) ∧ P {a | a ∈ E} := by
  refine ⟨h.sound E, fun ⟨rising, hE⟩ => ?_⟩
  obtain ⟨E', ⟨listed, same⟩, -⟩ := h.complete _ hE
  have eq : E' = E := (h.sound E' listed).1.eq_of_mem_iff rising fun a => Set.ext_iff.1 same a
  rwa [← eq]

/-- A family whose property is stronger is a part of the other one. -/
theorem subset (h : Enumerates family P) (h' : Enumerates family' Q) (stronger : ∀ S, P S → Q S) :
    family ⊆ family' := by
  intro E hE
  have ⟨rising, hP⟩ := h.mem_iff.1 hE
  exact h'.mem_iff.2 ⟨rising, stronger _ hP⟩

/-- A family is not empty if a set has its property. -/
theorem ne_nil (h : Enumerates family P) {S : Set String} (hS : P S) : family ≠ [] := by
  obtain ⟨E, ⟨listed, -⟩, -⟩ := h.complete S hS
  exact List.ne_nil_of_mem listed

/-- If no set with the property is a proper part of another one, no member of the family is. -/
theorem eq_of_subset (h : Enumerates family P) (maximal : ∀ S T, P S → P T → ¬ S ⊂ T)
    {E E' : List String} (hE : E ∈ family) (hE' : E' ∈ family) (sub : E ⊆ E') : E = E' := by
  have ⟨rising, hP⟩ := h.mem_iff.1 hE
  have ⟨rising', hP'⟩ := h.mem_iff.1 hE'
  refine rising.eq_of_mem_iff rising' fun a => ⟨fun ha => sub ha, fun ha => ?_⟩
  by_contra out
  exact maximal _ _ hP hP' ⟨fun _ hb => sub hb, fun back => out (back ha)⟩

end Enumerates

/-- A family is sorted by insertion. -/
theorem named_eq_insertionSort (masks : Array Nat) : F.named masks =
    (masks.toList.map fun (m : Nat) => F.namesOf m).insertionSort
      fun xs ys => notAfter xs ys = true :=
  mergeSort_eq_insertionSort notAfter_trans notAfter_total _

theorem mem_named {masks : Array Nat} {E : List String} :
    E ∈ F.named masks ↔ ∃ m ∈ masks.toList, F.namesOf (m : Nat) = E := by
  rw [named, List.mem_mergeSort, List.mem_map]

theorem Encodes.enumerates {masks : Array Nat} {P : Set String → Prop} (h : Encodes F masks P)
    (sub : ∀ S, P S → ∀ a ∈ S, a ∈ F.arguments) : Enumerates (F.named masks) P := by
  have sound : ∀ E ∈ F.named masks, E.Pairwise (· < ·) ∧ P {a | a ∈ E} := by
    intro E hE
    obtain ⟨m, hm, rfl⟩ := mem_named.1 hE
    obtain ⟨rising, same⟩ := eq_namesOf_iff.1 (Eq.refl (F.namesOf m))
    rw [same]
    exact ⟨rising, ((h.mem_iff m).1 hm).2⟩
  refine ⟨sound, fun S hS => ?_, ?_⟩
  · obtain ⟨m, small, rfl⟩ := exists_mask (sub S hS)
    have listed : F.namesOf m ∈ F.named masks := mem_named.2 ⟨m, (h.mem_iff m).2 ⟨small, hS⟩, rfl⟩
    refine ⟨F.namesOf m, ⟨listed, (eq_namesOf_iff.1 rfl).2⟩, fun E hE => ?_⟩
    exact eq_namesOf_iff.2 ⟨(sound E hE.1).1, hE.2⟩
  · refine pairwise_lex_mergeSort (h.nodup.map_on fun m hm n hn same => ?_)
    exact (namesOf_inj ((h.mem_iff m).1 hm).1 ((h.mem_iff n).1 hn).1).1 same

theorem enumerates_conflictFree (F : Framework) :
    Enumerates F.families.conflictFree F.ConflictFree :=
  (encodes_conflictFree F).enumerates fun _ h => h.1

theorem enumerates_admissible (F : Framework) : Enumerates F.families.admissible F.Admissible :=
  (encodes_admissible F).enumerates fun _ h => h.1.1

theorem enumerates_complete (F : Framework) : Enumerates F.families.complete F.Complete :=
  (encodes_complete F).enumerates fun _ h => h.1.1.1

theorem enumerates_stable (F : Framework) : Enumerates F.families.stable F.Stable :=
  (encodes_stable F).enumerates fun _ h => h.1.1

theorem enumerates_preferred (F : Framework) : Enumerates F.families.preferred F.Preferred :=
  (encodes_preferred F).enumerates fun _ h => h.1.1.1

/-- **The enumeration is exact.** Within the limit, each family has the sets of its semantics and no
others, every one of them once. -/
theorem extensions_enumerate {limit : Int} (h : F.size ≤ limit) :
    ∃ f, F.extensions limit = .ok f ∧
      Enumerates f.conflictFree F.ConflictFree ∧ Enumerates f.admissible F.Admissible ∧
      Enumerates f.complete F.Complete ∧ Enumerates f.stable F.Stable ∧
      Enumerates f.preferred F.Preferred :=
  ⟨F.families, extensions_eq_ok h, enumerates_conflictFree F, enumerates_admissible F,
    enumerates_complete F, enumerates_stable F, enumerates_preferred F⟩

theorem quarrel_enumerated : (quarrel.size : Int) ≤ defaultLimit ∧
    ∃ f, quarrel.extensions defaultLimit = .ok f ∧
      Enumerates f.conflictFree quarrel.ConflictFree ∧
      Enumerates f.admissible quarrel.Admissible ∧ Enumerates f.complete quarrel.Complete ∧
      Enumerates f.stable quarrel.Stable ∧ Enumerates f.preferred quarrel.Preferred :=
  ⟨by decide, extensions_enumerate (by decide)⟩

end Argumentation.Framework
