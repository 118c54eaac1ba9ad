import Argumentation.Proofs.Mask

/-!
# Argumentation.Proofs.Verdict

What is decided on the mask of a set agrees with the semantics of the set. The masks of what a set
attacks and of what it defends name exactly these arguments, whatever the set is; with them each
test on masks is its semantics, for every mask within bounds.
-/

namespace Argumentation.Framework

variable {F : Framework} {m hit i : Nat} {a b : String}

/-! ### What a set attacks -/

/-- The walk over the rows collects the targets of the rows whose bit is set. -/
theorem testBit_attackedBy {rows : List Row} :
    (attackedBy rows m).testBit i = true ↔
      ∃ r ∈ rows, within r.bit m = true ∧ r.targets.testBit i = true := by
  rw [attackedBy, testBit_foldl_or, Nat.zero_testBit]
  simp

/-- The mask of what a set attacks names the arguments that a member attacks. -/
@[simp] theorem mem_members_attackedBy :
    b ∈ F.members (attackedBy F.rows m) ↔ ∃ a ∈ F.members m, F.Attacks a b := by
  rw [mem_members, testBit_attackedBy]
  constructor
  · rintro ⟨hb, r, hr, hin, hit⟩
    obtain ⟨a, ha, rfl⟩ := mem_rows.1 hr
    exact ⟨a, (within_bit_iff ha).1 hin, mem_members_targetsMask.1 ⟨hb, hit⟩⟩
  · rintro ⟨a, ha, hab⟩
    have target := mem_members_targetsMask.2 hab
    exact ⟨target.1, _, mem_rows.2 ⟨a, ha.1, rfl⟩, (within_bit_iff ha.1).2 ha, target.2⟩

/-- Nothing but arguments is attacked, so no bit is set beyond them. -/
theorem attackedBy_lt : attackedBy F.rows m < 2 ^ F.size := by
  refine lt_two_pow_size_of_members fun i hi => ?_
  obtain ⟨r, hr, -, hit⟩ := testBit_attackedBy.1 hi
  obtain ⟨a, -, rfl⟩ := mem_rows.1 hr
  by_contra out
  rw [testBit_eq_false_of_size_le targetsMask_lt (not_lt.1 out)] at hit
  exact Bool.false_ne_true hit

/-! ### What a set defends -/

/-- The walk over the rows collects the rows all of whose attackers have been hit. -/
theorem testBit_defendedBy {rows : List Row} :
    (defendedBy rows hit).testBit i = true ↔
      ∃ r ∈ rows, within r.attackers hit = true ∧ r.bit.testBit i = true := by
  rw [defendedBy, testBit_foldl_or, Nat.zero_testBit]
  simp

/-- All attackers of an argument are in a set. -/
theorem within_attackersMask_iff :
    within (F.attackersMask a) hit = true ↔ ∀ b, F.Attacks b a → b ∈ F.members hit := by
  rw [within_iff_members_subset attackersMask_lt]
  exact forall_congr' fun b => by rw [mem_members_attackersMask]

/-- The mask of what is safe names the arguments whose attackers have all been hit. -/
theorem mem_members_defendedBy :
    a ∈ F.members (defendedBy F.rows hit) ↔
      a ∈ F.arguments ∧ ∀ b, F.Attacks b a → b ∈ F.members hit := by
  rw [mem_members, testBit_defendedBy, ← within_attackersMask_iff]
  refine and_congr_right fun ha => ?_
  constructor
  · rintro ⟨r, hr, safe, here⟩
    obtain ⟨b, hb, rfl⟩ := mem_rows.1 hr
    rwa [← (List.idxOf_inj hb).1 (testBit_bit.1 here)]
  · exact fun safe => ⟨_, mem_rows.2 ⟨a, ha, rfl⟩, safe, testBit_bit.2 rfl⟩

theorem defendedBy_lt : defendedBy F.rows hit < 2 ^ F.size := by
  refine lt_two_pow_size_of_members fun i hi => ?_
  obtain ⟨r, hr, -, here⟩ := testBit_defendedBy.1 hi
  obtain ⟨a, ha, rfl⟩ := mem_rows.1 hr
  rw [← testBit_bit.1 here]
  exact idxOf_lt_size ha

/-- Two walks over the rows, one for what a set attacks and one for what that defends, make the
characteristic function. -/
theorem members_defendedBy_attackedBy :
    F.members (defendedBy F.rows (attackedBy F.rows m)) = F.characteristic (F.members m) := by
  ext a
  rw [mem_members_defendedBy]
  simp only [mem_members_attackedBy]
  rfl

/-! ### The tests on masks -/

/-- A set is free of conflicts if its mask has no bit in common with that of what it attacks. -/
theorem isConflictFree_iff (hm : m < 2 ^ F.size) :
    isConflictFree m (attackedBy F.rows m) = true ↔ F.ConflictFree (F.members m) := by
  rw [isConflictFree, beq_iff_eq, and_eq_zero_iff hm]
  constructor
  · exact fun h => ⟨fun a ha => ha.1, fun a ha b hb hab =>
      h b hb (mem_members_attackedBy.2 ⟨a, ha, hab⟩)⟩
  · rintro ⟨-, free⟩ b hb hit
    obtain ⟨a, ha, hab⟩ := mem_members_attackedBy.1 hit
    exact free a ha b hb hab

/-- A set lies in what it defends if it defends its members. -/
theorem within_defendedBy_iff (hm : m < 2 ^ F.size) :
    within m (defendedBy F.rows (attackedBy F.rows m)) = true ↔
      ∀ a ∈ F.members m, F.Defends (F.members m) a := by
  rw [within_iff_members_subset hm, members_defendedBy_attackedBy]
  exact ⟨fun h a ha => (h ha).2, fun h a ha => ⟨ha.1, h a ha⟩⟩

theorem isAdmissible_iff (hm : m < 2 ^ F.size) :
    isAdmissible F.rows m (attackedBy F.rows m) = true ↔ F.Admissible (F.members m) := by
  rw [isAdmissible, Bool.and_eq_true, isConflictFree_iff hm, within_defendedBy_iff hm]
  rfl

/-- The test asks for a fixed point of the characteristic function, and the definition for the two
halves of one. -/
theorem isComplete_iff (hm : m < 2 ^ F.size) :
    isComplete F.rows m (attackedBy F.rows m) = true ↔ F.Complete (F.members m) := by
  rw [isComplete, Bool.and_eq_true, isConflictFree_iff hm, beq_iff_eq,
    ← members_eq_iff defendedBy_lt hm, members_defendedBy_attackedBy]
  constructor
  · exact fun h => complete_of_characteristic_eq h.1 h.2
  · exact fun h => ⟨h.1.1, h.characteristic_eq⟩

/-- Of a stable set, its members and what they attack are all arguments together. -/
theorem isStable_iff (hm : m < 2 ^ F.size) :
    isStable F.fullMask m (attackedBy F.rows m) = true ↔ F.Stable (F.members m) := by
  rw [isStable, Bool.and_eq_true, isConflictFree_iff hm, beq_iff_eq,
    ← members_eq_iff (Nat.or_lt_two_pow hm attackedBy_lt) fullMask_lt, members_or,
    members_fullMask]
  refine and_congr_right fun _ => ?_
  constructor
  · intro h b hb out
    have covered : b ∈ F.members m ∪ F.members (attackedBy F.rows m) := by
      rw [h]
      exact hb
    exact mem_members_attackedBy.1 (covered.resolve_left out)
  · intro h
    refine Set.Subset.antisymm ?_ fun b hb => ?_
    · rintro b (hb | hb)
      · exact hb.1
      · exact hb.1
    · by_cases hin : b ∈ F.members m
      · exact .inl hin
      · exact .inr (mem_members_attackedBy.2 (h b hb hin))

end Argumentation.Framework
