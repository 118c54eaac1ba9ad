import Argumentation.Framework.Mask
import Argumentation.Proofs.Acceptance
import Argumentation.Proofs.Canonical
import Argumentation.Extension.Semantics

/-!
# Argumentation.Proofs.Mask

The correspondence between masks and sets of arguments. `Framework.members` reads a mask as a set of
arguments; below `2 ^ F.size` two masks with the same members are the same (`eq_of_members_eq`), and
every set of arguments has such a mask (`exists_mask`). Union, inclusion and disjointness of sets
are `|||`, `within` and `&&&` on their masks, and the masks of neighbours in the rows name exactly
the attackers and the targets.
-/

namespace Argumentation.Framework

variable {F : Framework} {m n i : Nat} {a b : String}

/-! ### Members of a mask -/

/-- The arguments whose bits are set. -/
def members (F : Framework) (m : Nat) : Set String :=
  {a | a ∈ F.arguments ∧ m.testBit (F.arguments.idxOf a) = true}

theorem mem_members :
    a ∈ F.members m ↔ a ∈ F.arguments ∧ m.testBit (F.arguments.idxOf a) = true := Iff.rfl

/-- The place of an argument is below the size. -/
theorem idxOf_lt_size (ha : a ∈ F.arguments) : F.arguments.idxOf a < F.size :=
  List.idxOf_lt_length_of_mem ha

/-- Every place below the size is the place of an argument. -/
theorem exists_idxOf_eq (hi : i < F.size) : ∃ a ∈ F.arguments, F.arguments.idxOf a = i :=
  ⟨F.arguments[i], List.getElem_mem hi, F.nodup.idxOf_getElem i hi⟩

/-- The place of an argument is the one at which it is listed. -/
theorem position?_eq_some_iff : F.position? a = some i ↔ F.arguments[i]? = some a := by
  rw [position?, List.idxOf?_eq_some_iff, List.getElem?_eq_some_iff]
  constructor
  · intro h
    obtain ⟨hi, here, -⟩ := h
    exact ⟨hi, here⟩
  · intro h
    obtain ⟨hi, rfl⟩ := h
    refine ⟨hi, rfl, fun j hj same => ?_⟩
    exact absurd ((F.nodup.getElem_inj_iff).1 same) hj.ne

theorem testBit_eq_false_of_size_le (hm : m < 2 ^ F.size) (hi : F.size ≤ i) :
    m.testBit i = false :=
  Nat.testBit_lt_two_pow (lt_of_lt_of_le hm (Nat.pow_le_pow_right (by decide) hi))

/-- A property of the bits of a mask within bounds is one of its members. -/
theorem forall_testBit_iff (hm : m < 2 ^ F.size) {p : Nat → Prop} :
    (∀ i, m.testBit i = true → p i) ↔ ∀ a ∈ F.members m, p (F.arguments.idxOf a) := by
  constructor
  · exact fun h a ha => h _ ha.2
  · intro h i hi
    -- no bit beyond the size is set, so a bit that is set stands for an argument
    have inside : i < F.size := by
      by_contra out
      rw [testBit_eq_false_of_size_le hm (not_lt.1 out)] at hi
      exact Bool.false_ne_true hi
    obtain ⟨a, ha, rfl⟩ := exists_idxOf_eq inside
    exact h a ⟨ha, hi⟩

/-- Inclusion of sets is inclusion of their masks. -/
theorem within_iff_members_subset (hm : m < 2 ^ F.size) :
    within m n = true ↔ F.members m ⊆ F.members n := by
  rw [within_iff, forall_testBit_iff hm]
  exact ⟨fun h a ha => ⟨ha.1, h a ha⟩, fun h a ha => (h ha).2⟩

theorem eq_of_members_eq (hm : m < 2 ^ F.size) (hn : n < 2 ^ F.size)
    (h : F.members m = F.members n) : m = n := by
  have hmn := (within_iff_members_subset hm).2 h.subset
  have hnm := (within_iff_members_subset hn).2 h.superset
  exact within_antisymm hmn hnm

theorem members_eq_iff (hm : m < 2 ^ F.size) (hn : n < 2 ^ F.size) :
    F.members m = F.members n ↔ m = n :=
  ⟨eq_of_members_eq hm hn, congrArg F.members⟩

@[simp] theorem members_zero : F.members 0 = ∅ := by
  ext a
  simp [mem_members]

@[simp] theorem members_or : F.members (m ||| n) = F.members m ∪ F.members n := by
  ext a
  simp only [mem_members, Set.mem_union, Nat.testBit_or, Bool.or_eq_true]
  exact and_or_left

/-- Sets without a common member are masks without a common bit. -/
theorem and_eq_zero_iff (hm : m < 2 ^ F.size) :
    m &&& n = 0 ↔ ∀ a ∈ F.members m, a ∉ F.members n := by
  have bits : m &&& n = 0 ↔ ∀ i, m.testBit i = true → n.testBit i = false := by
    constructor
    · intro h i hi
      have := congrArg (·.testBit i) h
      simpa [Nat.testBit_and, hi] using this
    · intro h
      refine Nat.eq_of_testBit_eq fun i => ?_
      rw [Nat.testBit_and, Nat.zero_testBit]
      cases hi : m.testBit i with
      | false => rfl
      | true => rw [h i hi]; rfl
  rw [bits, forall_testBit_iff hm]
  refine forall₂_congr fun a ha => ?_
  simp [mem_members, ha.1]

theorem lt_two_pow_size_of_members (h : ∀ i, m.testBit i = true → i < F.size) :
    m < 2 ^ F.size := by
  refine Nat.lt_pow_two_of_testBit m fun i hi => ?_
  by_contra set
  exact absurd (h i (by simpa using set)) (not_lt.2 hi)

/-! ### The mask of all arguments -/

theorem fullMask_eq : F.fullMask = 2 ^ F.size - 1 := by
  rw [fullMask, Nat.one_shiftLeft]

theorem fullMask_lt : F.fullMask < 2 ^ F.size := by
  rw [fullMask_eq]
  exact Nat.sub_lt (Nat.two_pow_pos _) Nat.one_pos

@[simp] theorem members_fullMask : F.members F.fullMask = {a | a ∈ F.arguments} := by
  ext a
  rw [mem_members, fullMask_eq, Nat.testBit_two_pow_sub_one]
  simpa using fun ha => idxOf_lt_size ha

/-! ### Masks of names -/

/-- A walk that joins the masks of some members of a list: a bit of the result comes from the start
or from one of these masks. -/
theorem testBit_foldl_or {α : Type} {p : α → Bool} {f : α → Nat} {xs : List α} {s : Nat} :
    (xs.foldl (fun m x => if p x then m ||| f x else m) s).testBit i = true ↔
      s.testBit i = true ∨ ∃ x ∈ xs, p x = true ∧ (f x).testBit i = true := by
  induction xs generalizing s with
  | nil => simp
  | cons x xs ih =>
      rw [List.foldl_cons, ih]
      by_cases hx : p x = true
      · simp [hx, or_assoc]
      · simp [hx]

theorem testBit_bit : (F.bit a).testBit i = true ↔ F.arguments.idxOf a = i := by
  rw [bit, Nat.one_shiftLeft, Nat.testBit_two_pow, decide_eq_true_iff]

/-- A bit that is set is an argument that is a member. -/
theorem within_bit_iff (ha : a ∈ F.arguments) : within (F.bit a) m = true ↔ a ∈ F.members m := by
  rw [within_iff, mem_members]
  constructor
  · exact fun h => ⟨ha, h _ (testBit_bit.2 rfl)⟩
  · intro h i hi
    rw [← testBit_bit.1 hi]
    exact h.2

theorem bit_lt (ha : a ∈ F.arguments) : F.bit a < 2 ^ F.size := by
  rw [bit, Nat.one_shiftLeft]
  exact Nat.pow_lt_pow_right (by decide) (idxOf_lt_size ha)

/-- Setting the bit of an argument makes it a member. -/
theorem members_or_bit (ha : a ∈ F.arguments) :
    F.members (m ||| F.bit a) = insert a (F.members m) := by
  ext b
  rw [members_or, Set.mem_union, Set.mem_insert_iff, mem_members (m := F.bit a), testBit_bit,
    or_comm]
  refine or_congr_left ⟨fun h => ((List.idxOf_inj ha).1 h.2).symm, ?_⟩
  rintro rfl
  exact ⟨ha, rfl⟩

theorem testBit_mask {names : List String} :
    (F.mask names).testBit i = true ↔ ∃ a ∈ names, F.arguments.idxOf a = i := by
  have walk : (names.foldl (fun m a => if true then m ||| F.bit a else m) 0).testBit i = true ↔ _ :=
    testBit_foldl_or
  simpa [mask, testBit_bit] using walk

theorem mask_cons (F : Framework) (a : String) (names : List String) :
    F.mask (a :: names) = F.bit a ||| F.mask names := by
  refine Nat.eq_of_testBit_eq fun i => Bool.eq_iff_iff.2 ?_
  rw [Nat.testBit_or, Bool.or_eq_true, testBit_mask, testBit_mask, testBit_bit]
  simp

/-- A mask of arguments has these arguments as its members. -/
theorem mem_members_mask {names : List String} (h : ∀ a ∈ names, a ∈ F.arguments) :
    a ∈ F.members (F.mask names) ↔ a ∈ names := by
  rw [mem_members, testBit_mask]
  constructor
  · rintro ⟨ha, b, hb, same⟩
    rwa [← (List.idxOf_inj (h b hb)).1 same]
  · exact fun ha => ⟨h a ha, a, ha, rfl⟩

theorem mask_lt {names : List String} (h : ∀ a ∈ names, a ∈ F.arguments) :
    F.mask names < 2 ^ F.size := by
  refine lt_two_pow_size_of_members fun i hi => ?_
  obtain ⟨a, ha, rfl⟩ := testBit_mask.1 hi
  exact idxOf_lt_size (h a ha)

/-- Every set of arguments is the set of members of a mask within bounds. -/
theorem exists_mask {S : Set String} (h : ∀ a ∈ S, a ∈ F.arguments) :
    ∃ m < 2 ^ F.size, F.members m = S := by
  classical
  have sub : ∀ a ∈ F.arguments.filter (· ∈ S), a ∈ F.arguments :=
    fun a ha => (List.mem_filter.1 ha).1
  refine ⟨F.mask (F.arguments.filter (· ∈ S)), mask_lt sub, ?_⟩
  ext a
  rw [mem_members_mask sub, List.mem_filter, decide_eq_true_iff]
  exact ⟨And.right, fun ha => ⟨h a ha, ha⟩⟩

/-! ### Names of a mask -/

theorem hasBit_natCast : hasBit (m : Int) i = m.testBit i := by
  rw [hasBit, Nat.testBit_eq_decide_div_mod_eq, Int.shiftRight_eq_div_pow]
  simp only [beq_eq_decide]
  norm_cast

/-- The names of a whole number are those of the arguments whose bits it has. -/
theorem mem_namesOf_iff {k : Int} :
    a ∈ F.namesOf k ↔ a ∈ F.arguments ∧ hasBit k (F.arguments.idxOf a) = true := by
  rw [namesOf, mem_canonical, List.mem_map]
  constructor
  · intro h
    obtain ⟨⟨b, i⟩, hb, rfl⟩ := h
    obtain ⟨entry, set⟩ := List.mem_filter.1 hb
    obtain ⟨hi, hbi⟩ := List.mem_zipIdx' entry
    rw [show b = F.arguments[i] from hbi, F.nodup.idxOf_getElem i hi]
    exact ⟨List.getElem_mem hi, set⟩
  · intro h
    obtain ⟨ha, set⟩ := h
    refine ⟨(a, F.arguments.idxOf a), List.mem_filter.2 ⟨?_, set⟩, rfl⟩
    rw [index, List.mem_zipIdx_iff_getElem?]
    exact List.getElem?_idxOf ha

@[simp] theorem mem_namesOf : a ∈ F.namesOf m ↔ a ∈ F.members m := by
  rw [mem_namesOf_iff, hasBit_natCast, mem_members]

theorem pairwise_lt_namesOf (k : Int) : (F.namesOf k).Pairwise (· < ·) :=
  pairwise_lt_canonical _

/-- The names of a mask are the written form of its members. -/
theorem eq_namesOf_iff {E : List String} :
    E = F.namesOf m ↔ E.Pairwise (· < ·) ∧ {a | a ∈ E} = F.members m := by
  constructor
  · rintro rfl
    exact ⟨pairwise_lt_namesOf _, Set.ext fun _ => mem_namesOf⟩
  · rintro ⟨rising, same⟩
    refine rising.eq_of_mem_iff (pairwise_lt_namesOf _) fun a => ?_
    rw [mem_namesOf, ← same]
    rfl

theorem namesOf_inj (hm : m < 2 ^ F.size) (hn : n < 2 ^ F.size) :
    F.namesOf m = F.namesOf n ↔ m = n := by
  refine ⟨fun h => eq_of_members_eq hm hn ?_, fun h => by rw [h]⟩
  ext a
  rw [← mem_namesOf, h, mem_namesOf]

/-! ### Masks of neighbours -/

theorem attacks_iff : F.Attacks a b ↔ ∃ e ∈ F.attacks, e.attacker = a ∧ e.target = b := by
  constructor
  · exact fun h => ⟨⟨a, b⟩, h, rfl, rfl⟩
  · rintro ⟨e, he, rfl, rfl⟩
    exact he

/-- The other ends of the attacks that have `a` at one end. -/
theorem mem_neighbours {near far : Attack → String} :
    b ∈ (F.attacks.filter fun e => near e == a).map far ↔
      ∃ e ∈ F.attacks, near e = a ∧ far e = b := by
  simp [and_assoc]

theorem mem_attackers : b ∈ (F.attacks.filter fun e => e.target == a).map (·.attacker) ↔
    F.Attacks b a := by
  rw [mem_neighbours, attacks_iff]
  simp only [and_comm]

theorem mem_targets : b ∈ (F.attacks.filter fun e => e.attacker == a).map (·.target) ↔
    F.Attacks a b := by
  rw [mem_neighbours, attacks_iff]

@[simp] theorem mem_members_attackersMask : b ∈ F.members (F.attackersMask a) ↔ F.Attacks b a := by
  rw [attackersMask, mem_members_mask fun c hc => (mem_attackers.1 hc).left_mem, mem_attackers]

@[simp] theorem mem_members_targetsMask : b ∈ F.members (F.targetsMask a) ↔ F.Attacks a b := by
  rw [targetsMask, mem_members_mask fun c hc => (mem_targets.1 hc).right_mem, mem_targets]

theorem attackersMask_lt : F.attackersMask a < 2 ^ F.size :=
  mask_lt fun _ hb => (mem_attackers.1 hb).left_mem

theorem targetsMask_lt : F.targetsMask a < 2 ^ F.size :=
  mask_lt fun _ hb => (mem_targets.1 hb).right_mem

/-- The rows say of each argument where its bit is and who its neighbours are. -/
theorem mem_rows {r : Row} :
    r ∈ F.rows ↔ ∃ a ∈ F.arguments, r = ⟨a, F.bit a, F.attackersMask a, F.targetsMask a⟩ := by
  rw [rows, List.mem_map]
  exact exists_congr fun a => and_congr_right fun _ => eq_comm

end Argumentation.Framework
