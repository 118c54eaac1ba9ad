import Argumentation.Proofs.Decision
import Mathlib.Data.Int.Bitwise

/-!
# Argumentation.Proofs.Translation

Names of arguments and masks say the same. The names of a mask come back in the order of the names
while its bits stand in the order of the arguments, so the two are compared by their members: a name
is among the names of a whole number if its argument has a bit there (`mem_namesOf_iff`).

A whole number of either sign stands for a set of arguments, as its bits beyond the arguments are
left out. What it has in common with the mask of all arguments is the one mask that stands for the
same set (`natCast_mask_namesOf`).
-/

namespace Argumentation.Framework

variable {F : Framework} {names s t : List String} {k : Int} {i : Nat}

/-! ### Bits of whole numbers -/

theorem hasBit_eq_testBit (k : Int) (i : Nat) : hasBit k i = k.testBit i := by
  cases k with
  | ofNat m => exact hasBit_natCast
  | negSucc m =>
      -- the number `-(m + 1)` has the bits that `m` has not
      rw [hasBit, Int.negSucc_shiftRight, Int.testBit, Nat.testBit_eq_decide_div_mod_eq,
        Nat.shiftRight_eq_div_pow, Int.negSucc_eq]
      generalize m / 2 ^ i = q
      rw [Bool.eq_iff_iff, beq_iff_eq, Bool.not_eq_true', decide_eq_false_iff_not]
      omega

/-- What a whole number has in common with a natural number is one. -/
theorem exists_land_natCast (k : Int) (n : Nat) : ∃ m : Nat, Int.land k n = m := by
  cases k with
  | ofNat l => exact ⟨l &&& n, rfl⟩
  | negSucc l => exact ⟨Nat.ldiff n l, rfl⟩

/-! ### Names and masks -/

theorem testBit_fullMask : F.fullMask.testBit i = true ↔ i < F.size := by
  rw [fullMask_eq, Nat.testBit_two_pow_sub_one, decide_eq_true_iff]

theorem mem_arguments_of_mem_namesOf {a : String} (ha : a ∈ F.namesOf k) : a ∈ F.arguments :=
  (mem_namesOf_iff.1 ha).1

/-- The names of the mask of some arguments are these arguments, once each and in rising order. -/
theorem namesOf_mask (h : ∀ a ∈ names, a ∈ F.arguments) :
    F.namesOf (F.mask names) = canonical names := by
  refine eq_canonical (pairwise_lt_namesOf _) fun a => ?_
  rw [mem_namesOf, mem_members_mask h]

/-- The mask of the names of a whole number is what it has in common with the mask of all
arguments. -/
theorem natCast_mask_namesOf (F : Framework) (k : Int) :
    (F.mask (F.namesOf k) : Int) = Int.land k F.fullMask := by
  obtain ⟨m, common⟩ := exists_land_natCast k F.fullMask
  have bits (i : Nat) : m.testBit i = (k.testBit i && F.fullMask.testBit i) := by
    have both := Int.testBit_land k F.fullMask i
    rwa [common] at both
  rw [common, Nat.cast_inj]
  refine Nat.eq_of_testBit_eq fun i => Bool.eq_iff_iff.2 ?_
  rw [testBit_mask, bits, Bool.and_eq_true, testBit_fullMask, ← hasBit_eq_testBit]
  constructor
  · intro h
    obtain ⟨a, ha, rfl⟩ := h
    obtain ⟨known, set⟩ := mem_namesOf_iff.1 ha
    exact ⟨set, idxOf_lt_size known⟩
  · intro h
    obtain ⟨set, inside⟩ := h
    obtain ⟨a, ha, rfl⟩ := exists_idxOf_eq inside
    exact ⟨a, mem_namesOf_iff.2 ⟨ha, set⟩, rfl⟩

/-- Some arguments are among others if their mask has nothing that the other one has not. -/
theorem subset_iff_mask_and (hs : ∀ a ∈ s, a ∈ F.arguments) (ht : ∀ a ∈ t, a ∈ F.arguments) :
    s ⊆ t ↔ F.mask s &&& F.mask t = F.mask s := by
  have inclusion : F.members (F.mask s) ⊆ F.members (F.mask t) ↔ s ⊆ t := by
    simp only [Set.subset_def, mem_members_mask hs, mem_members_mask ht]
    rfl
  rw [← inclusion, ← within_iff_members_subset (mask_lt hs), within, beq_iff_eq]

/-- Values that are handed over together have the mask in which those of the two parts are joined,
and the first part that has none decides on the fault. -/
theorem maskOf_append (F : Framework) (xs ys : List Value) :
    F.maskOf (xs ++ ys) = do return (← F.maskOf xs) ||| (← F.maskOf ys) := by
  induction xs with
  | nil =>
      show F.maskOf ys = (F.maskOf ys).bind fun n => .ok (0 ||| n)
      cases F.maskOf ys with
      | error v => rfl
      | ok n => rw [Except.bind, Nat.zero_or]
  | cons v xs ih =>
      rw [List.cons_append, maskOf, maskOf, ih]
      cases v.text?.filter F.contains with
      | none => rfl
      | some a =>
          dsimp only
          cases F.maskOf xs with
          | error u => rfl
          | ok m =>
              cases F.maskOf ys with
              | error u => rfl
              | ok n => exact congrArg Except.ok (Nat.or_assoc ..).symm

/-! ### The translation -/

/-- The names of arguments and the masks of a framework translate into each other. -/
structure Translates (F : Framework) : Prop where
  /-- Arguments have a mask, in whatever order and however often they are named, and its names are
  these arguments. -/
  namesOf_maskOf : ∀ names : List String, (∀ a ∈ names, a ∈ F.arguments) →
    ∃ m : Nat, F.maskOf (names.map .text) = .ok m ∧ F.namesOf m = canonical names
  /-- A whole number of either sign has names of arguments, and their mask is the number without its
  bits beyond the arguments. -/
  maskOf_namesOf : ∀ k : Int, ∃ m : Nat, F.maskOf ((F.namesOf k).map .text) = .ok m ∧
    (m : Int) = Int.land k F.fullMask
  maskOf_append : ∀ xs ys : List Value,
    F.maskOf (xs ++ ys) = do return (← F.maskOf xs) ||| (← F.maskOf ys)
  /-- Inclusion of sets is that of their masks. -/
  subset_iff : ∀ s t : List String, (∀ a ∈ s, a ∈ F.arguments) → (∀ a ∈ t, a ∈ F.arguments) →
    ∃ m n, F.maskOf (s.map .text) = .ok m ∧ F.maskOf (t.map .text) = .ok n ∧
      (s ⊆ t ↔ m &&& n = m)

/-- **Names and masks are two forms of the same set of arguments.** Nothing is lost on the way from
the one to the other, and unions and inclusions are the same in both. -/
theorem names_masks_translate (F : Framework) : Translates F := by
  constructor
  · intro names known
    exact ⟨F.mask names, maskOf_texts known, namesOf_mask known⟩
  · intro k
    have known : ∀ a ∈ F.namesOf k, a ∈ F.arguments := fun _ => mem_arguments_of_mem_namesOf
    exact ⟨F.mask (F.namesOf k), maskOf_texts known, natCast_mask_namesOf F k⟩
  · exact F.maskOf_append
  · intro s t hs ht
    exact ⟨F.mask s, F.mask t, maskOf_texts hs, maskOf_texts ht, subset_iff_mask_and hs ht⟩

/-- Of the number `-3` all bits are set but one, which is that of `a`. -/
example : (quarrel.mask ["c", "b", "c"] : Int) = Int.land (-3) quarrel.fullMask := by decide +kernel

end Argumentation.Framework
