import Argumentation.Canonical
import Mathlib.Data.List.Induction
import Mathlib.Data.List.Lex
import Mathlib.Data.List.Sort
import Mathlib.Data.String.Basic

/-!
# Argumentation.Proofs.Canonical

Canonical sequences rise strictly, and a strictly rising sequence is known by its members. So a
canonical sequence is the one written form of a set of names (`eq_canonical`), and a family of
such sequences that is sorted with `notAfter` rises strictly in the lexicographic order as soon as
it lists nothing twice (`pairwise_lex_mergeSort`).

Where the order of the members is to be kept, `distinct` keeps that of their first places
(`firsts_distinct`), and a sort keeps it among members that compare equal
(`pairwise_mergeSort_stable`). The sort is a merge sort, whose recursion is not structural. Where
sorted sequences are to be computed in a proof, an insertion sort takes its place
(`mergeSort_eq_insertionSort`).
-/

namespace Argumentation

/-! ### Sequences that keep their order -/

theorem distinct_eq_self {α : Type} [BEq α] [LawfulBEq α] {xs : List α} (h : xs.Nodup) :
    distinct xs = xs := by
  induction h with
  | nil => rfl
  | @cons a xs apart _ ih =>
      have others : (xs.filter fun b => !b == a) = xs := by
        refine List.filter_eq_self.2 fun b hb => ?_
        simpa using (apart b hb).symm
      rw [distinct, List.eraseDups_cons, others]
      exact congrArg (a :: ·) ih

/-- The members that are left stand in the order of their first places. -/
theorem pairwise_idxOf_distinct {α : Type} [BEq α] [LawfulBEq α] (xs : List α) :
    (distinct xs).Pairwise fun a b => xs.idxOf a < xs.idxOf b := by
  -- from the back: an added member comes after all the others, or it is left out
  induction xs using List.reverseRecOn with
  | nil => exact List.Pairwise.nil
  | append_singleton xs c ih =>
      have kept {a : α} (ha : a ∈ xs) : (xs ++ [c]).idxOf a = xs.idxOf a := by
        rw [List.idxOf_append, if_pos ha]
      have front : (distinct xs).Pairwise fun a b => (xs ++ [c]).idxOf a < (xs ++ [c]).idxOf b := by
        refine ih.imp_of_mem fun {a b} ha hb lt => ?_
        rwa [kept (mem_distinct.1 ha), kept (mem_distinct.1 hb)]
      rw [distinct, List.eraseDups_append]
      by_cases hc : c ∈ xs
      · have nothing : [c].removeAll xs = [] := by simp [List.removeAll, hc]
        rw [nothing, List.eraseDups_nil, List.append_nil]
        exact front
      · have new : [c].removeAll xs = [c] := by simp [List.removeAll, hc]
        rw [new]
        refine List.pairwise_append.2 ⟨front, List.pairwise_singleton _ _, fun a ha b hb => ?_⟩
        obtain rfl : b = c := by simpa using hb
        rw [kept (mem_distinct.1 ha), List.idxOf_append, if_neg hc]
        exact Nat.lt_add_left _ (List.idxOf_lt_length_of_mem (mem_distinct.1 ha))

/-- The sequence `ys` has the members of `xs`, once each and in the order of their first places. -/
structure Firsts {α : Type} [BEq α] (xs ys : List α) : Prop where
  mem_iff : ∀ a, a ∈ ys ↔ a ∈ xs
  nodup : ys.Nodup
  ordered : ys.Pairwise fun a b => xs.idxOf a < xs.idxOf b

theorem firsts_distinct {α : Type} [BEq α] [LawfulBEq α] (xs : List α) : Firsts xs (distinct xs) :=
  ⟨fun _ => mem_distinct, nodup_distinct xs, pairwise_idxOf_distinct xs⟩

/-- A sort keeps the order of members of which neither comes before the other. -/
theorem pairwise_mergeSort_stable {α : Type} {le : α → α → Bool} {R : α → α → Prop}
    (trans : ∀ a b c, le a b = true → le b c = true → le a c = true)
    (total : ∀ a b, (le a b || le b a) = true) {xs : List α} (h : xs.Pairwise R) :
    (xs.mergeSort le).Pairwise fun a b => le a b = true ∧ (le b a = true → R a b) := by
  refine (List.pairwise_mergeSort trans total xs).and ?_
  induction h with
  | nil => rw [List.mergeSort_nil]; exact List.Pairwise.nil
  | @cons a xs before _ ih =>
      -- the first member goes behind those only that do not compare equal to it
      obtain ⟨front, back, sorted, rest, apart⟩ := List.mergeSort_cons trans total a xs
      have old {b : α} (hb : b ∈ front ++ back) : R a b :=
        before b (List.mem_mergeSort.1 (rest ▸ hb))
      rw [rest] at ih
      obtain ⟨ihf, ihb, across⟩ := List.pairwise_append.1 ih
      rw [sorted]
      refine List.pairwise_append.2 ⟨ihf, List.pairwise_cons.2 ⟨fun b hb _ => ?_, ihb⟩, ?_⟩
      · exact old (List.mem_append_right _ hb)
      · intro b hb c hc le_cb
        rcases List.mem_cons.1 hc with rfl | hc
        · have := apart b hb
          simp [le_cb] at this
        · exact across b hb c hc le_cb

/-- A merge sort gives what an insertion sort gives, which computes by the structure of the
sequence. -/
theorem mergeSort_eq_insertionSort {α : Type} {le : α → α → Bool}
    (trans : ∀ a b c, le a b = true → le b c = true → le a c = true)
    (total : ∀ a b, (le a b || le b a) = true) (xs : List α) :
    xs.mergeSort le = xs.insertionSort fun a b => le a b = true := by
  induction xs with
  | nil => rw [List.mergeSort_nil, List.insertionSort_nil]
  | cons a xs ih =>
      obtain ⟨front, back, sorted, rest, before⟩ := List.mergeSort_cons trans total a xs
      have behind := List.pairwise_mergeSort trans total (a :: xs)
      rw [sorted] at behind ⊢
      rw [List.insertionSort_cons, ← ih, rest]
      clear sorted rest ih
      -- the first member is inserted behind those that come before it, and before all others
      induction front with
      | nil =>
          cases back with
          | nil => rfl
          | cons b back =>
              have first : le a b = true := (List.pairwise_cons.1 behind).1 b List.mem_cons_self
              exact (List.orderedInsert_cons_of_le _ back first).symm
      | cons b front ih =>
          have later : ¬ le a b = true := by simpa using before b List.mem_cons_self
          have rest := ih (fun c hc => before c (List.mem_cons_of_mem b hc)) behind.of_cons
          rw [List.cons_append, List.cons_append, List.orderedInsert, if_neg later, ← rest]

/-- Pairs that are sorted by their second components. -/
theorem mergeSort_snd {α β : Type} [LinearOrder β] (xs : List (α × β)) :
    (xs.mergeSort fun a b => decide (a.2 ≤ b.2)) =
      xs.insertionSort fun a b => decide (a.2 ≤ b.2) = true :=
  mergeSort_eq_insertionSort (fun a b c => by simpa using le_trans)
    (fun a b => by simpa using le_total a.2 b.2) xs

/-! ### Canonical sequences of names -/

theorem nodup_canonicalBy {α : Type} [BEq α] [LawfulBEq α] (le : α → α → Bool) (xs : List α) :
    (canonicalBy le xs).Nodup :=
  (List.mergeSort_perm _ le).nodup_iff.2 (nodup_distinct xs)

@[simp] theorem mem_canonicalBy {α : Type} [BEq α] [LawfulBEq α] {le : α → α → Bool} {a : α}
    {xs : List α} : a ∈ canonicalBy le xs ↔ a ∈ xs := by
  rw [canonicalBy, List.mem_mergeSort, mem_distinct]

@[simp] theorem mem_canonical {name : String} {names : List String} :
    name ∈ canonical names ↔ name ∈ names := mem_canonicalBy

/-- Members that are compared by a linear order come out in strictly rising order. -/
theorem pairwise_lt_canonicalBy {α : Type} [BEq α] [LawfulBEq α] [LinearOrder α] (xs : List α) :
    (canonicalBy (fun a b => decide (a ≤ b)) xs).Pairwise (· < ·) := by
  have sorted : (canonicalBy (fun a b => decide (a ≤ b)) xs).Pairwise (· ≤ ·) :=
    List.pairwise_mergeSort' (· ≤ ·) (distinct xs)
  have distinct_members := nodup_canonicalBy (fun a b : α => decide (a ≤ b)) xs
  exact (sorted.and distinct_members).imp fun h => lt_of_le_of_ne h.1 h.2

/-- Members that are compared by a linear order are sorted by insertion. -/
theorem canonicalBy_eq_insertionSort {α : Type} [BEq α] [LinearOrder α] (xs : List α) :
    canonicalBy (fun a b => decide (a ≤ b)) xs =
      (distinct xs).insertionSort fun a b => decide (a ≤ b) = true :=
  mergeSort_eq_insertionSort (fun a b c => by simpa using le_trans)
    (fun a b => by simpa using le_total a b) _

theorem pairwise_lt_canonical (names : List String) : (canonical names).Pairwise (· < ·) :=
  pairwise_lt_canonicalBy names

/-- A strictly rising sequence is the canonical form of every sequence with the same members. -/
theorem eq_canonical {rising names : List String} (h : rising.Pairwise (· < ·))
    (same : ∀ a, a ∈ rising ↔ a ∈ names) : rising = canonical names :=
  h.eq_of_mem_iff (pairwise_lt_canonical names) fun a => (same a).trans mem_canonical.symm

/-! ### Sorted families of sequences -/

theorem notAfter_iff {xs ys : List String} : notAfter xs ys = true ↔ xs ≤ ys := by
  have no_lex : notAfter xs ys = true ↔ ¬ List.Lex (· < ·) ys xs := by simp [notAfter]
  exact no_lex.trans (not_lt (a := ys) (b := xs))

theorem notAfter_trans (xs ys zs : List String) (h : notAfter xs ys = true)
    (h' : notAfter ys zs = true) : notAfter xs zs = true :=
  notAfter_iff.2 ((notAfter_iff.1 h).trans (notAfter_iff.1 h'))

theorem notAfter_total (xs ys : List String) : (notAfter xs ys || notAfter ys xs) = true := by
  rw [Bool.or_eq_true, notAfter_iff, notAfter_iff]
  exact le_total xs ys

/-- A family without repetitions that is sorted rises strictly. -/
theorem pairwise_lex_mergeSort {family : List (List String)} (h : family.Nodup) :
    (family.mergeSort notAfter).Pairwise (List.Lex (· < ·)) := by
  have sorted : (family.mergeSort notAfter).Pairwise fun xs ys => notAfter xs ys = true :=
    List.pairwise_mergeSort notAfter_trans notAfter_total family
  have members : (family.mergeSort notAfter).Nodup := (List.mergeSort_perm _ _).nodup_iff.2 h
  refine (sorted.and members).imp fun {xs ys} h => ?_
  exact lt_of_le_of_ne (notAfter_iff.1 h.1) h.2

end Argumentation
