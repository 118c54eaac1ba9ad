import Argumentation.Json.Reader
import Argumentation.Json.Writer
import Argumentation.Value.Writable
import Mathlib.Data.List.Basic
import Mathlib.Data.List.TakeDrop
import Mathlib.Data.Nat.Init

/-!
# Argumentation.Proofs.Numeral

Whole numbers as JSON writes and reads them. The digits of a number start with a zero only if they
are a zero (`digitsOf_cases`), which is what the reader takes for granted, and the reader goes on
until something else than a digit comes. So a number is read back from its digits if it has not more
of them than are read, and if what follows cannot continue it (`readScalar_int`).
-/

namespace Argumentation

namespace Decimal

variable {c : Char} {n : Nat}

theorem isDigit_of_mem_digitsOf (h : c ∈ digitsOf n) : isDigit c = true :=
  Nat.isDigit_of_mem_toDigits (by decide) (by decide) h

theorem digitValue_of_isDigit (h : isDigit c = true) : digitValue c = c.toNat - '0'.toNat := by
  have le : c.toNat ≤ 0x39 := by
    simp only [isDigit, Bool.and_eq_true, decide_eq_true_eq] at h
    exact h.2
  simp only [digitValue]
  rw [if_pos (by omega)]
  rfl

/-- The digits of a number are a zero, or start with another digit. -/
theorem digitsOf_cases (n : Nat) :
    digitsOf n = ['0'] ∨ ∃ d ds, digitsOf n = d :: ds ∧ d ≠ '0' := by
  induction n using Nat.strong_induction_on with
  | _ n ih =>
      simp only [digitsOf] at ih ⊢
      by_cases small : n < 10
      · rw [Nat.toDigits_of_lt_base small]
        by_cases zero : n = 0
        · left
          simp [zero]
        · right
          exact ⟨_, _, rfl, by simpa using zero⟩
      · rw [Nat.toDigits_of_base_le (by decide) (by omega)]
        have fewer := ih (n / 10) (by omega)
        rcases fewer with zero | ⟨d, ds, same, other⟩
        · have value := Nat.ofDigitChars_ten_toDigits (n := n / 10)
          rw [zero] at value
          simp [Nat.ofDigitChars_cons] at value
          omega
        · right
          exact ⟨d, ds ++ [(n % 10).digitChar], by rw [same]; rfl, other⟩

theorem ofDigits_digitsOf (n : Nat) : ofDigits 10 (digitsOf n) = n := by
  have same : ofDigits 10 (digitsOf n) = Nat.ofDigitChars 10 (digitsOf n) 0 := by
    rw [ofDigits, Nat.ofDigitChars_eq_foldl]
    refine List.foldl_ext _ _ _ fun m c hc => ?_
    rw [digitValue_of_isDigit (isDigit_of_mem_digitsOf hc), Nat.mul_comm]
  rw [same]
  exact Nat.ofDigitChars_ten_toDigits

theorem length_digitsOf_le {k : Nat} (some_left : 0 < k) (h : n < Nat.pow 10 k) :
    (digitsOf n).length ≤ k :=
  (Nat.length_toDigits_le_iff (by decide) some_left).2 h

end Decimal

namespace Json

open Decimal

variable {rest : List Char} {n : Nat}

/-- What comes after a value: nothing, or a mark that separates it from the next one or closes the
collection around it. -/
def Follows (rest : List Char) : Prop := ∀ c ∈ rest.head?, c = ',' ∨ c = ']' ∨ c = '\x7d'

/-- The characters of a whole number. -/
theorem toString_int_cases (i : Int) :
    (toString i).toList = digitsOf i.natAbs ∧ 0 ≤ i ∨
      (toString i).toList = '-' :: digitsOf i.natAbs ∧ i < 0 := by
  rw [Int.toString_eq_repr, Int.repr_eq_if]
  split
  · next nonneg =>
      left
      refine ⟨?_, nonneg⟩
      rw [Nat.repr_eq_ofList_toDigits, String.toList_ofList, digitsOf]
      congr 1
      omega
  · next neg =>
      right
      refine ⟨?_, by omega⟩
      rw [Nat.repr_eq_ofList_toDigits, String.toList_append, String.toList_ofList, digitsOf]
      have same : (-i).toNat = i.natAbs := by omega
      simp [same]

theorem span_digitsOf (ends : Follows rest) (n : Nat) :
    (digitsOf n ++ rest).span isDigit = (digitsOf n, rest) := by
  have all : ∀ c ∈ digitsOf n, isDigit c = true := fun c hc => isDigit_of_mem_digitsOf hc
  rw [List.span_eq_takeWhile_dropWhile, List.takeWhile_append_of_pos all,
    List.dropWhile_append_of_pos all]
  cases rest with
  | nil => simp
  | cons c rest =>
      have stop : isDigit c = false := by
        rcases ends c rfl with rfl | rfl | rfl <;> rfl
      simp [stop]

/-- The digits of a number are read up to their end, also where a zero ends the reading at once. -/
theorem splitWhole_digitsOf (ends : Follows rest) (n : Nat) :
    splitWhole (digitsOf n ++ rest) = (digitsOf n, rest) := by
  rcases digitsOf_cases n with zero | ⟨d, ds, same, other⟩
  · rw [zero]
    rfl
  · have whole := span_digitsOf ends n
    rw [same] at whole ⊢
    rw [← whole]
    simp [splitWhole, other]

theorem splitFraction_of_follows (ends : Follows rest) : splitFraction rest = ([], rest) := by
  cases rest with
  | nil => rfl
  | cons c rest => rcases ends c rfl with rfl | rfl | rfl <;> rfl

theorem splitExponent_of_follows (ends : Follows rest) : splitExponent rest = (none, rest) := by
  cases rest with
  | nil => rfl
  | cons c rest => rcases ends c rfl with rfl | rfl | rfl <;> rfl

/-- What follows a number neither continues its digits nor makes a fraction of it. -/
theorem readUnsigned_digitsOf (negative : Bool) (ends : Follows rest) (h : n < writableBound) :
    readUnsigned negative (digitsOf n ++ rest) =
      .ok (.int (if negative then -(n : Int) else n), rest) := by
  have some_left : (digitsOf n).isEmpty = false := by
    simp [digitsOf, Nat.toDigits_ne_nil]
  unfold writableBound at h
  have few : ¬ digitLimit < (digitsOf n).length :=
    Nat.not_lt.2 (length_digitsOf_le (by decide) h)
  simp [readUnsigned, splitWhole_digitsOf ends, splitFraction_of_follows ends,
    splitExponent_of_follows ends, some_left, few, ofDigits_digitsOf]

/-- No word starts with a digit, or with one behind a sign. -/
theorem findSome?_words {d : Char} (cs : List Char) (h : isDigit d = true) :
    (words.findSome? fun w => (w.1.isPrefixOf? (d :: cs)).map fun rest => (w.2, rest)) = none ∧
    (words.findSome? fun w => (w.1.isPrefixOf? ('-' :: d :: cs)).map fun rest => (w.2, rest)) =
      none := by
  have other (c : Char) (hc : isDigit c = false) : ¬ c = d := by
    intro same
    rw [same, h] at hc
    exact Bool.noConfusion hc
  have hn := other 'n' rfl
  have ht := other 't' rfl
  have hf := other 'f' rfl
  have hN := other 'N' rfl
  have hI := other 'I' rfl
  have hs := other '-' rfl
  simp [words, List.isPrefixOf?, hn, ht, hf, hN, hI, hs]

/-- A number that is not too long is read back. -/
theorem readScalar_int {i : Int} (ends : Follows rest) (h : isWritableInt i = true) :
    readScalar ((toString i).toList ++ rest) = .ok (.int i, rest) := by
  have small : i.natAbs < writableBound := of_decide_eq_true h
  obtain ⟨d, ds, same⟩ : ∃ d ds, digitsOf i.natAbs = d :: ds :=
    List.exists_cons_of_ne_nil Nat.toDigits_ne_nil
  have digit : isDigit d = true := isDigit_of_mem_digitsOf (by rw [same]; exact .head _)
  have words := findSome?_words (ds ++ rest) digit
  have sign : d ≠ '-' := by
    intro minus
    rw [minus] at digit
    exact Bool.noConfusion digit
  rcases toString_int_cases i with ⟨written, nonneg⟩ | ⟨written, neg⟩
  · have read := readUnsigned_digitsOf false ends small
    have value : (i.natAbs : Int) = i := Int.natAbs_of_nonneg nonneg
    rw [if_neg Bool.false_ne_true, value, same] at read
    rw [written, same]
    simpa [readScalar, words.1, sign] using read
  · have read := readUnsigned_digitsOf true ends small
    have value : -(i.natAbs : Int) = i := by omega
    rw [if_pos rfl, value, same] at read
    rw [written, same]
    simpa [readScalar, words.2] using read

end Json

end Argumentation
