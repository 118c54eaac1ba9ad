/-!
# Canonical sequences

The form in which sets of names are given out: every member once, in rising order. Names are
compared character by character, by code point. The order in which the members are handed in, and
how often, leaves no trace.
-/

namespace Argumentation

/-- The members without repetitions, each at its first place. -/
def distinct {α : Type} [BEq α] (xs : List α) : List α := xs.eraseDups

@[simp] theorem mem_distinct {α : Type} [BEq α] [LawfulBEq α] {a : α} {xs : List α} :
    a ∈ distinct xs ↔ a ∈ xs := List.mem_eraseDups

/-- No member is left in twice. -/
theorem nodup_distinct {α : Type} [BEq α] [LawfulBEq α] (xs : List α) : (distinct xs).Nodup := by
  generalize hn : xs.length = n
  induction n using Nat.strongRecOn generalizing xs with
  | ind n ih =>
    cases xs with
    | nil => simp [distinct]
    | cons a as =>
      have short : (as.filter fun b => !b == a).length < n := by
        have := List.length_filter_le (fun b => !b == a) as
        simp only [List.length_cons] at hn
        omega
      have rest := ih _ short _ rfl
      simp only [distinct, List.eraseDups_cons, List.nodup_cons]
      refine ⟨?_, rest⟩
      simp

/-- A sequence that is empty without its repetitions is empty with them. -/
theorem distinct_eq_nil {α : Type} [BEq α] {xs : List α} : distinct xs = [] ↔ xs = [] := by
  cases xs with
  | nil => simp [distinct]
  | cons a as => simp [distinct, List.eraseDups_cons]

/-- The members once each, in the order `le`. -/
def canonicalBy {α : Type} [BEq α] (le : α → α → Bool) (xs : List α) : List α :=
  (distinct xs).mergeSort le

/-- The names once each, in rising order. -/
def canonical (names : List String) : List String :=
  canonicalBy (fun a b => decide (a ≤ b)) names

/-- Whether a sequence of names does not come after another one. The first place at which they
differ decides, and a sequence comes before its continuations. -/
def notAfter (xs ys : List String) : Bool := !(ys.lex xs fun a b => decide (a < b))

end Argumentation
