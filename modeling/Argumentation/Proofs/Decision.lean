import Argumentation.Framework.OfValues
import Argumentation.Proofs.Families

/-!
# Argumentation.Proofs.Decision

Deciding a set and enumerating all sets come to the same. The two work in different ways: a decision
walks over the rows of the framework and collects what the set attacks, while the enumeration puts
that together from smaller sets it has seen before. They never meet in the code. What they have in
common is the semantics, so both are carried over to sets of arguments and compared there.

A set is handed over as values, in any order and with repetitions. `maskOf` forgets both, as does
the canonical form under which the families list the set.
-/

namespace Argumentation.Framework

variable {F : Framework} {names : List String} {candidates : List Value} {v : Value}

/-! ### The mask of values -/

/-- The value is a text that names an argument. -/
theorem filter_text?_eq_some {a : String} :
    v.text?.filter F.contains = some a ↔ v = .text a ∧ a ∈ F.arguments := by
  have is_text : v.text? = some a ↔ v = .text a := by
    unfold Value.text?
    split
    · simp
    · next other => exact ⟨fun h => (nomatch h), fun h => absurd h (other a)⟩
  rw [Option.filter_eq_some_iff, is_text, contains_iff]

theorem filter_text?_eq_none :
    v.text?.filter F.contains = none ↔ ∀ a ∈ F.arguments, v ≠ .text a := by
  constructor
  · intro none_named a ha same
    rw [filter_text?_eq_some.2 ⟨same, ha⟩] at none_named
    exact nomatch none_named
  · intro none_named
    cases named : v.text?.filter F.contains with
    | none => rfl
    | some a =>
        obtain ⟨same, ha⟩ := filter_text?_eq_some.1 named
        exact absurd same (none_named a ha)

/-- Texts that name arguments have the mask of these arguments. -/
theorem maskOf_texts (h : ∀ a ∈ names, a ∈ F.arguments) :
    F.maskOf (names.map .text) = .ok (F.mask names) := by
  induction names with
  | nil => rfl
  | cons a names ih =>
      obtain ⟨ha, rest⟩ := List.forall_mem_cons.1 h
      have named : (Value.text a).text?.filter F.contains = some a :=
        filter_text?_eq_some.2 ⟨rfl, ha⟩
      rw [List.map_cons, maskOf, named, mask_cons]
      show (F.maskOf (names.map .text)).map (F.bit a ||| ·) = _
      rw [ih rest]
      rfl

/-- There is no mask of values one of which names no argument; the first of them is to blame. -/
theorem maskOf_eq_error_iff :
    F.maskOf candidates = .error v ↔ ∃ front back, candidates = front ++ v :: back ∧
      (∀ u ∈ front, ∃ a ∈ F.arguments, u = .text a) ∧ ∀ a ∈ F.arguments, v ≠ .text a := by
  induction candidates with
  | nil => simp [maskOf]
  | cons u rest ih =>
      rw [maskOf]
      cases named : u.text?.filter F.contains with
      | none =>
          have bad := filter_text?_eq_none.1 named
          constructor
          · intro h
            cases h
            exact ⟨[], rest, rfl, by simp, bad⟩
          · rintro ⟨front, back, split, before, -⟩
            cases front with
            | nil => rw [(List.cons.inj split).1]
            | cons w front =>
                obtain ⟨a, ha, same⟩ := before w List.mem_cons_self
                exact absurd ((List.cons.inj split).1.trans same) (bad a ha)
      | some a =>
          obtain ⟨rfl, ha⟩ := filter_text?_eq_some.1 named
          show (F.maskOf rest).map (F.bit a ||| ·) = .error v ↔ _
          have later : (F.maskOf rest).map (F.bit a ||| ·) = .error v ↔ F.maskOf rest = .error v := by
            cases F.maskOf rest <;> simp [Except.map]
          rw [later, ih]
          -- the first value names an argument, so it goes to the front of what lies before the fault
          constructor
          · rintro ⟨front, back, rfl, before, bad⟩
            exact ⟨.text a :: front, back, rfl, List.forall_mem_cons.2 ⟨⟨a, ha, rfl⟩, before⟩, bad⟩
          · rintro ⟨front, back, split, before, bad⟩
            cases front with
            | nil => exact absurd (List.cons.inj split).1.symm (bad a ha)
            | cons w front =>
                refine ⟨front, back, (List.cons.inj split).2, ?_, bad⟩
                exact (List.forall_mem_cons.1 before).2

/-! ### Verdicts and families -/

/-- The set `E` is in each of the families exactly if the verdict says so. -/
structure Verdict.Agrees (verdict : Verdict) (f : Families) (E : List String) : Prop where
  conflictFree : verdict.conflictFree = true ↔ E ∈ f.conflictFree
  admissible : verdict.admissible = true ↔ E ∈ f.admissible
  complete : verdict.complete = true ↔ E ∈ f.complete
  stable : verdict.stable = true ↔ E ∈ f.stable

/-- A family has the canonical form of names if they are a set with its property. -/
theorem Enumerates.canonical_mem_iff {family : List (List String)} {P : Set String → Prop}
    (h : Enumerates family P) : canonical names ∈ family ↔ P {a | a ∈ names} := by
  have same : {a | a ∈ canonical names} = {a | a ∈ names} := Set.ext fun _ => mem_canonical
  rw [h.mem_iff, same]
  exact and_iff_right (pairwise_lt_canonical names)

theorem agrees_judge_mask (h : ∀ a ∈ names, a ∈ F.arguments) :
    (F.judge (F.mask names)).Agrees F.families (canonical names) := by
  -- both sides say whether the named arguments, as a set, have the property
  have small := mask_lt h
  have same : F.members (F.mask names) = {a | a ∈ names} := Set.ext fun _ => mem_members_mask h
  constructor
  · rw [(enumerates_conflictFree F).canonical_mem_iff, ← same]
    exact isConflictFree_iff small
  · rw [(enumerates_admissible F).canonical_mem_iff, ← same]
    exact isAdmissible_iff small
  · rw [(enumerates_complete F).canonical_mem_iff, ← same]
    exact isComplete_iff small
  · rw [(enumerates_stable F).canonical_mem_iff, ← same]
    exact isStable_iff small

/-- One semantics at a time gives the same families as all at once. -/
theorem family_eq_ok {limit : Int} (h : F.size ≤ limit) (s : Semantics) :
    F.family limit s = .ok (F.families.get s) := by
  cases s with
  | grounded => rfl
  | _ => simp [family, extensions_eq_ok h, Except.map]

/-- **Decisions and families agree.** Within the limit, every set that is named by arguments is
decided as the families list it, and the family of one semantics is the one among all of them. Names
that are not arguments are refused, the first of them by name. -/
theorem judge_agrees {limit : Int} (h : F.size ≤ limit) :
    ∃ f, F.extensions limit = .ok f ∧
      (∀ names : List String, (∀ a ∈ names, a ∈ F.arguments) →
        ∃ verdict, (F.maskOf (names.map .text)).map F.judge = .ok verdict ∧
          verdict.Agrees f (canonical names)) ∧
      (∀ s, F.family limit s = .ok (f.get s)) ∧
      ∀ candidates v, (F.maskOf candidates).map F.judge = .error v ↔
        ∃ front back, candidates = front ++ v :: back ∧
          (∀ u ∈ front, ∃ a ∈ F.arguments, u = .text a) ∧ ∀ a ∈ F.arguments, v ≠ .text a := by
  refine ⟨F.families, extensions_eq_ok h, fun names named => ?_, family_eq_ok h, ?_⟩
  · refine ⟨F.judge (F.mask names), ?_, agrees_judge_mask named⟩
    rw [maskOf_texts named]
    rfl
  · intro candidates v
    rw [← maskOf_eq_error_iff]
    cases F.maskOf candidates <;> simp [Except.map]

theorem quarrel_judged : (quarrel.size : Int) ≤ defaultLimit ∧
    ∃ f, quarrel.extensions defaultLimit = .ok f ∧
      (∃ verdict, (quarrel.maskOf (["b", "b"].map .text)).map quarrel.judge = .ok verdict ∧
        verdict.Agrees f (canonical ["b", "b"])) ∧
      (∀ s, quarrel.family defaultLimit s = .ok (f.get s)) ∧
      (quarrel.maskOf [.text "a", .text "d", .int 0]).map quarrel.judge = .error (.text "d") := by
  have small : (quarrel.size : Int) ≤ defaultLimit := by decide
  obtain ⟨f, enumerated, agree, families, refused⟩ := judge_agrees small
  refine ⟨small, f, enumerated, agree ["b", "b"] (by decide), families, ?_⟩
  refine (refused _ _).2 ⟨[.text "a"], [.int 0], rfl, ?_, ?_⟩
  · simp [quarrel]
  · simp [quarrel]

end Argumentation.Framework
