import Argumentation.Framework.OfValues
import Mathlib.Data.List.Forall2

/-!
# Argumentation.Proofs.Construction

When a framework can be made, and what it holds then. A framework carries the proofs of its own
well-formedness, so these are equivalences: `make` gives a framework exactly if its arguments are
the names without repetitions and its attacks are those given (`make_eq_ok_iff`). Cutting a
framework down (`restrict_eq_ok_iff`) and reading attacks first (`ofNames_eq_ok_iff`) are described
on top of that.

The computations of the project stop at their first fault. `bind_eq_ok_iff` and `mapM_eq_ok_iff`
take a successful one apart into its successful steps, `bind_eq_error_iff` and `mapM_eq_error_iff`
find the step at which one fails. With them the faults of a framework are told as exactly as the
frameworks (`make_eq_error_iff`, `ofNames_eq_error_iff`).
-/

namespace Argumentation

/-! ### Computations that may fail -/

section Success

variable {ε ε' α β : Type} {x : Except ε α} {a : α} {b : β}

/-- One step of a computation, and what follows it. -/
theorem bind_eq_ok_iff {f : α → Except ε β} :
    (x >>= f) = .ok b ↔ ∃ a, x = .ok a ∧ f a = .ok b := by
  cases x with
  | error e => simp [bind, Except.bind]
  | ok a => simp [bind, Except.bind]

@[simp] theorem mapError_eq_ok_iff {f : ε → ε'} : x.mapError f = .ok a ↔ x = .ok a := by
  cases x with
  | error e => simp [Except.mapError]
  | ok a => simp [Except.mapError]

theorem map_eq_ok_iff {f : α → β} : x.map f = .ok b ↔ ∃ a, x = .ok a ∧ f a = b := by
  cases x with
  | error e => simp [Except.map]
  | ok a => simp [Except.map]

/-- Results can be compared where faults cannot. -/
theorem eq_ok_of_toOption (computed : x.toOption = some a) : x = .ok a := by
  cases x with
  | error e => exact nomatch computed
  | ok a' => exact congrArg Except.ok (Option.some.inj computed)

/-- A walk that may fail succeeds exactly if every step of it does. -/
theorem mapM_eq_ok_iff {f : α → Except ε β} {xs : List α} {ys : List β} :
    xs.mapM f = .ok ys ↔ List.Forall₂ (fun a b => f a = .ok b) xs ys := by
  induction xs generalizing ys with
  | nil =>
      rw [List.mapM_nil, List.forall₂_nil_left_iff]
      show Except.ok [] = Except.ok ys ↔ ys = []
      rw [Except.ok.injEq, eq_comm]
  | cons a xs ih =>
      rw [List.mapM_cons, bind_eq_ok_iff, List.forall₂_cons_left_iff]
      constructor
      · rintro ⟨b, here, rest⟩
        obtain ⟨bs, rest, same⟩ := bind_eq_ok_iff.1 rest
        exact ⟨b, bs, here, ih.1 rest, (Except.ok.inj same).symm⟩
      · rintro ⟨b, bs, here, rest, rfl⟩
        exact ⟨b, here, bind_eq_ok_iff.2 ⟨bs, ih.2 rest, rfl⟩⟩

/-- A walk succeeds if every step of it can, with what is known of the result of each step. -/
theorem exists_mapM_eq_ok {f : α → Except ε β} {P : β → Prop} {xs : List α}
    (h : ∀ a ∈ xs, ∃ b, f a = .ok b ∧ P b) : ∃ ys, xs.mapM f = .ok ys ∧ ∀ b ∈ ys, P b := by
  induction xs with
  | nil => exact ⟨[], rfl, fun _ hb => absurd hb List.not_mem_nil⟩
  | cons a xs ih =>
      obtain ⟨b, here, hb⟩ := h a List.mem_cons_self
      obtain ⟨bs, rest, hbs⟩ := ih fun c hc => h c (List.mem_cons_of_mem _ hc)
      refine ⟨b :: bs, ?_, List.forall_mem_cons.2 ⟨hb, hbs⟩⟩
      exact mapM_eq_ok_iff.2 (.cons here (mapM_eq_ok_iff.1 rest))

/-- A computation fails at its first step or at what follows it. -/
theorem bind_eq_error_iff {f : α → Except ε β} {e : ε} :
    (x >>= f) = .error e ↔ x = .error e ∨ ∃ a, x = .ok a ∧ f a = .error e := by
  cases x with
  | error e' => simp [bind, Except.bind]
  | ok a => simp [bind, Except.bind]

@[simp] theorem mapError_eq_error_iff {f : ε → ε'} {e' : ε'} :
    x.mapError f = .error e' ↔ ∃ e, x = .error e ∧ f e = e' := by
  cases x with
  | error e => simp [Except.mapError]
  | ok a => simp [Except.mapError]

end Success

namespace Framework

variable {F G : Framework} {names : List String}

/-! ### Frameworks that are made -/

theorem eq_of_parts (arguments : F.arguments = G.arguments) (attacks : F.attacks = G.attacks) :
    F = G := by
  cases F
  cases G
  cases arguments
  cases attacks
  rfl

theorem undeclared_eq_nil_iff {arguments : List String} {attacks : List Attack} :
    undeclared arguments attacks = [] ↔
      ∀ a ∈ attacks, a.attacker ∈ arguments ∧ a.target ∈ arguments := by
  refine ⟨declared_of_undeclared_eq_nil, fun h => List.eq_nil_iff_forall_not_mem.2 ?_⟩
  intro name listed
  obtain ⟨⟨a, ha, rfl | rfl⟩, out⟩ := mem_undeclared.1 listed
  · exact out (h a ha).1
  · exact out (h a ha).2

/-- What can be made is what is well-formed. -/
theorem make_eq_ok_iff {attacks : List Attack} :
    make names attacks = .ok F ↔ F.arguments = distinct names ∧ F.attacks = attacks := by
  constructor
  · intro h
    rw [make] at h
    by_cases some_left : distinct names = []
    · rw [dif_pos some_left] at h
      exact nomatch h
    · by_cases all_declared : undeclared (distinct names) attacks = []
      · rw [dif_neg some_left, dif_pos all_declared] at h
        cases h
        exact ⟨rfl, rfl⟩
      · rw [dif_neg some_left, dif_neg all_declared] at h
        exact nomatch h
  · rintro ⟨arguments, rfl⟩
    have some_left : distinct names ≠ [] := arguments ▸ F.arguments_ne_nil
    have all_declared : undeclared (distinct names) F.attacks = [] :=
      undeclared_eq_nil_iff.2 (arguments ▸ F.declared)
    rw [make, dif_neg some_left, dif_pos all_declared]
    cases F
    cases arguments
    rfl

/-- A framework can be made of an argument or more and attacks between them. -/
theorem exists_make {attacks : List Attack} (some_left : names ≠ [])
    (declared : ∀ e ∈ attacks, e.attacker ∈ names ∧ e.target ∈ names) :
    ∃ F, make names attacks = .ok F := by
  let F : Framework :=
    { arguments := distinct names
      attacks := attacks
      arguments_ne_nil := fun h => some_left (distinct_eq_nil.1 h)
      nodup := nodup_distinct names
      declared := fun e he => by simpa using declared e he }
  exact ⟨F, make_eq_ok_iff.2 ⟨rfl, rfl⟩⟩

theorem ofNames_eq_ok_iff {attacks : List Attack.Given} :
    ofNames names attacks = .ok F ↔
      F.arguments = distinct names ∧ attacks.mapM Attack.Given.read = .ok F.attacks := by
  cases names with
  | nil => exact ⟨fun h => (nomatch h), fun h => absurd h.1 F.arguments_ne_nil⟩
  | cons name names =>
      show ((do
        let given ← (attacks.mapM Attack.Given.read).mapError GraphFault.attack
        (make (name :: names) given).mapError GraphFault.framework) = Except.ok F) ↔ _
      simp only [bind_eq_ok_iff, mapError_eq_ok_iff, make_eq_ok_iff]
      constructor
      · rintro ⟨given, read, arguments, rfl⟩
        exact ⟨arguments, read⟩
      · exact fun ⟨arguments, read⟩ => ⟨F.attacks, read, arguments, rfl⟩

/-! ### Faults of frameworks -/

theorem make_eq_error_iff {attacks : List Attack} {fault : FrameworkFault} :
    make names attacks = .error fault ↔
      names = [] ∧ fault = .noArguments ∨
      names ≠ [] ∧ undeclared (distinct names) attacks ≠ [] ∧
        fault = .undeclared (undeclared (distinct names) attacks) := by
  rw [make]
  by_cases none_left : names = []
  · rw [dif_pos (distinct_eq_nil.2 none_left), Except.error.injEq]
    simp only [none_left, true_and, ne_eq, not_true_eq_false, false_and, or_false]
    exact eq_comm
  · rw [dif_neg (mt distinct_eq_nil.1 none_left)]
    by_cases all_declared : undeclared (distinct names) attacks = []
    · rw [dif_pos all_declared]
      simp [none_left, all_declared]
    · rw [dif_neg all_declared, Except.error.injEq]
      simp only [none_left, false_and, false_or, ne_eq, not_false_eq_true, all_declared, true_and]
      exact eq_comm

/-- The form of the attacks is judged before what they name. -/
theorem ofNames_eq_error_iff {attacks : List Attack.Given} {fault : GraphFault}
    (some_left : names ≠ []) :
    ofNames names attacks = .error fault ↔
      (∃ f, attacks.mapM Attack.Given.read = .error f ∧ fault = .attack f) ∨
      ∃ given, attacks.mapM Attack.Given.read = .ok given ∧
        undeclared (distinct names) given ≠ [] ∧
        fault = .framework (.undeclared (undeclared (distinct names) given)) := by
  cases names with
  | nil => exact absurd rfl some_left
  | cons name names =>
      show ((do
        let given ← (attacks.mapM Attack.Given.read).mapError GraphFault.attack
        (make (name :: names) given).mapError GraphFault.framework) = Except.error fault) ↔ _
      simp only [bind_eq_error_iff, mapError_eq_error_iff, mapError_eq_ok_iff, make_eq_error_iff]
      refine or_congr (exists_congr fun f => and_congr_right fun _ => eq_comm) ?_
      refine exists_congr fun given => and_congr_right fun _ => ?_
      constructor
      · rintro ⟨f, ⟨none_left, -⟩ | ⟨-, left, rfl⟩, rfl⟩
        · exact absurd none_left some_left
        · exact ⟨left, rfl⟩
      · rintro ⟨left, rfl⟩
        exact ⟨_, .inr ⟨some_left, left, rfl⟩, rfl⟩

theorem restrict_eq_ok_iff :
    F.restrict names = .ok G ↔ G.arguments = distinct names ∧
      G.attacks = F.attacks.filter fun e => names.contains e.attacker && names.contains e.target :=
  make_eq_ok_iff

/-- A framework can be cut down to any of its arguments, as long as one is left. -/
theorem exists_restrict (F : Framework) (some_left : names ≠ []) :
    ∃ G, F.restrict names = .ok G :=
  exists_make some_left fun e he => by simpa using (List.mem_filter.1 he).2

end Framework

end Argumentation
