import Argumentation.Proofs.Placement

/-!
# Argumentation.Proofs.Visibility

What a plan shows at a step, whatever whole number the step is. A plan keeps its arguments in the
order in which they appear, and what has appeared by a step is cut off at the place at which the step
would go. So it is always a front part of the order, and a step between two steps of the plan shows
what the earlier one of them shows. The last step of the plan shows everything.
-/

namespace Argumentation

open Timeline

namespace Plan

variable {declarations : List Declared} {attacks : List Attack.Given} {limit : Int}
  {ds : List Declaration} {given : List Attack} {p : Plan} {a : String}

/-! ### The arguments of a plan -/

theorem Made.mem_arguments (h : p.Made ds given limit) :
    a ∈ p.framework.arguments ↔ ∃ d ∈ ds, d.id = a := by
  rw [h.arguments, resolveSteps_map_fst, mem_distinct, List.mem_map]

/-- The roots that a plan names are arguments, and so are those that stand in for a root. -/
theorem Made.roots_declared (h : p.Made ds given limit) (marked : p.Marked ds) :
    ∀ a ∈ p.first :: p.last :: (p.top ++ p.bottom), a ∈ p.framework.arguments := by
  have first : p.first ∈ p.framework.arguments := by
    obtain ⟨d, hd, same⟩ := Option.map_eq_some_iff.1 marked.first
    exact h.mem_arguments.2 ⟨d, List.mem_of_head? hd, same⟩
  have last : p.last ∈ p.framework.arguments := by
    obtain ⟨d, hd, same⟩ := Option.map_eq_some_iff.1 marked.last
    exact h.mem_arguments.2 ⟨d, List.mem_of_getLast? hd, same⟩
  have of_marks {marks : Declaration → Bool} {a : String}
      (ha : a ∈ distinct ((ds.filter marks).map Declaration.id)) : a ∈ p.framework.arguments := by
    obtain ⟨d, hd, -, same⟩ := mem_distinct_marked.1 ha
    exact h.mem_arguments.2 ⟨d, hd, same⟩
  intro a ha
  rw [List.mem_cons, List.mem_cons, List.mem_append, marked.top, marked.bottom] at ha
  rcases ha with rfl | rfl | top | bottom
  · exact first
  · exact last
  · exact of_marks top
  · exact of_marks bottom

/-! ### The order of a plan -/

/-- By a step that is not before any step of the plan, everything has appeared. -/
theorem Made.visibleAt_eq_order (h : p.Made ds given limit) {s : Int}
    (greatest : ∀ t ∈ p.stepNumbers, t ≤ s) : p.visibleAt s = p.order.map (·.1) := by
  rw [h.visibleAt_eq, List.filter_eq_self.2 fun e he => ?_]
  exact decide_eq_true (greatest _ (h.mem_stepNumbers.2 ⟨e.1, h.mem_order.1 he⟩))

/-- What a plan of the declarations `ds` shows at the steps. -/
structure Unfolds (ds : List Declaration) (p : Plan) : Prop where
  /-- By a step, the arguments with a step up to it have appeared. -/
  mem_visibleAt : ∀ s a, a ∈ p.visibleAt s ↔ ∃ t ≤ s, (a, t) ∈ resolveSteps ds
  visibleAt_nodup : ∀ s, (p.visibleAt s).Nodup
  /-- They stand in the order of their steps, those of one step in that of their declarations. -/
  visibleAt_ordered : ∀ s, (p.visibleAt s).Pairwise (Precedes ds)
  visibleAt_front : ∀ s, p.visibleAt s <+: p.order.map (·.1)
  visibleAt_growing : ∀ s t, s ≤ t → p.visibleAt s <+: p.visibleAt t
  order_perm : (p.order.map (·.1)).Perm p.framework.arguments
  order_rising : (p.order.map (·.2)).Pairwise (· ≤ ·)
  /-- The order gives each argument its step. -/
  mem_order : ∀ e ∈ p.order, e ∈ resolveSteps ds
  /-- By the greatest step everything has appeared. -/
  last : ∃ s, p.stepNumbers.getLast? = some s ∧ (∀ t ∈ p.stepNumbers, t ≤ s) ∧
    p.visibleAt s = p.order.map (·.1)
  roots_declared : ∀ a ∈ p.first :: p.last :: (p.top ++ p.bottom), a ∈ p.framework.arguments

/-- **What is visible at a step is a front part of the order**, and exactly what has appeared by it,
for the steps of the plan and for all others. -/
theorem ofDeclared_unfolds (h : ofDeclared declarations attacks limit = .ok p) :
    ∃ ds, declarations.mapM Declared.read = .ok ds ∧ Unfolds ds p := by
  obtain ⟨ds, given, read, -, made⟩ := exists_made h
  obtain ⟨s, last, greatest⟩ := made.exists_greatest
  refine ⟨ds, read, ?_⟩
  exact {
    mem_visibleAt := fun s a => made.mem_visibleAt
    visibleAt_nodup := made.visibleAt_nodup
    visibleAt_ordered := fun s => made.order_precedes.sublist (List.take_sublist _ _)
    visibleAt_front := fun s => List.take_prefix _ _
    visibleAt_growing := fun s t le => made.visibleAt_prefix_of_le le
    order_perm := made.order_perm
    order_rising := made.order_rising
    mem_order := fun e he => made.mem_order.1 he
    last := ⟨s, last, greatest, made.visibleAt_eq_order greatest⟩
    roots_declared := made.roots_declared (marked h read) }

theorem untimely_unfolds : ∃ p, ofDeclared untimely rejoinders 20 = .ok p ∧
    ∃ ds, untimely.mapM Declared.read = .ok ds ∧ Unfolds ds p := by
  have planned : (ofDeclared untimely rejoinders 20).toBool = true := by decide +kernel
  cases h : ofDeclared untimely rejoinders 20 with
  | error fault => rw [h] at planned; exact nomatch planned
  | ok p => exact ⟨p, rfl, ofDeclared_unfolds h⟩

end Plan

end Argumentation
