import Argumentation.Proofs.Canonical
import Argumentation.Proofs.Construction
import Argumentation.Timeline.Plan

/-!
# Argumentation.Proofs.Appearance

When arguments appear, and which of them are visible at a step.

The order of a plan is a stable sort of the arguments by their steps, so it runs by step and among
arguments of one step by their first declarations (`Plan.Made.order_precedes`). The place at which a
step would go is found by halving; the loop keeps the invariant `Timeline.Bounds`. What stands
before that place are the arguments that have appeared (`Plan.Made.visibleAt_eq`), so more of them
are a continuation of fewer.
-/

namespace Argumentation

namespace Timeline

/-! ### The steps of arguments -/

theorem stepsFrom_map_fst (numbered : Bool) (current : Int) (ds : List Declaration) :
    (stepsFrom numbered current ds).map (·.1) = ds.map Declaration.id := by
  induction ds generalizing current with
  | nil => rfl
  | cons d ds ih => simp [stepsFrom, ih]

/-- The first entries are those of the keys without repetitions. -/
theorem firstEntries_map_fst (entries : List (String × Int)) :
    (firstEntries entries).map (·.1) = distinct (entries.map (·.1)) := by
  match entries with
  | [] => rfl
  | e :: entries =>
    rw [firstEntries_cons, List.map_cons, firstEntries_map_fst, List.map_cons, distinct, distinct,
      List.eraseDups_cons, List.filter_map]
    rfl
termination_by entries.length
decreasing_by
  exact Nat.lt_succ_of_le (List.length_filter_le _ entries)

/-- Every declared argument has a step, and no other one. -/
theorem resolveSteps_map_fst (ds : List Declaration) :
    (resolveSteps ds).map (·.1) = distinct (ds.map Declaration.id) := by
  rw [resolveSteps, firstEntries_map_fst, stepsFrom_map_fst]

theorem exists_mem_resolveSteps {ds : List Declaration} {a : String} :
    (∃ s, (a, s) ∈ resolveSteps ds) ↔ ∃ d ∈ ds, d.id = a := by
  have names : a ∈ (resolveSteps ds).map (·.1) ↔ ∃ d ∈ ds, d.id = a := by
    rw [resolveSteps_map_fst, mem_distinct, List.mem_map]
  rw [← names]
  simp

/-- An argument has one step only. -/
theorem eq_of_mem_resolveSteps {ds : List Declaration} {a : String} {s t : Int}
    (hs : (a, s) ∈ resolveSteps ds) (ht : (a, t) ∈ resolveSteps ds) : s = t := by
  have keys : ((resolveSteps ds).map (·.1)).Nodup := by
    rw [resolveSteps_map_fst]
    exact nodup_distinct _
  exact congrArg Prod.snd (List.inj_on_of_nodup_map keys hs ht rfl)

/-- The argument `a` appears before `b`: at an earlier step, or at the same step but with an earlier
first declaration. -/
def Precedes (ds : List Declaration) (a b : String) : Prop :=
  ∃ s t, (a, s) ∈ resolveSteps ds ∧ (b, t) ∈ resolveSteps ds ∧
    (s < t ∨ s = t ∧ (ds.map Declaration.id).idxOf a < (ds.map Declaration.id).idxOf b)

/-! ### The place of a step -/

variable {xs : Array Int} {x : Int} {low high : Nat}

/-- No member is smaller than one before it. -/
def Rising (xs : Array Int) : Prop := ∀ i j (hj : j < xs.size) (hij : i ≤ j), xs[i] ≤ xs[j]

theorem rising_toArray {xs : List Int} (h : xs.Pairwise (· ≤ ·)) : Rising xs.toArray := by
  intro i j hj hij
  rcases hij.eq_or_lt with rfl | lt
  · exact le_rfl
  · exact List.pairwise_iff_getElem.1 h i j (lt.trans hj) hj lt

/-- The place for `x` in a rising sequence lies between `low` and `high`. -/
structure Bounds (xs : Array Int) (x : Int) (low high : Nat) : Prop where
  ordered : low ≤ high
  inside : high ≤ xs.size
  before : ∀ i (h : i < xs.size), i < low → xs[i] ≤ x
  behind : ∀ i (h : i < xs.size), high ≤ i → x < xs[i]

theorem Bounds.whole (xs : Array Int) (x : Int) : Bounds xs x 0 xs.size :=
  ⟨Nat.zero_le _, le_rfl, fun i _ lt => absurd lt (Nat.not_lt_zero i),
    fun _ h le => absurd h (not_lt.2 le)⟩

/-- If the member in the middle is greater, the place is in front of it. -/
theorem Bounds.front (h : Bounds xs x low high) (rising : Rising xs) (apart : low < high)
    (middle : (low + high) / 2 < xs.size) (hx : x < xs[(low + high) / 2]) :
    Bounds xs x low ((low + high) / 2) := by
  refine ⟨by omega, by omega, h.before, fun i hi le => ?_⟩
  exact lt_of_lt_of_le hx (rising _ i hi le)

/-- If the member in the middle is not greater, the place is behind it. -/
theorem Bounds.back (h : Bounds xs x low high) (rising : Rising xs) (apart : low < high)
    (middle : (low + high) / 2 < xs.size) (hx : xs[(low + high) / 2] ≤ x) :
    Bounds xs x ((low + high) / 2 + 1) high := by
  refine ⟨by omega, h.inside, fun i hi lt => ?_, h.behind⟩
  exact le_trans (rising i _ middle (Nat.le_of_lt_succ lt)) hx

/-- The loop ends where the bounds meet. -/
theorem Bounds.bisect (h : Bounds xs x low high) (rising : Rising xs) :
    Bounds xs x (bisect xs x low high h.inside) (bisect xs x low high h.inside) := by
  have inside := h.inside
  induction low, high, inside using Timeline.bisect.induct xs x with
  | case1 low high inside apart less ih =>
      rw [Timeline.bisect, dif_pos apart, if_pos less]
      exact ih (h.front rising apart (by omega) less)
  | case2 low high inside apart notLess ih =>
      rw [Timeline.bisect, dif_pos apart, if_neg notLess]
      exact ih (h.back rising apart (by omega) (not_lt.1 notLess))
  | case3 low high inside met =>
      have same : low = high := le_antisymm h.ordered (not_lt.1 met)
      rw [Timeline.bisect, dif_neg met]
      exact ⟨le_rfl, h.ordered.trans inside, h.before, same ▸ h.behind⟩

theorem bounds_bisectRight (rising : Rising xs) :
    Bounds xs x (bisectRight xs x) (bisectRight xs x) :=
  (Bounds.whole xs x).bisect rising

/-- A front part whose members have a property is all of the members with it, if those behind do not
have it. -/
theorem take_eq_filter {α : Type} {p : α → Bool} {entries : List α} {n : Nat}
    (before : ∀ e ∈ entries.take n, p e = true) (behind : ∀ e ∈ entries.drop n, ¬ p e = true) :
    entries.take n = entries.filter p := by
  conv_rhs => rw [← List.take_append_drop n entries]
  rw [List.filter_append, List.filter_eq_self.2 before, List.filter_eq_nil_iff.2 behind,
    List.append_nil]

/-- In a sequence of entries with rising numbers, those before the place of `x` are the ones with a
number up to `x`. -/
theorem take_bisectRight {α : Type} {number : α → Int} {entries : List α}
    (rising : (entries.map number).Pairwise (· ≤ ·)) :
    entries.take (bisectRight (entries.map number).toArray x) =
      entries.filter fun e => decide (number e ≤ x) := by
  have place := bounds_bisectRight (x := x) (rising_toArray rising)
  refine take_eq_filter (fun e he => ?_) fun e he => ?_
  · obtain ⟨i, hi, rfl⟩ := List.mem_take_iff_getElem.1 he
    have := place.before i (by simp; omega) (by omega)
    simpa using this
  · obtain ⟨i, hi, rfl⟩ := List.mem_drop_iff_getElem.1 he
    have := place.behind (bisectRight (entries.map number).toArray x + i) (by simp; omega)
      (Nat.le_add_right _ _)
    simpa using this

end Timeline

namespace Plan

open Timeline

variable {ds : List Declaration} {given : List Attack} {limit : Int} {p : Plan}

/-! ### Plans that are made -/

/-- What a plan of the declarations `ds` and the attacks `given` holds. -/
structure Made (ds : List Declaration) (given : List Attack) (limit : Int) (p : Plan) : Prop where
  arguments : p.framework.arguments = (resolveSteps ds).map (·.1)
  attacks : p.framework.attacks = given
  size : p.framework.size ≤ limit
  order : p.order = (resolveSteps ds).mergeSort fun e f => decide (e.2 ≤ f.2)

/-- A plan is made of declarations and attacks that can all be read. -/
theorem exists_made {declarations : List Declared} {attacks : List Attack.Given}
    (h : ofDeclared declarations attacks limit = .ok p) :
    ∃ ds given, declarations.mapM Declared.read = .ok ds ∧
      attacks.mapM Attack.Given.read = .ok given ∧ Made ds given limit p := by
  obtain ⟨ds, read, h⟩ := bind_eq_ok_iff.1 h
  cases ds with
  | nil => exact nomatch h
  | cons d rest =>
      obtain ⟨F, framework, h⟩ := bind_eq_ok_iff.1 h
      obtain ⟨⟨⟩, small, h⟩ := bind_eq_ok_iff.1 h
      obtain ⟨arguments, attacks_read⟩ :=
        Framework.ofNames_eq_ok_iff.1 (mapError_eq_ok_iff.1 framework)
      cases h
      refine ⟨d :: rest, F.attacks, mapError_eq_ok_iff.1 read, attacks_read, ?_, rfl, ?_, rfl⟩
      · rw [arguments, resolveSteps_map_fst]
        exact distinct_eq_self (nodup_distinct _)
      · exact Framework.checkSize_eq_ok_iff.1 (mapError_eq_ok_iff.1 small)

namespace Made

theorem mem_order (h : Made ds given limit p) {e : String × Int} :
    e ∈ p.order ↔ e ∈ resolveSteps ds := by
  rw [h.order, List.mem_mergeSort]

/-- The order is sorted by steps, and arguments of one step stay as they are declared. -/
theorem order_pairwise (h : Made ds given limit p) :
    p.order.Pairwise fun e f => e.2 ≤ f.2 ∧ (f.2 ≤ e.2 →
      (ds.map Declaration.id).idxOf e.1 < (ds.map Declaration.id).idxOf f.1) := by
  have declared : (resolveSteps ds).Pairwise fun e f =>
      (ds.map Declaration.id).idxOf e.1 < (ds.map Declaration.id).idxOf f.1 := by
    have names := pairwise_idxOf_distinct (ds.map Declaration.id)
    rwa [← resolveSteps_map_fst, List.pairwise_map] at names
  rw [h.order]
  refine (pairwise_mergeSort_stable (fun d e f => ?_) (fun e f => ?_) declared).imp
    fun {e f} => ?_
  · simpa using le_trans
  · simpa using le_total e.2 f.2
  · simp

theorem order_rising (h : Made ds given limit p) : (p.order.map (·.2)).Pairwise (· ≤ ·) :=
  List.pairwise_map.2 (h.order_pairwise.imp fun h => h.1)

theorem order_precedes (h : Made ds given limit p) :
    (p.order.map (·.1)).Pairwise (Precedes ds) := by
  refine List.pairwise_map.2 (h.order_pairwise.imp_of_mem fun {e f} he hf between => ?_)
  refine ⟨e.2, f.2, h.mem_order.1 he, h.mem_order.1 hf, ?_⟩
  exact between.1.lt_or_eq.imp_right fun same => ⟨same, between.2 same.ge⟩

/-- The order has each argument once. -/
theorem order_perm (h : Made ds given limit p) :
    (p.order.map (·.1)).Perm p.framework.arguments := by
  rw [h.arguments, h.order]
  exact (List.mergeSort_perm _ _).map _

/-! ### What is visible at a step -/

variable {s t : Int}

/-- The arguments that are visible at a step are those with a step up to it. -/
theorem visibleAt_eq (h : Made ds given limit p) (s : Int) :
    p.visibleAt s = (p.order.filter fun e => decide (e.2 ≤ s)).map (·.1) := by
  rw [visibleAt, ← List.map_take, take_bisectRight h.order_rising]

theorem mem_visibleAt (h : Made ds given limit p) {a : String} :
    a ∈ p.visibleAt s ↔ ∃ t ≤ s, (a, t) ∈ resolveSteps ds := by
  simp only [h.visibleAt_eq, List.mem_map, List.mem_filter, decide_eq_true_eq, h.mem_order]
  constructor
  · rintro ⟨e, ⟨he, le⟩, rfl⟩
    exact ⟨e.2, le, he⟩
  · rintro ⟨t, le, ht⟩
    exact ⟨(a, t), ⟨ht, le⟩, rfl⟩

/-- Later steps have the same arguments first. -/
theorem visibleAt_prefix_of_le (h : Made ds given limit p) (le : s ≤ t) :
    p.visibleAt s <+: p.visibleAt t := by
  refine List.prefix_of_prefix_length_le (List.take_prefix _ _) (List.take_prefix _ _) ?_
  rw [h.visibleAt_eq, h.visibleAt_eq]
  refine ((List.monotone_filter_right _ fun e he => ?_).map _).length_le
  exact decide_eq_true (le_trans (of_decide_eq_true he) le)

theorem visibleAt_nodup (h : Made ds given limit p) (s : Int) : (p.visibleAt s).Nodup :=
  (h.order_perm.nodup_iff.2 p.framework.nodup).sublist (List.take_sublist _ _)

theorem visibleAt_length_le (h : Made ds given limit p) (s : Int) :
    (p.visibleAt s).length ≤ p.framework.size :=
  (List.take_sublist _ _).length_le.trans h.order_perm.length_eq.le

end Made

/-! ### The steps of a plan -/

theorem stepNumbers_rising (p : Plan) : p.stepNumbers.Pairwise (· < ·) :=
  pairwise_lt_canonicalBy _

theorem Made.mem_stepNumbers (h : Made ds given limit p) {s : Int} :
    s ∈ p.stepNumbers ↔ ∃ a, (a, s) ∈ resolveSteps ds := by
  simp only [stepNumbers, mem_canonicalBy, List.mem_map, h.mem_order]
  constructor
  · rintro ⟨e, he, rfl⟩
    exact ⟨e.1, he⟩
  · rintro ⟨a, ha⟩
    exact ⟨(a, s), ha, rfl⟩

theorem Made.stepNumbers_ne_nil (h : Made ds given limit p) : p.stepNumbers ≠ [] := by
  obtain ⟨a, ha⟩ := List.exists_mem_of_ne_nil _ p.framework.arguments_ne_nil
  rw [h.arguments] at ha
  obtain ⟨e, he, rfl⟩ := List.mem_map.1 ha
  exact List.ne_nil_of_mem (h.mem_stepNumbers.2 ⟨e.1, he⟩)

/-- A plan has a last step, and no step of it is greater. -/
theorem Made.exists_greatest (h : Made ds given limit p) :
    ∃ s, p.stepNumbers.getLast? = some s ∧ ∀ t ∈ p.stepNumbers, t ≤ s := by
  have rising := stepNumbers_rising p
  rcases List.eq_nil_or_concat' p.stepNumbers with nothing | ⟨before, s, split⟩
  · exact absurd nothing h.stepNumbers_ne_nil
  rw [split] at rising ⊢
  refine ⟨s, List.getLast?_concat .., fun t ht => ?_⟩
  rcases List.mem_append.1 ht with earlier | last
  · exact ((List.pairwise_append.1 rising).2.2 t earlier s (by simp)).le
  · exact (List.mem_singleton.1 last).le

/-- At each step of a plan something is visible, so the framework can be cut down to it. -/
theorem Made.exists_restrict (h : Made ds given limit p) {s : Int} (hs : s ∈ p.stepNumbers) :
    ∃ F, p.framework.restrict (p.visibleAt s) = .ok F := by
  obtain ⟨a, ha⟩ := h.mem_stepNumbers.1 hs
  exact p.framework.exists_restrict (List.ne_nil_of_mem (h.mem_visibleAt.2 ⟨s, le_rfl, ha⟩))

theorem Made.arguments_restrict (h : Made ds given limit p) {s : Int} {F : Framework}
    (visible : p.framework.restrict (p.visibleAt s) = .ok F) : F.arguments = p.visibleAt s := by
  rw [(Framework.restrict_eq_ok_iff.1 visible).1, distinct_eq_self (h.visibleAt_nodup s)]

/-- Only the size of the whole framework is checked, and no part of it has more arguments. -/
theorem Made.size_restrict_le (h : Made ds given limit p) {s : Int} {F : Framework}
    (visible : p.framework.restrict (p.visibleAt s) = .ok F) : F.size ≤ limit := by
  have fewer : F.size ≤ p.framework.size := by
    rw [Framework.size, h.arguments_restrict visible]
    exact h.visibleAt_length_le s
  exact (Int.ofNat_le.2 fewer).trans h.size

theorem snapshots_eq_ok_iff {snapshots : List (Int × Framework)} :
    p.snapshots = .ok snapshots ↔
      List.Forall₂ (fun s snapshot => snapshot.1 = s ∧
        p.framework.restrict (p.visibleAt s) = .ok snapshot.2) p.stepNumbers snapshots := by
  rw [Plan.snapshots, mapM_eq_ok_iff]
  refine iff_of_eq (congrFun (congrFun (congrArg List.Forall₂ ?_) _) _)
  funext s ⟨t, F⟩
  cases p.framework.restrict (p.visibleAt s) with
  | error fault => simp [Except.map]
  | ok G => simp [Except.map, eq_comm]

end Plan

end Argumentation
