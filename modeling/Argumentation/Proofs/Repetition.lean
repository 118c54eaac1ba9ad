import Argumentation.Proofs.Placement
import Argumentation.Proofs.Refusal

/-!
# Argumentation.Proofs.Repetition

What becomes of a framework when the bare declarations of arguments that have been declared before
are left out. Nothing is judged differently, and the arguments still appear together in the same
groups and in the same order, so the frameworks of the stages are the same, with their extensions
and their ranks from the top.

Two things can tell that a declaration is missing. Where no declaration gives a step, the
declarations count the steps, the repeated ones too: the stages are the same, but their numbers may
differ (`Timeline.Settled` says when they do not). And where no declaration marks a root from the
bottom, it is the last declaration that stands in, which may be one that is left out.
-/

namespace Argumentation

open Timeline

variable {declarations : List Declared} {attacks : List Attack.Given} {limit : Int}
  {ds ds' : List Declaration} {known : List String} {given : List Attack} {p p' : Plan}

/-! ### Leaving declarations out -/

/-- Whether the declaration gives the name alone. -/
def Declaration.isBare : Declaration → Bool
  | .bare _ => true
  | .tagged _ _ => false

/-- A bare declaration has no tags, so it neither gives a step nor marks a root. -/
theorem Declaration.tags_eq_nil {d : Declaration} (bare : d.isBare = true) : d.tags = [] := by
  cases d with
  | bare id => rfl
  | tagged id tags => exact nomatch bare

/-- The declarations without the bare ones whose argument is `known` or has been declared before.
What cannot be read stays. -/
def withoutRepeats (known : List String) : List Declared → List Declared
  | [] => []
  | d :: rest =>
    match d.read with
    | .error _ => d :: withoutRepeats known rest
    | .ok x =>
      if x.isBare && known.contains x.id then withoutRepeats known rest
      else d :: withoutRepeats (x.id :: known) rest

/-- Bare declarations have been left out whose argument is `known` or is declared before. -/
inductive Thinned : List String → List Declaration → List Declaration → Prop where
  | nil {known : List String} : Thinned known [] []
  | keep {known : List String} {d : Declaration} {ds ds' : List Declaration}
      (rest : Thinned (d.id :: known) ds ds') : Thinned known (d :: ds) (d :: ds')
  | drop {known : List String} {d : Declaration} {ds ds' : List Declaration}
      (bare : d.isBare = true) (again : d.id ∈ known) (rest : Thinned known ds ds') :
      Thinned known (d :: ds) ds'

/-- The first declaration that cannot be read is still there. -/
theorem withoutRepeats_eq_error {fault : DeclarationFault} (known : List String)
    (bad : declarations.mapM Declared.read = .error fault) :
    (withoutRepeats known declarations).mapM Declared.read = .error fault := by
  induction declarations generalizing known with
  | nil => exact nomatch bad
  | cons d rest ih =>
      rw [List.mapM_cons, bind_eq_error_iff] at bad
      rw [withoutRepeats]
      rcases bad with here | ⟨x, here, later⟩
      · rw [here, List.mapM_cons, here]
        rfl
      · replace later : rest.mapM Declared.read = .error fault := by
          rcases bind_eq_error_iff.1 later with later | ⟨_, _, done⟩
          · exact later
          · exact nomatch done
        simp only [here]
        split
        · exact ih known later
        · rw [List.mapM_cons, here]
          exact bind_eq_error_iff.2 (.inr ⟨x, rfl, bind_eq_error_iff.2 (.inl (ih _ later))⟩)

theorem withoutRepeats_eq_ok (known : List String)
    (read : declarations.mapM Declared.read = .ok ds) :
    ∃ ds', (withoutRepeats known declarations).mapM Declared.read = .ok ds' ∧
      Thinned known ds ds' := by
  induction declarations generalizing known ds with
  | nil =>
      cases read
      exact ⟨[], rfl, .nil⟩
  | cons d rest ih =>
      rw [List.mapM_cons] at read
      obtain ⟨x, here, read⟩ := bind_eq_ok_iff.1 read
      obtain ⟨xs, later, done⟩ := bind_eq_ok_iff.1 read
      cases done
      simp only [withoutRepeats, here]
      split
      · next repeats =>
        obtain ⟨bare, again⟩ := Bool.and_eq_true_iff.1 repeats
        obtain ⟨ds', read', thinned⟩ := ih known later
        exact ⟨ds', read', .drop bare (List.contains_iff_mem.1 again) thinned⟩
      · obtain ⟨ds', read', thinned⟩ := ih (x.id :: known) later
        refine ⟨x :: ds', ?_, .keep thinned⟩
        rw [List.mapM_cons, here]
        exact bind_eq_ok_iff.2 ⟨x, rfl, bind_eq_ok_iff.2 ⟨ds', read', rfl⟩⟩

/-! ### What declarations say without their repetitions -/

namespace Thinned

/-- What no bare declaration has is had by the same declarations. -/
theorem filter_eq (h : Thinned known ds ds') {has : Declaration → Bool}
    (silent : ∀ d, d.isBare = true → has d = false) : ds.filter has = ds'.filter has := by
  induction h with
  | nil => rfl
  | keep _ ih => rw [List.filter_cons, List.filter_cons, ih]
  | @drop _ d _ _ bare _ _ ih => rw [List.filter_cons, silent d bare, if_neg Bool.false_ne_true, ih]

theorem any_eq (h : Thinned known ds ds') {has : Declaration → Bool}
    (silent : ∀ d, d.isBare = true → has d = false) : ds.any has = ds'.any has := by
  have someone (ds : List Declaration) : ds.any has = !(ds.filter has).isEmpty := by
    induction ds with
    | nil => rfl
    | cons d ds ih => cases hd : has d <;> simp [hd, ih]
  rw [someone, someone, h.filter_eq silent]

theorem sublist (h : Thinned known ds ds') : ds'.Sublist ds := by
  induction h with
  | nil => exact .slnil
  | keep _ ih => exact ih.cons_cons _
  | drop _ _ _ ih => exact ih.cons _

/-- The first declaration repeats nothing. -/
theorem head?_eq (h : Thinned [] ds ds') : ds.head? = ds'.head? := by
  cases h with
  | nil => rfl
  | keep _ => rfl
  | drop _ again _ => exact absurd again List.not_mem_nil

end Thinned

/-! ### The steps of the arguments -/

namespace Timeline

/-- The entries whose keys are not `known`. -/
def unknown (known : List String) (entries : List (String × Int)) : List (String × Int) :=
  entries.filter fun e => !known.contains e.1

theorem unknown_cons_of_mem {e : String × Int} (h : e.1 ∈ known) (entries : List (String × Int)) :
    unknown known (e :: entries) = unknown known entries :=
  List.filter_cons_of_neg (by simpa using h)

theorem unknown_add_of_mem {id : String} (h : id ∈ known) (entries : List (String × Int)) :
    unknown (id :: known) entries = unknown known entries := by
  refine List.filter_congr fun e _ => ?_
  by_cases same : e.1 = id
  · simp [same, h]
  · simp [same]

theorem firstEntries_unknown_cons {e : String × Int} (h : e.1 ∉ known)
    (entries : List (String × Int)) :
    firstEntries (unknown known (e :: entries)) =
      e :: firstEntries (unknown (e.1 :: known) entries) := by
  have kept : unknown known (e :: entries) = e :: unknown known entries :=
    List.filter_cons_of_pos (by simpa using h)
  rw [kept, firstEntries_cons, unknown, unknown, List.filter_filter]
  refine congrArg (e :: firstEntries ·) (List.filter_congr fun f _ => ?_)
  rw [List.contains_cons, Bool.not_or]

/-- **Where declarations give steps, a bare repetition says nothing.** It neither sets the step in
force nor declares an argument. -/
theorem firstEntries_stepsFrom (h : Thinned known ds ds') (current : Int) :
    firstEntries (unknown known (stepsFrom true current ds)) =
      firstEntries (unknown known (stepsFrom true current ds')) := by
  induction h generalizing current with
  | nil => rfl
  | @keep known d ds ds' _ ih =>
      rw [stepsFrom, stepsFrom]
      by_cases again : d.id ∈ known
      · rw [unknown_cons_of_mem again, unknown_cons_of_mem again, ← unknown_add_of_mem again, ih,
          unknown_add_of_mem again]
      · rw [firstEntries_unknown_cons again, firstEntries_unknown_cons again, ih]
  | @drop known d ds ds' bare again _ ih =>
      have silent : d.step?.getD current = current := by
        simp [Declaration.step?, Declaration.tags_eq_nil bare]
      rw [stepsFrom, unknown_cons_of_mem again, ← ih]
      simp only [if_true, silent]

theorem unknown_nil (entries : List (String × Int)) : unknown [] entries = entries :=
  List.filter_eq_self.2 fun _ _ => rfl

/-- The same arguments are declared, in the same order. -/
theorem declaredNames_eq (h : Thinned [] ds ds') : declaredNames ds = declaredNames ds' := by
  have entries := congrArg (List.map (·.1)) (firstEntries_stepsFrom h 0)
  rw [declaredNames, declaredNames]
  simpa only [unknown_nil, firstEntries_map_fst, stepsFrom_map_fst] using entries

theorem any_step?_eq (h : Thinned [] ds ds') :
    (ds.any fun d => d.step?.isSome) = ds'.any fun d => d.step?.isSome :=
  h.any_eq fun d bare => by simp [Declaration.step?, Declaration.tags_eq_nil bare]

theorem resolveSteps_eq_of_numbered (h : Thinned [] ds ds')
    (numbered : (ds.any fun d => d.step?.isSome) = true) : resolveSteps ds = resolveSteps ds' := by
  have entries := firstEntries_stepsFrom h 0
  rw [resolveSteps, resolveSteps, ← any_step?_eq h, numbered]
  simpa only [unknown_nil] using entries

/-! ### Declarations that count the steps -/

theorem stepsFrom_append (numbered : Bool) (current : Int) (front back : List Declaration) :
    ∃ current', stepsFrom numbered current (front ++ back) =
      stepsFrom numbered current front ++ stepsFrom numbered current' back := by
  induction front generalizing current with
  | nil => exact ⟨current, rfl⟩
  | cons d front ih =>
      obtain ⟨current', same⟩ := ih (if numbered then d.step?.getD current else current + 1)
      exact ⟨current', congrArg (_ :: ·) same⟩

/-- Entries are no first ones if their keys have been there before. -/
theorem firstEntries_append (front back : List (String × Int))
    (again : ∀ f ∈ back, ∃ e ∈ front, e.1 = f.1) :
    firstEntries (front ++ back) = firstEntries front := by
  match front with
  | [] =>
    cases back with
    | nil => rfl
    | cons f back =>
        obtain ⟨e, he, -⟩ := again f List.mem_cons_self
        exact absurd he List.not_mem_nil
  | e :: front =>
    rw [List.cons_append, firstEntries_cons, firstEntries_cons, List.filter_append,
      firstEntries_append]
    intro f hf
    obtain ⟨hf, apart⟩ := List.mem_filter.1 hf
    obtain ⟨e', he', same⟩ := again f hf
    rcases List.mem_cons.1 he' with rfl | he'
    · simp [same] at apart
    · exact ⟨e', List.mem_filter.2 ⟨he', by rwa [same]⟩, same⟩
termination_by front.length
decreasing_by
  exact Nat.lt_succ_of_le (List.length_filter_le _ front)

/-- Nothing that has been left out stands in front of the first declaration of an argument. -/
def InBack (ds ds' : List Declaration) : Prop :=
  ∃ front back, ds = front ++ back ∧ front <+: ds' ∧ ∀ d ∈ back, ∃ e ∈ front, e.id = d.id

/-- What the declarations say of the numbers of the steps is all there without the repetitions: some
declaration gives a step, or nothing has been left out in front of an argument that is counted. -/
def Settled (ds ds' : List Declaration) : Prop := (∃ d ∈ ds, d.step?.isSome = true) ∨ InBack ds ds'

theorem resolveSteps_append {front back : List Declaration}
    (counted : ((front ++ back).any fun d => d.step?.isSome) = false)
    (again : ∀ d ∈ back, ∃ e ∈ front, e.id = d.id) :
    resolveSteps (front ++ back) = firstEntries (stepsFrom false 0 front) := by
  obtain ⟨current, split⟩ := stepsFrom_append false 0 front back
  rw [resolveSteps, counted, split]
  have keys (current : Int) (ds : List Declaration) (a : String) :
      (∃ e ∈ stepsFrom false current ds, e.1 = a) ↔ ∃ d ∈ ds, d.id = a := by
    have names := stepsFrom_map_fst false current ds
    rw [← List.mem_map, names, List.mem_map]
  refine firstEntries_append _ _ fun f hf => (keys 0 front f.1).2 ?_
  obtain ⟨d, hd, same⟩ := (keys current back f.1).1 ⟨f, hf, rfl⟩
  obtain ⟨e, he, here⟩ := again d hd
  exact ⟨e, he, here.trans same⟩

theorem resolveSteps_eq_of_settled (h : Thinned [] ds ds') (settled : Settled ds ds') :
    resolveSteps ds = resolveSteps ds' := by
  cases numbered : ds.any fun d => d.step?.isSome with
  | true => exact resolveSteps_eq_of_numbered h numbered
  | false =>
      rcases settled with ⟨d, hd, step⟩ | ⟨front, back, rfl, ⟨back', rfl⟩, again⟩
      · rw [List.any_eq_false] at numbered
        exact absurd step (numbered d hd)
      · have again' : ∀ d ∈ back', ∃ e ∈ front, e.id = d.id := by
          intro d hd
          rcases List.mem_append.1 (h.sublist.subset (List.mem_append_right _ hd)) with hd | hd
          · exact ⟨d, hd, rfl⟩
          · exact again d hd
        rw [resolveSteps_append numbered again,
          resolveSteps_append ((any_step?_eq h).symm.trans numbered) again']

/-- Each entry has a greater number than those before it. -/
def Counted (entries : List (String × Int)) : Prop := entries.Pairwise fun e f => e.2 < f.2

theorem counted_stepsFrom (current : Int) (ds : List Declaration) :
    Counted (stepsFrom false current ds) ∧ ∀ e ∈ stepsFrom false current ds, current < e.2 := by
  induction ds generalizing current with
  | nil => exact ⟨.nil, fun _ he => absurd he List.not_mem_nil⟩
  | cons d ds ih =>
      obtain ⟨rising, above⟩ := ih (current + 1)
      have next : current < current + 1 := Int.lt_succ current
      refine ⟨.cons above rising, List.forall_mem_cons.2 ⟨next, fun e he => ?_⟩⟩
      exact next.trans (above e he)

theorem firstEntries_sublist (entries : List (String × Int)) :
    (firstEntries entries).Sublist entries := by
  match entries with
  | [] => exact .slnil
  | e :: entries =>
    rw [firstEntries_cons]
    exact ((firstEntries_sublist _).trans List.filter_sublist).cons_cons e
termination_by entries.length
decreasing_by
  exact Nat.lt_succ_of_le (List.length_filter_le _ entries)

theorem counted_resolveSteps (counted : (ds.any fun d => d.step?.isSome) = false) :
    Counted (resolveSteps ds) := by
  rw [resolveSteps, counted]
  exact (counted_stepsFrom 0 ds).1.sublist (firstEntries_sublist _)

end Timeline

/-! ### What appears together -/

namespace Plan.Made

variable {stages : List Stage}

theorem order_eq_of_counted (h : p.Made ds given limit) (counted : Counted (resolveSteps ds)) :
    p.order = resolveSteps ds := by
  rw [h.order]
  exact List.mergeSort_of_pairwise (counted.imp fun lt => decide_eq_true lt.le)

theorem stepNumbers_eq_of_counted (h : p.Made ds given limit)
    (counted : Counted (resolveSteps ds)) : p.stepNumbers = (resolveSteps ds).map (·.2) := by
  refine (stepNumbers_rising p).eq_of_mem_iff (List.pairwise_map.2 counted) fun s => ?_
  rw [h.mem_stepNumbers]
  simp

/-- Arguments that are counted appear one by one. -/
theorem visibleAt_of_counted (h : p.Made ds given limit) (counted : Counted (resolveSteps ds))
    {i : Nat} (hi : i < (resolveSteps ds).length) :
    p.visibleAt (resolveSteps ds)[i].2 = (declaredNames ds).take (i + 1) := by
  have front : (resolveSteps ds).take (i + 1) =
      (resolveSteps ds).filter fun e => decide (e.2 ≤ (resolveSteps ds)[i].2) := by
    have rising := List.pairwise_iff_getElem.1 counted
    refine take_eq_filter (fun e he => ?_) fun e he => ?_
    · obtain ⟨j, hj, rfl⟩ := List.mem_take_iff_getElem.1 he
      rcases (show j ≤ i by omega).eq_or_lt with rfl | lt
      · simp
      · simpa using (rising j i _ hi lt).le
    · obtain ⟨j, hj, rfl⟩ := List.mem_drop_iff_getElem.1 he
      have later : i + 1 + j < (resolveSteps ds).length := by omega
      simpa using rising i (i + 1 + j) hi later (by omega)
  rw [h.visibleAt_eq, h.order_eq_of_counted counted, ← front, List.map_take, resolveSteps_map_fst]
  rfl

/-- The stages of arguments that are counted have one argument more each. -/
theorem arguments_of_counted (h : p.Made ds given limit) (counted : Counted (resolveSteps ds))
    (staged : Stage.ofPlan p limit = .ok stages) :
    stages.map (·.framework.arguments) =
      (List.range (declaredNames ds).length).map fun i => (declaredNames ds).take (i + 1) := by
  obtain ⟨steps, of⟩ := Stage.ofPlan_eq_ok staged
  rw [h.stepNumbers_eq_of_counted counted] at steps
  have names : (resolveSteps ds).length = (declaredNames ds).length := by
    rw [declaredNames, ← resolveSteps_map_fst, List.length_map]
  have length : stages.length = (resolveSteps ds).length := by
    simpa using congrArg List.length steps
  refine List.ext_getElem (by simp [length, names]) fun i hi hi' => ?_
  have here : i < stages.length := by simpa using hi
  have step : stages[i].step = (resolveSteps ds)[i].2 := by
    have same := List.getElem_of_eq steps (by simpa using here)
    rwa [List.getElem_map, List.getElem_map] at same
  rw [List.getElem_map, List.getElem_map, List.getElem_range,
    (of _ (List.getElem_mem here)).arguments_eq h, step, h.visibleAt_of_counted counted]

end Plan.Made

/-! ### Stages without the repetitions -/

/-- The stage `T` has what the stage `S` has. Its number may be another one where the repetitions
count, and so may its ranks from the bottom where the declaration that stands in is another one. -/
structure Collapsed (ds ds' : List Declaration) (S T : Stage) : Prop where
  step : Settled ds ds' → S.step = T.step
  framework : S.framework = T.framework
  extensions : S.extensions = T.extensions
  rankTop : S.rankTop = T.rankTop
  rankBottom : (∃ d ∈ ds, d.isBottom = true) ∨
    ds.getLast?.map Declaration.id = ds'.getLast?.map Declaration.id → S.rankBottom = T.rankBottom

/-- What stands in counts only where nothing is marked. -/
theorem Stage.ranks_congr {F : Framework} {marked : List String} {fallback fallback' : String}
    (h : marked ≠ [] ∨ fallback = fallback') :
    ranks F marked fallback = ranks F marked fallback' := by
  rcases h with some_marked | rfl
  · simp [ranks, List.isEmpty_eq_false_iff.2 some_marked]
  · rfl

/-- Stages with the same arguments. -/
theorem Thinned.collapsed (h : Thinned [] ds ds') {S T : Stage} (made : p.Made ds given limit)
    (made' : p'.Made ds' given limit) (marked : p.Marked ds) (marked' : p'.Marked ds')
    (hS : S.Of p limit) (hT : T.Of p' limit)
    (arguments : S.framework.arguments = T.framework.arguments)
    (step : Settled ds ds' → S.step = T.step) : Collapsed ds ds' S T := by
  have silent (d : Declaration) (bare : d.isBare = true) :
      d.isTop = false ∧ d.isBottom = false := by
    simp [Declaration.isTop, Declaration.isBottom, Declaration.tags_eq_nil bare]
  have framework : S.framework = T.framework := by
    refine Framework.eq_of_parts arguments ?_
    rw [hS.attacks_eq made, hT.attacks_eq made']
    simp only [Framework.contains, arguments]
  have top : p.top = p'.top := by
    rw [marked.top, marked'.top, h.filter_eq fun d bare => (silent d bare).1]
  have bottom : p.bottom = p'.bottom := by
    rw [marked.bottom, marked'.bottom, h.filter_eq fun d bare => (silent d bare).2]
  have first : p.first = p'.first := by
    have same := congrArg (Option.map Declaration.id) h.head?_eq
    rw [marked.first, marked'.first] at same
    exact Option.some.inj same
  refine ⟨step, framework, ?_, ?_, fun told => ?_⟩
  · rw [hS.extensions_eq made, hT.extensions_eq made', framework]
  · rw [hS.rankTop, hT.rankTop, framework, top, first]
  · rw [hS.rankBottom, hT.rankBottom, framework, ← bottom]
    refine Stage.ranks_congr (told.imp (fun someone => ?_) fun last => ?_)
    · rw [marked.bottom, Ne, distinct_eq_nil, List.map_eq_nil_iff, List.filter_eq_nil_iff]
      simpa using someone
    · rw [marked.last, marked'.last] at last
      exact Option.some.inj last

theorem forall₂_of_map_eq {α β γ : Type} {R : α → β → Prop} {f : α → γ} {g : β → γ} {xs : List α}
    {ys : List β} (same : xs.map f = ys.map g) (h : ∀ x ∈ xs, ∀ y ∈ ys, f x = g y → R x y) :
    List.Forall₂ R xs ys := by
  induction xs generalizing ys with
  | nil =>
      cases ys with
      | nil => exact .nil
      | cons y ys => exact nomatch same
  | cons x xs ih =>
      cases ys with
      | nil => exact nomatch same
      | cons y ys =>
          obtain ⟨here, rest⟩ := List.cons.inj same
          refine .cons (h x (by simp) y (by simp) here) (ih rest fun x hx y hy => ?_)
          exact h x (.tail _ hx) y (.tail _ hy)

/-- The stages of both plans, one by one. -/
theorem Thinned.forall₂_collapsed (h : Thinned [] ds ds') {stages stages' : List Stage}
    (made : p.Made ds given limit) (made' : p'.Made ds' given limit) (marked : p.Marked ds)
    (marked' : p'.Marked ds') (staged : Stage.ofPlan p limit = .ok stages)
    (staged' : Stage.ofPlan p' limit = .ok stages') :
    List.Forall₂ (Collapsed ds ds') stages stages' := by
  obtain ⟨steps, of⟩ := Stage.ofPlan_eq_ok staged
  obtain ⟨steps', of'⟩ := Stage.ofPlan_eq_ok staged'
  by_cases resolved : resolveSteps ds = resolveSteps ds'
  · -- the plans run alike, so stages with the same step have the same arguments
    have order : p.order = p'.order := by rw [made.order, made'.order, resolved]
    have same : stages.map (·.step) = stages'.map (·.step) := by
      rw [steps, steps', Plan.stepNumbers, Plan.stepNumbers, order]
    refine forall₂_of_map_eq same fun S hS T hT step => ?_
    refine h.collapsed made made' marked marked' (of S hS) (of' T hT) ?_ fun _ => step
    rw [(of S hS).arguments_eq made, (of' T hT).arguments_eq made', Plan.visibleAt, Plan.visibleAt,
      order, step]
  · -- the declarations count the steps, so each argument has a stage of its own
    have unsettled : ¬ Settled ds ds' :=
      fun settled => resolved (resolveSteps_eq_of_settled h settled)
    have counted : (ds.any fun d => d.step?.isSome) = false :=
      Bool.eq_false_iff.2 fun numbered => resolved (resolveSteps_eq_of_numbered h numbered)
    have same : stages.map (·.framework.arguments) = stages'.map (·.framework.arguments) := by
      rw [made.arguments_of_counted (counted_resolveSteps counted) staged,
        made'.arguments_of_counted
          (counted_resolveSteps ((any_step?_eq h).symm.trans counted)) staged', declaredNames_eq h]
    refine forall₂_of_map_eq same fun S hS T hT arguments => ?_
    exact h.collapsed made made' marked marked' (of S hS) (of' T hT) arguments
      fun settled => absurd settled unsettled

/-! ### The evolution without the repetitions -/

theorem Plan.ofDeclared_withoutRepeats_eq_error_iff {fault : PlanFault} :
    ofDeclared (withoutRepeats [] declarations) attacks limit = .error fault ↔
      ofDeclared declarations attacks limit = .error fault := by
  rw [ofDeclared, ofDeclared]
  cases read : declarations.mapM Declared.read with
  | error f => rw [withoutRepeats_eq_error [] read]
  | ok ds =>
      obtain ⟨ds', read', thinned⟩ := withoutRepeats_eq_ok [] read
      rw [read']
      show ofDeclarations ds' attacks limit = .error fault ↔
        ofDeclarations ds attacks limit = .error fault
      have head := thinned.head?_eq
      by_cases nothing : ds = []
      · subst nothing
        rw [List.head?_eq_none_iff.1 head.symm]
      · have something : ds' ≠ [] := by
          rintro rfl
          exact nothing (List.head?_eq_none_iff.1 head)
        rw [ofDeclarations_eq_error_iff nothing, ofDeclarations_eq_error_iff something,
          declaredNames_eq thinned]

/-- What comes of declarations when their bare repetitions are left out. -/
structure Collapses (declarations : List Declared) (attacks : List Attack.Given) (limit : Int) :
    Prop where
  refused : ∀ fault, evolve (withoutRepeats [] declarations) attacks limit = .error fault ↔
    evolve declarations attacks limit = .error fault
  evolved : ∀ stages, evolve declarations attacks limit = .ok stages →
    ∃ ds ds' stages', declarations.mapM Declared.read = .ok ds ∧
      (withoutRepeats [] declarations).mapM Declared.read = .ok ds' ∧
      evolve (withoutRepeats [] declarations) attacks limit = .ok stages' ∧
      List.Forall₂ (Collapsed ds ds') stages stages'

/-- **Repeated declarations collapse to the first one**, but for what the last declaration says and
for what is counted. -/
theorem evolve_collapses (declarations : List Declared) (attacks : List Attack.Given)
    (limit : Int) : Collapses declarations attacks limit := by
  have refused : ∀ fault, evolve (withoutRepeats [] declarations) attacks limit = .error fault ↔
      evolve declarations attacks limit = .error fault := fun fault => by
    rw [Plan.evolve_eq_error_iff, Plan.evolve_eq_error_iff,
      Plan.ofDeclared_withoutRepeats_eq_error_iff]
  refine ⟨refused, fun stages evolved => ?_⟩
  obtain ⟨p, planned, staged⟩ := bind_eq_ok_iff.1 evolved
  obtain ⟨ds, given, declared, attacked, made⟩ := Plan.exists_made planned
  cases evolved' : evolve (withoutRepeats [] declarations) attacks limit with
  | error fault =>
      rw [(refused fault).1 evolved'] at evolved
      exact nomatch evolved
  | ok stages' =>
      obtain ⟨p', planned', staged'⟩ := bind_eq_ok_iff.1 evolved'
      obtain ⟨ds', given', declared', attacked', made'⟩ := Plan.exists_made planned'
      obtain ⟨xs, read, thinned⟩ := withoutRepeats_eq_ok [] declared
      obtain rfl : ds' = xs := Except.ok.inj (declared'.symm.trans read)
      obtain rfl : given = given' := Except.ok.inj (attacked.symm.trans attacked')
      exact ⟨ds, ds', stages', declared, declared', rfl, thinned.forall₂_collapsed made made'
        (Plan.marked planned declared) (Plan.marked planned' declared') staged staged'⟩

/-- One argument is declared again in front of another one, and once more at the end. -/
def recurring : List Declared := ["a", "a", "b", "a"].map fun id => .raw (.text id)

/-- The number of a stage with the ranks from the bottom. -/
def Stage.bottomUp (S : Stage) : Int × Distances String := (S.step, S.rankBottom)

theorem recurring_collapses :
    (evolve recurring [] 20).map (·.map Stage.bottomUp) =
      .ok [(1, [("a", 0)]), (3, [("a", 0)])] ∧
    (evolve (withoutRepeats [] recurring) [] 20).map (·.map Stage.bottomUp) =
      .ok [(1, []), (2, [("b", 0)])] ∧
    evolve (withoutRepeats [] recurring) [] 20 ≠ evolve recurring [] 20 := by
  have whole : (evolve recurring [] 20).map (·.map Stage.bottomUp) =
      .ok [(1, [("a", 0)]), (3, [("a", 0)])] := by
    refine eq_ok_of_toOption ?_
    simp only [evolve, Plan.ofDeclared, Plan.ofDeclarations.eq_def, mergeSort_snd, Stage.ofPlan,
      Plan.snapshots, Plan.stepNumbers, canonicalBy_eq_insertionSort]
    decide +kernel
  have thinned : (evolve (withoutRepeats [] recurring) [] 20).map (·.map Stage.bottomUp) =
      .ok [(1, []), (2, [("b", 0)])] := by
    refine eq_ok_of_toOption ?_
    simp only [evolve, Plan.ofDeclared, Plan.ofDeclarations.eq_def, mergeSort_snd, Stage.ofPlan,
      Plan.snapshots, Plan.stepNumbers, canonicalBy_eq_insertionSort]
    decide +kernel
  refine ⟨whole, thinned, fun same => ?_⟩
  rw [same, whole] at thinned
  exact absurd (Except.ok.inj thinned) (by decide)

end Argumentation
