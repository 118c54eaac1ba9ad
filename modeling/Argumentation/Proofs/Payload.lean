import Argumentation.Proofs.Approach
import Argumentation.Proofs.Renaming
import Argumentation.Proofs.Spelling
import Argumentation.Report.Payload

/-!
# Argumentation.Proofs.Payload

What the payload of a report says of the steps. The payload does not hold the steps that the
declarations resolve to. It gives each argument the step of the first stage in which it is visible,
and that is the same (`Report.firstStep?_eq`): the stage of its step shows the argument, no stage
before that one does, and the stages come in the order of their steps.

What belongs to a step stands at the same place of four lists. Whatever argument is named there has
appeared by the step, as only visible arguments have ranks or are in extensions
(`Stage.Of.visible_of_tells`).
-/

namespace Argumentation

open Timeline

variable {ds : List Declaration} {given : List Attack} {limit : Int} {p : Plan} {S : Stage}
  {stages : List Stage} {d : Document} {a : String} {s : Int} {i : Nat}

/-! ### What a stage tells -/

/-- The stage has a rank for the argument, or an extension with it. -/
def Stage.Tells (S : Stage) (a : String) : Prop :=
  (∃ n, (a, n) ∈ S.rankTop) ∨ (∃ n, (a, n) ∈ S.rankBottom) ∨
    ∃ semantics, ∃ E ∈ S.extensions.get semantics, a ∈ E

/-- What a stage tells something of is visible there. -/
theorem Stage.Of.visible_of_tells (of : Stage.Of p limit S) (made : p.Made ds given limit)
    (marked : p.Marked ds) (h : S.Tells a) : Visible ds S.step a := by
  obtain ⟨top, bottom⟩ := of.ranked made marked
  rcases h with ⟨n, ranked⟩ | ⟨n, ranked⟩ | ⟨semantics, E, listed, ha⟩
  · exact top.visible _ ranked
  · exact bottom.visible _ ranked
  · rw [of.extensions_eq made] at listed
    have accepted := ((Framework.enumerates_get S.framework semantics).sound E listed).2
    exact (of.mem_arguments made).1 (accepted.subset ha)

namespace Report

/-! ### The steps of arguments -/

/-- The first stage in which an argument is visible is the one of its step. -/
theorem firstStep?_eq (evolution : Evolution ds given limit stages)
    (ha : (a, s) ∈ resolveSteps ds) : firstStep? stages a = some s := by
  obtain ⟨S, hS, rfl⟩ := List.mem_map.1 ((evolution.mem_steps s).2 ⟨a, ha⟩)
  have there : a ∈ S.framework.arguments := (evolution.arguments S hS a).2 ⟨_, le_rfl, ha⟩
  cases first : stages.find? fun s => s.framework.contains a with
  | none =>
      rw [List.find?_eq_none] at first
      exact absurd (Framework.contains_iff.2 there) (first S hS)
  | some T =>
      obtain ⟨shown, before, after, split, hidden⟩ := List.find?_eq_some_iff_append.1 first
      have hT : T ∈ stages := List.mem_of_find?_eq_some first
      obtain ⟨t, le, ht⟩ := (evolution.arguments T hT a).1 (Framework.contains_iff.1 shown)
      obtain rfl : t = S.step := eq_of_mem_resolveSteps ht ha
      -- the stage `S` shows the argument, so it does not come before `T`, and not after it either
      have rising := List.pairwise_map.1 evolution.rising
      rw [split] at hS rising
      rw [firstStep?, first]
      rcases List.mem_append.1 hS with earlier | later
      · have not_shown := hidden S earlier
        rw [Framework.contains_iff.2 there] at not_shown
        exact nomatch not_shown
      · rcases List.mem_cons.1 later with rfl | later
        · rfl
        · have lt := (List.pairwise_cons.1 (List.pairwise_append.1 rising).2.1).1 S later
          exact absurd le lt.not_ge

/-! ### Reading a payload -/

/-- The entries of the declared arguments. -/
def entries (j : Json) : List Json := ((j.field "graph").field "arguments").items

/-- What is listed under a name for the steps. -/
def column (name : String) (j : Json) : List Json :=
  (((j.field "graph").field "steps").field name).items

/-- What is listed of the extensions at the steps. -/
def families (j : Json) : List Json := (j.field "extensions").items

/-- The names and values of the fields of an object. -/
def fields : Json → List (String × Json)
  | .object fs => fs
  | _ => []

/-- At the place `i`, ranks or extensions name the argument `a`. -/
def Names (j : Json) (i : Nat) (a : String) : Prop :=
  (∃ ranks ∈ (column "rank_top" j)[i]?, a ∈ (fields ranks).map (·.1)) ∨
  (∃ ranks ∈ (column "rank_bottom" j)[i]?, a ∈ (fields ranks).map (·.1)) ∨
    ∃ listed ∈ (families j)[i]?, ∃ family ∈ fields listed, ∃ E ∈ family.2.items,
      Json.text a ∈ E.items

theorem entries_payload : entries (payload d stages) = d.declarations.map (argumentEntry stages) :=
  rfl

theorem column_numbers : column "numbers" (payload d stages) = stages.map fun S => .int S.step :=
  rfl

theorem column_rankTop :
    column "rank_top" (payload d stages) = stages.map fun S => ranksEntry S.rankTop :=
  rfl

theorem column_rankBottom :
    column "rank_bottom" (payload d stages) = stages.map fun S => ranksEntry S.rankBottom :=
  rfl

theorem families_payload :
    families (payload d stages) = stages.map fun S => familiesEntry S.extensions :=
  rfl

theorem mem_fields_ranksEntry {ranks : Distances String} :
    a ∈ (fields (ranksEntry ranks)).map (·.1) ↔ ∃ n, (a, n) ∈ ranks := by
  simp [fields, ranksEntry]

/-- The extensions in an entry are those of the families. -/
theorem mem_familiesEntry {f : Families} :
    (∃ family ∈ fields (familiesEntry f), ∃ E ∈ family.2.items, Json.text a ∈ E.items) ↔
      ∃ semantics, ∃ E ∈ f.get semantics, a ∈ E := by
  have every (semantics : Semantics) : semantics ∈ Semantics.all := by
    cases semantics <;> decide
  simp [fields, familiesEntry, Json.items, Json.texts, every]

/-- What is named at a place of the payload is told by the stage there. -/
theorem names_payload_iff : Names (payload d stages) i a ↔ ∃ S ∈ stages[i]?, S.Tells a := by
  rw [Names, column_rankTop, column_rankBottom, families_payload]
  simp only [List.getElem?_map]
  cases stages[i]? with
  | none => simp
  | some S =>
      simp only [Option.map_some, Option.mem_def, Option.some.injEq, exists_eq_left',
        mem_fields_ranksEntry, mem_familiesEntry, Stage.Tells]

theorem field?_argumentEntry (declaration : Declaration) :
    (argumentEntry stages declaration).field? "id" = some (.text declaration.id) ∧
      (argumentEntry stages declaration).field? "step" =
        some (((firstStep? stages declaration.id).map Json.int).getD .null) :=
  ⟨rfl, rfl⟩

end Report

/-- A document is planned by its own declarations and attacks. -/
theorem Document.made_of_planned (planned : Plan.ofDeclared (d.declarations.map .resolved)
    (d.attacks.map .resolved) limit = .ok p) :
    p.Made d.declarations d.attacks limit ∧ p.Marked d.declarations := by
  obtain ⟨ds, given, declared, attacked, made⟩ := Plan.exists_made planned
  rw [Declared.mapM_read_resolved, Except.ok.injEq] at declared
  rw [Attack.Given.mapM_read_resolved, Except.ok.injEq] at attacked
  subst declared attacked
  exact ⟨made, Plan.marked planned (Declared.mapM_read_resolved _)⟩

theorem Document.exists_plan (h : d.decompose limit = .ok stages) :
    ∃ p : Plan, p.Made d.declarations d.attacks limit ∧ p.Marked d.declarations ∧
      Stage.ofPlan p limit = .ok stages := by
  obtain ⟨p, planned, staged⟩ := bind_eq_ok_iff.1 h
  obtain ⟨made, marked⟩ := made_of_planned planned
  exact ⟨p, made, marked, staged⟩

namespace Report

/-- The payload `j` of the document `d` with the given stages agrees with the steps to which the
declarations resolve. -/
structure Dated (d : Document) (stages : List Stage) (j : Json) : Prop where
  /-- Each declaration has an entry, in which the step of its argument is never missing. -/
  entries : List.Forall₂ (fun declaration entry =>
    entry.field? "id" = some (.text declaration.id) ∧
      (∃ s, entry.field? "step" = some (.int s)) ∧
      ∀ s, entry.field? "step" = some (.int s) ↔ (declaration.id, s) ∈ resolveSteps d.declarations)
    d.declarations (Report.entries j)
  /-- The four lists have a member for each stage. -/
  lengths : ∀ listed ∈
    [column "numbers" j, column "rank_top" j, column "rank_bottom" j, families j],
    listed.length = stages.length
  /-- What belongs to a stage stands at its place in all of them. -/
  aligned : ∀ (i : Nat) (S : Stage), stages[i]? = some S →
    (column "numbers" j)[i]? = some (.int S.step) ∧
    (column "rank_top" j)[i]? = some (ranksEntry S.rankTop) ∧
    (column "rank_bottom" j)[i]? = some (ranksEntry S.rankBottom) ∧
    (families j)[i]? = some (familiesEntry S.extensions)
  /-- Whatever argument is named there has an entry with a step up to that of the stage. -/
  appeared : ∀ (i : Nat) (s : Int) (a : String), (column "numbers" j)[i]? = some (.int s) →
    Names j i a → ∃ entry ∈ Report.entries j, entry.field? "id" = some (.text a) ∧
      ∃ t ≤ s, entry.field? "step" = some (.int t)

/-- The entry of an argument has the step to which its declarations resolve. -/
theorem field?_step_argumentEntry (evolution : Evolution ds given limit stages)
    {declaration : Declaration} (hs : (declaration.id, s) ∈ resolveSteps ds) :
    (argumentEntry stages declaration).field? "step" = some (.int s) := by
  rw [(field?_argumentEntry declaration).2, firstStep?_eq evolution hs]
  rfl

/-- **The payload of a report tells the steps to which the declarations resolve.** It recovers them
from the stages, and at the place of a step it names only what has appeared by then. -/
theorem payload_dated (h : d.decompose limit = .ok stages) : Dated d stages (payload d stages) := by
  obtain ⟨p, made, marked, staged⟩ := Document.exists_plan h
  have evolution := made.evolution staged
  have of := (Stage.ofPlan_eq_ok staged).2
  constructor
  · rw [entries_payload, List.forall₂_map_right_iff, List.forall₂_same]
    intro declaration declared
    obtain ⟨s, hs⟩ := exists_mem_resolveSteps.2 ⟨declaration, declared, rfl⟩
    have step := field?_step_argumentEntry evolution hs
    refine ⟨rfl, ⟨s, step⟩, fun t => ⟨fun told => ?_, field?_step_argumentEntry evolution⟩⟩
    rw [step] at told
    cases told
    exact hs
  · intro listed hl
    simp only [column_numbers, column_rankTop, column_rankBottom, families_payload] at hl
    simp only [List.mem_cons, List.not_mem_nil, or_false] at hl
    rcases hl with rfl | rfl | rfl | rfl <;> exact List.length_map _
  · intro i S hS
    rw [column_numbers, column_rankTop, column_rankBottom, families_payload]
    simp [hS]
  · intro i s a number named
    obtain ⟨S, hS, tells⟩ := names_payload_iff.1 named
    rw [column_numbers, List.getElem?_map, hS] at number
    cases number
    obtain ⟨t, le, ht⟩ := (of S (List.mem_of_getElem? hS)).visible_of_tells made marked tells
    obtain ⟨declaration, declared, rfl⟩ := exists_mem_resolveSteps.1 ⟨t, ht⟩
    have step := field?_step_argumentEntry evolution ht
    refine ⟨argumentEntry stages declaration, ?_, rfl, t, le, step⟩
    rw [entries_payload]
    exact List.mem_map_of_mem declared

/-- Arguments that are declared out of the order of their steps, one of them twice and then without
its step. -/
def disordered : Document where
  declarations :=
    [.tagged "b" [.step 2, .label "top"], .bare "a", .tagged "c" [.step (-1)], .bare "b"]
  attacks := [⟨"b", "c"⟩, ⟨"a", "a"⟩]
  exhibit := none

theorem disordered_dated : ∃ stages, disordered.decompose 20 = .ok stages ∧
    Dated disordered stages (payload disordered stages) := by
  obtain ⟨stages, staged⟩ : ∃ stages, disordered.decompose 20 = .ok stages :=
    exists_evolve_of_toBool (by decide +kernel)
  exact ⟨stages, staged, payload_dated staged⟩

end Report

end Argumentation
