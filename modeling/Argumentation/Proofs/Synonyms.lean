import Argumentation.Proofs.Spelling
import Argumentation.Timeline.Stage

/-!
# Argumentation.Proofs.Synonyms

A framework can be handed over in several ways: as the values that a document was read from, as what
was read from them, with each declaration rewritten as a name with a list of tags, or with each
declaration spelled out. All of them have the same outcome, be it stages or a fault.

Declarations are read the same in all but one of the ways. A bare name that is rewritten comes back as
a name with no tags, which is another declaration; but a plan looks at names and tags only
(`Plan.ofDeclarations_withTags`). Names of arguments and ends of attacks are made of values on
different paths, once for a document and once for a framework; they agree on whatever a document
accepts, since it accepts no value that cannot be written.
-/

namespace Argumentation

variable {ds : List Declaration} {given : List Attack}

/-! ### Declarations with tags -/

/-- The declaration of the same name with the same tags, even if there are none. -/
def Declaration.withTags (d : Declaration) : Declaration := .tagged d.id d.tags

namespace Timeline

theorem stepsFrom_withTags (numbered : Bool) (current : Int) (ds : List Declaration) :
    stepsFrom numbered current (ds.map Declaration.withTags) = stepsFrom numbered current ds := by
  induction ds generalizing current with
  | nil => rfl
  | cons d ds ih =>
      simp only [List.map_cons, stepsFrom, ih]
      rfl

theorem resolveSteps_withTags (ds : List Declaration) :
    resolveSteps (ds.map Declaration.withTags) = resolveSteps ds := by
  rw [resolveSteps, resolveSteps, stepsFrom_withTags, List.any_map]
  rfl

end Timeline

namespace Plan

/-- A plan looks at the names and the tags of declarations only. -/
theorem ofDeclarations_withTags (ds : List Declaration) (attacks : List Attack.Given) (limit : Int) :
    ofDeclarations (ds.map Declaration.withTags) attacks limit =
      ofDeclarations ds attacks limit := by
  cases ds with
  | nil => rfl
  | cons d rest =>
      have steps := Timeline.resolveSteps_withTags (d :: rest)
      have marked (marks : Declaration → Bool) (same : ∀ d : Declaration, marks d.withTags = marks d) :
          (((d :: rest).map Declaration.withTags).filter marks).map Declaration.id =
            ((d :: rest).filter marks).map Declaration.id := by
        have kept : marks ∘ Declaration.withTags = marks := funext same
        rw [List.filter_map, List.map_map, kept]
        rfl
      have last : (((d :: rest).map Declaration.withTags).getLast (List.cons_ne_nil _ _)).id =
          ((d :: rest).getLast (List.cons_ne_nil d rest)).id := by
        rw [List.getLast_map]
        rfl
      have top := marked Declaration.isTop fun _ => rfl
      have bottom := marked Declaration.isBottom fun _ => rfl
      rw [List.map_cons] at steps top bottom
      simp only [List.map_cons] at last
      simp only [List.map_cons, ofDeclarations, steps, top, bottom, last]
      rfl

/-- A plan reads its attacks before it looks at them. -/
theorem ofDeclarations_congr {attacks attacks' : List Attack.Given}
    (same : attacks.mapM Attack.Given.read = attacks'.mapM Attack.Given.read)
    (ds : List Declaration) (limit : Int) :
    ofDeclarations ds attacks limit = ofDeclarations ds attacks' limit := by
  cases ds with
  | nil => rfl
  | cons d rest => simp only [ofDeclarations, Framework.ofNames, same]

end Plan

/-! ### Ways to hand over a declaration -/

theorem Tag.parse_dump (t : Tag) : Tag.parse t.dump = .ok t := by
  cases t with
  | step n => rfl
  | label s => rfl

/-- The name with a list of tags is read as a declaration with tags. -/
theorem Declaration.parse_entry (d : Declaration) : parse d.entry = .ok d.withTags := by
  show (do
    let id ← nameOf (.text d.id)
    return Declaration.tagged id (← (d.tags.map Tag.dump).mapM Tag.parse)) = _
  rw [mapM_map_eq_ok Tag.parse_dump]
  rfl

/-- The ways in which a declaration can be handed over. -/
inductive Declaration.Spells (d : Declaration) : Declared → Prop where
  /-- As a value that is read as the declaration. -/
  | written {v : Value} (read : parse v = .ok d) : Spells d (.raw v)
  | resolved : Spells d (.resolved d)
  /-- As a name with a list of tags. -/
  | entry : Spells d (.raw d.entry)

/-- However a declaration is handed over, its name and its tags are read. -/
theorem Declaration.Spells.exists_read {d : Declaration} {x : Declared} (h : d.Spells x) :
    ∃ e, x.read = .ok e ∧ e.withTags = d.withTags := by
  cases h with
  | written read => exact ⟨d, read, rfl⟩
  | resolved => exact ⟨d, rfl, rfl⟩
  | entry => exact ⟨d.withTags, d.parse_entry, rfl⟩

theorem exists_mapM_read_of_spells {declared : List Declared}
    (h : List.Forall₂ Declaration.Spells ds declared) :
    ∃ es, declared.mapM Declared.read = .ok es ∧
      es.map Declaration.withTags = ds.map Declaration.withTags := by
  induction h with
  | nil => exact ⟨[], rfl, rfl⟩
  | cons here _ ih =>
      obtain ⟨e, read, same⟩ := here.exists_read
      obtain ⟨es, reads, sames⟩ := ih
      refine ⟨e :: es, ?_, by rw [List.map_cons, same, sames, List.map_cons]⟩
      rw [List.mapM_cons, read, reads]
      rfl

/-! ### Ways to hand over an attack -/

theorem Value.sequence?_eq_some_iff {v : Value} {items : List Value} :
    v.sequence? = some items ↔ v.opened = .list items ∨ v.opened = .tuple items := by
  rw [sequence?]
  split
  · next same => simp [same]
  · next same => simp [same]
  · next noList noTuple =>
    refine ⟨fun h => (nomatch h), ?_⟩
    rintro (same | same)
    · exact absurd same (noList items)
    · exact absurd same (noTuple items)

/-- The ways in which an attack can be handed over. -/
inductive Attack.Spells (a : Attack) : Attack.Given → Prop where
  /-- As a sequence that an entry of a document may be. -/
  | written {v : Value} {members : List Value} (listed : v.sequence? = some members)
      (read : ofEntry v = .ok a) : Spells a (.raw v)
  | resolved : Spells a (.resolved a)

/-- A sequence that names an attack in a document names the same one in a framework. -/
theorem Attack.ofValue_of_ofEntry {v : Value} {members : List Value} {a : Attack}
    (listed : v.sequence? = some members) (read : ofEntry v = .ok a) : ofValue v = .ok a := by
  have keyless : v.entries? = none := by
    rcases Value.sequence?_eq_some_iff.1 listed with same | same <;> rw [Value.entries?, same]
  have walked : v.members = members := by
    rcases Value.sequence?_eq_some_iff.1 listed with same | same <;> rw [Value.members, same]
  have unkeyed (name : String) : v.field? name = none := by rw [Value.field?, keyless]; rfl
  rw [ofEntry, unkeyed, unkeyed, listed] at read
  rw [ofValue, walked, keyless]
  match members, read with
  | x :: y :: _, read => exact mapError_eq_ok_iff.2 (mapError_eq_ok_iff.1 read)

theorem Attack.Spells.read {a : Attack} {x : Attack.Given} (h : a.Spells x) : x.read = .ok a := by
  cases h with
  | written listed read => exact ofValue_of_ofEntry listed read
  | resolved => rfl

/-! ### Ways to hand over a framework -/

/-- However declarations and attacks are handed over, the outcome is that of what they are. -/
theorem evolve_of_spells {declared : List Declared} {attacks : List Attack.Given}
    (declarations : List.Forall₂ Declaration.Spells ds declared)
    (attacked : List.Forall₂ Attack.Spells given attacks) (limit : Int) :
    evolve declared attacks limit =
      evolve (ds.map .resolved) (given.map .resolved) limit := by
  obtain ⟨es, read, same⟩ := exists_mapM_read_of_spells declarations
  have attacks_read : attacks.mapM Attack.Given.read =
      (given.map Attack.Given.resolved).mapM Attack.Given.read := by
    rw [Attack.Given.mapM_read_resolved]
    exact mapM_eq_ok_iff.2 (attacked.flip.imp fun _ _ spells => spells.read)
  have planned : Plan.ofDeclared declared attacks limit =
      Plan.ofDeclared (ds.map .resolved) (given.map .resolved) limit := by
    rw [Plan.ofDeclared, Plan.ofDeclared, read, Declared.mapM_read_resolved]
    calc Plan.ofDeclarations es attacks limit
        = Plan.ofDeclarations (es.map Declaration.withTags) attacks limit :=
          (Plan.ofDeclarations_withTags es attacks limit).symm
      _ = Plan.ofDeclarations ds attacks limit := by rw [same, Plan.ofDeclarations_withTags]
      _ = _ := Plan.ofDeclarations_congr attacks_read ds limit
  rw [evolve, evolve, planned]

namespace Document

/-- The arguments and the attacks of a document are written as sequences, and so is each attack. -/
structure Lists (raw : Value) (arguments attacks : List Value) : Prop where
  exists_arguments : ∃ v, raw.field? "arguments" = some v ∧ v.sequence? = some arguments
  exists_attacks : ∃ v, raw.field? "attacks" = some v ∧ v.sequence? = some attacks
  pairs : ∀ v ∈ attacks, ∃ members, v.sequence? = some members

/-- Whatever way there is to hand over a document that has been read from the given arguments and
attacks, the outcome is that of the document. -/
structure Alike (d : Document) (arguments attacks : List Value) (limit : Int) : Prop where
  asWritten : Argumentation.decompose arguments attacks limit = d.decompose limit
  /-- Each declaration is rewritten as a name with a list of tags. -/
  asEntries : ∀ given, List.Forall₂ Attack.Spells d.attacks given →
    evolve (d.declarations.map fun e => .raw e.entry) given limit = d.decompose limit
  /-- Each declaration is spelled out. -/
  spelledOut : ∀ given, List.Forall₂ Attack.Spells d.attacks given →
    evolve (d.declarations.map fun e => .raw e.dump) given limit = d.decompose limit
  /-- Each declaration and each attack is handed over in a way of its own. -/
  mixed : ∀ declared given, List.Forall₂ Declaration.Spells d.declarations declared →
    List.Forall₂ Attack.Spells d.attacks given → evolve declared given limit = d.decompose limit

variable {raw : Value} {arguments attacks : List Value} {d : Document}

theorem spells_of_listOfValue {v : Value} {given : List Attack} (listed : v.sequence? = some attacks)
    (pairs : ∀ v ∈ attacks, ∃ members, v.sequence? = some members)
    (read : Attack.listOfValue v = .ok given) :
    List.Forall₂ Attack.Spells given (attacks.map .raw) := by
  have walked : Attack.listOfValue v = attacks.mapM Attack.ofEntry := by
    rcases Value.sequence?_eq_some_iff.1 listed with same | same <;> rw [Attack.listOfValue, same]
  rw [walked, mapM_eq_ok_iff] at read
  clear walked listed
  induction read with
  | nil => exact .nil
  | cons here _ ih =>
      obtain ⟨⟨members, listed⟩, pairs⟩ := List.forall_mem_cons.1 pairs
      exact .cons (.written listed here) (ih pairs)

/-- What a document is read from is a way to hand over what is read. -/
theorem Lists.spells (lists : Lists raw arguments attacks) (checked : check raw = .ok d) :
    List.Forall₂ Declaration.Spells d.declarations (arguments.map .raw) ∧
      List.Forall₂ Attack.Spells d.attacks (attacks.map .raw) := by
  obtain ⟨v, argumentsHere, argumentsListed⟩ := lists.exists_arguments
  obtain ⟨w, attacksHere, attacksListed⟩ := lists.exists_attacks
  have declared := (fields_of_check checked).1 v argumentsHere
  have attacked := (fields_of_check checked).2 w attacksHere
  constructor
  · have values : declarationValues v = some arguments := by
      rcases Value.sequence?_eq_some_iff.1 argumentsListed with same | same <;>
        rw [declarationValues, same]
    rw [checkArguments, values] at declared
    have read := mapM_eq_ok_iff.1 (mapError_eq_ok_iff.1 declared)
    exact List.forall₂_map_right_iff.2 (read.flip.imp fun _ _ parsed => .written parsed)
  · exact spells_of_listOfValue attacksListed lists.pairs (mapError_eq_ok_iff.1 attacked)

/-- **All ways to hand over a framework have the same outcome**: the same stages, or the same
fault. -/
theorem decompose_alike (lists : Lists raw arguments attacks) (checked : check raw = .ok d)
    (limit : Int) : Alike d arguments attacks limit := by
  obtain ⟨declarations, attacked⟩ := lists.spells checked
  constructor
  · exact evolve_of_spells declarations attacked limit
  · intro given spelled
    refine evolve_of_spells ?_ spelled limit
    exact List.forall₂_map_right_iff.2 (List.forall₂_same.2 fun _ _ => .entry)
  · intro given spelled
    refine evolve_of_spells ?_ spelled limit
    exact List.forall₂_map_right_iff.2 (List.forall₂_same.2 fun e _ => .written e.parse_dump)
  · exact fun declared given spells spelled => evolve_of_spells spells spelled limit

/-- Arguments that are declared in every way, one of them twice. -/
def motley : List Value :=
  [.int 7,
    .mapping [(.text "b", .list [.text "top", .bool true, .mapping [(.text "step", .text "+2.0")]])],
    .mapping [(.text "7", .text "bottom")],
    .mapping [(.text "c", .null)],
    .mapping [(.text "kind", .text "tagged"), (.text "id", .text "id"),
      (.text "tags", .list [.mapping [(.text "step", .int (-1))], .text "aside"])]]

/-- Attacks between them, one of them with more members than it needs. -/
def skirmishes : List Value :=
  [.list [.text "id", .int 7], .tuple [.text "b", .text "b", .null], .list [.int 7, .text "id"]]

/-- What they are read as. -/
def medley : Document where
  declarations := [.bare "7", .tagged "b" [.label "top", .label "True", .step 2],
    .tagged "7" [.label "bottom"], .tagged "c" [], .tagged "id" [.step (-1), .label "aside"]]
  attacks := [⟨"id", "7"⟩, ⟨"b", "b"⟩, ⟨"7", "id"⟩]
  exhibit := none

theorem medley_alike : ∃ raw, Lists raw motley skirmishes ∧ check raw = .ok medley ∧
    Alike medley motley skirmishes 20 := by
  let raw : Value :=
    .mapping [(.text "arguments", .list motley), (.text "attacks", .list skirmishes)]
  have lists : Lists raw motley skirmishes := by
    refine ⟨⟨_, rfl, rfl⟩, ⟨_, rfl, rfl⟩, fun v hv => ?_⟩
    simp only [skirmishes, List.mem_cons, List.not_mem_nil, or_false] at hv
    rcases hv with rfl | rfl | rfl <;> exact ⟨_, rfl⟩
  have read : (check raw).toOption = some medley := by decide +kernel
  have checked : check raw = .ok medley := by
    cases result : check raw with
    | error issues => rw [result] at read; exact nomatch read
    | ok d => rw [result] at read; exact congrArg Except.ok (Option.some.inj read)
  exact ⟨raw, lists, checked, decompose_alike lists checked 20⟩

end Document

end Argumentation
