import Argumentation.Proofs.Payload

/-!
# Argumentation.Proofs.Entries

Which arguments and attacks the graph of a payload lists, and with which roles. The graph has an entry
for each declaration, while everything else counts an argument once, however often it is declared. So
the graph is normalized exactly if no argument is declared twice (`Report.payload_normalized_iff`).

What holds in any case (`Report.Listed`): the entries are about the arguments of the last stage, the
ends of attacks have entries, and the roles of an argument are those that its entries have together.
-/

namespace Argumentation

open Timeline

variable {limit : Int} {p : Plan} {last : Stage} {stages : List Stage} {d : Document} {j : Json}
  {a : String}

/-! ### Roots of both rankings -/

/-- The side from which arguments are ranked. -/
inductive Side where
  | top
  | bottom

/-- The role of the roots of the ranking from a side. -/
def Side.role : Side → String
  | .top => "top"
  | .bottom => "bottom"

/-- Whether a declaration marks its argument as a root of the ranking from a side. -/
def Side.marks : Side → Declaration → Bool
  | .top => Declaration.isTop
  | .bottom => Declaration.isBottom

/-- The arguments that are marked as roots of the ranking from a side. -/
def Plan.marksOf (p : Plan) : Side → List String
  | .top => p.top
  | .bottom => p.bottom

theorem Plan.Marked.mem_marksOf {ds : List Declaration} (h : p.Marked ds) (side : Side) :
    a ∈ p.marksOf side ↔ ∃ declaration ∈ ds, side.marks declaration = true ∧ declaration.id = a := by
  have listed : p.marksOf side = distinct ((ds.filter side.marks).map Declaration.id) := by
    cases side with
    | top => exact h.top
    | bottom => exact h.bottom
  rw [listed, mem_distinct_marked]

namespace Report

theorem role_mem_roles_iff (side : Side) (declaration : Declaration) :
    side.role ∈ roles declaration ↔ side.marks declaration = true := by
  cases side with
  | top => cases h : declaration.isTop <;> simp [roles, Side.role, Side.marks, h]
  | bottom => cases h : declaration.isBottom <;> simp [roles, Side.role, Side.marks, h]

/-! ### The graph of a payload -/

/-- The names under which the entries stand. -/
def ids (j : Json) : List Json := (entries j).map (·.field "id")

/-- The attacks of the graph. -/
def attackItems (j : Json) : List Json := ((j.field "graph").field "attacks").items

/-- The entry gives its argument a role. -/
def HasRole (entry : Json) (role : String) : Prop := Json.text role ∈ (entry.field "roles").items

/-- The attack is one between two arguments that have entries. -/
def Joins (j attack : Json) : Prop :=
  ∃ a b, attack = .texts [a, b] ∧ Json.text a ∈ ids j ∧ Json.text b ∈ ids j

theorem ids_payload :
    ids (payload d stages) = (d.declarations.map Declaration.id).map Json.text := by
  rw [ids, entries_payload, List.map_map, List.map_map]
  rfl

theorem text_mem_ids_payload_iff :
    Json.text a ∈ ids (payload d stages) ↔ ∃ declaration ∈ d.declarations, declaration.id = a := by
  simp [ids_payload]

theorem nodup_map_text {names : List String} : (names.map Json.text).Nodup ↔ names.Nodup :=
  List.nodup_map_iff fun _ _ => Json.text.inj

theorem attackItems_payload : attackItems (payload d stages) = d.attacks.map attackEntry := rfl

theorem hasRole_argumentEntry_iff (side : Side) (declaration : Declaration) :
    HasRole (argumentEntry stages declaration) side.role ↔ side.marks declaration = true := by
  have listed : ((argumentEntry stages declaration).field "roles").items =
      (roles declaration).map .text := rfl
  rw [HasRole, listed, ← role_mem_roles_iff]
  simp

/-- The payload `j` has one entry for each argument of the last stage, with the roles that the plan
gives it, and its attacks are between them. -/
structure Normalized (p : Plan) (last : Stage) (j : Json) : Prop where
  /-- No two entries have the same name, and none is missing. -/
  ids_perm : (ids j).Perm (last.framework.arguments.map .text)
  hasRole_iff : ∀ side, ∀ entry ∈ entries j, ∀ a, entry.field? "id" = some (.text a) →
    (HasRole entry side.role ↔ a ∈ p.marksOf side)
  attacks : ∀ attack ∈ attackItems j, Joins j attack

/-- What the payload `j` of the document `d` lists, whatever is declared. -/
structure Listed (d : Document) (p : Plan) (last : Stage) (j : Json) : Prop where
  /-- An argument has as many entries as it has declarations. -/
  ids_eq : ids j = (d.declarations.map Declaration.id).map .text
  mem_ids_iff : ∀ a, Json.text a ∈ ids j ↔ a ∈ last.framework.arguments
  /-- A root has an entry with its role, but not all of its entries need to have it. -/
  exists_hasRole_iff : ∀ side a, (∃ entry ∈ entries j, entry.field? "id" = some (.text a) ∧
    HasRole entry side.role) ↔ a ∈ p.marksOf side
  attacks : ∀ attack ∈ attackItems j, Joins j attack

/-- The graph is not normalized if an argument is declared twice. -/
theorem Normalized.nodup (h : Normalized p last (payload d stages)) :
    (d.declarations.map Declaration.id).Nodup := by
  have names := h.ids_perm.nodup_iff.2 (nodup_map_text.2 last.framework.nodup)
  rwa [ids_payload, nodup_map_text] at names

/-- A plan and the last of its stages know the arguments of all declarations. -/
theorem listed_payload (made : p.Made d.declarations d.attacks limit)
    (marked : p.Marked d.declarations) (of : last.Of p limit)
    (greatest : ∀ s ∈ p.stepNumbers, s ≤ last.step) : Listed d p last (payload d stages) := by
  have everything := (of.everything made greatest).1
  have declared {a : String} (ha : a ∈ last.framework.arguments) :
      Json.text a ∈ ids (payload d stages) := by
    obtain ⟨s, -, hs⟩ := (of.mem_arguments made).1 ha
    exact text_mem_ids_payload_iff.2 (exists_mem_resolveSteps.1 ⟨s, hs⟩)
  constructor
  · exact ids_payload
  · refine fun a => ⟨fun ha => ?_, declared⟩
    obtain ⟨declaration, hd, rfl⟩ := text_mem_ids_payload_iff.1 ha
    exact everything declaration hd
  · intro side a
    rw [entries_payload, marked.mem_marksOf]
    constructor
    · rintro ⟨entry, listed, named, role⟩
      obtain ⟨declaration, hd, rfl⟩ := List.mem_map.1 listed
      cases named
      exact ⟨declaration, hd, (hasRole_argumentEntry_iff side declaration).1 role, rfl⟩
    · rintro ⟨declaration, hd, marks, rfl⟩
      exact ⟨_, List.mem_map_of_mem hd, rfl, (hasRole_argumentEntry_iff side declaration).2 marks⟩
  · intro attack listed
    rw [attackItems_payload] at listed
    obtain ⟨e, he, rfl⟩ := List.mem_map.1 listed
    rw [← (of.everything made greatest).2] at he
    have ends := last.framework.declared e he
    exact ⟨e.attacker, e.target, rfl, declared ends.1, declared ends.2⟩

/-- If no argument is declared twice, its only entry has to have its roles. -/
theorem Listed.normalized (h : Listed d p last (payload d stages)) (marked : p.Marked d.declarations)
    (apart : (d.declarations.map Declaration.id).Nodup) :
    Normalized p last (payload d stages) := by
  constructor
  · have texts := nodup_map_text.2 last.framework.nodup
    have names : (ids (payload d stages)).Nodup := h.ids_eq ▸ nodup_map_text.2 apart
    refine (List.perm_ext_iff_of_nodup names texts).2 fun name => ?_
    constructor
    · intro listed
      rw [h.ids_eq] at listed
      obtain ⟨a, ha, rfl⟩ := List.mem_map.1 listed
      exact List.mem_map_of_mem ((h.mem_ids_iff a).1 (h.ids_eq ▸ List.mem_map_of_mem ha))
    · intro listed
      obtain ⟨a, ha, rfl⟩ := List.mem_map.1 listed
      exact (h.mem_ids_iff a).2 ha
  · intro side entry listed a named
    rw [entries_payload] at listed
    obtain ⟨declaration, hd, rfl⟩ := List.mem_map.1 listed
    cases named
    rw [hasRole_argumentEntry_iff, marked.mem_marksOf]
    constructor
    · exact fun marks => ⟨declaration, hd, marks, rfl⟩
    · rintro ⟨other, ho, marks, same⟩
      obtain rfl : other = declaration := List.inj_on_of_nodup_map apart ho hd same
      exact marks
  · exact h.attacks

/-- **The graph of a payload is normalized exactly if no argument is declared twice.** -/
theorem payload_normalized_iff (h : d.decompose limit = .ok stages) :
    ∃ p last, Plan.ofDeclared (d.declarations.map .resolved) (d.attacks.map .resolved) limit = .ok p ∧
      stages.getLast? = some last ∧ Listed d p last (payload d stages) ∧
      (Normalized p last (payload d stages) ↔ (d.declarations.map Declaration.id).Nodup) := by
  obtain ⟨p, planned, staged⟩ := bind_eq_ok_iff.1 h
  obtain ⟨made, marked⟩ := Document.made_of_planned planned
  obtain ⟨steps, of⟩ := Stage.ofPlan_eq_ok staged
  obtain ⟨last, atEnd, hlast, greatest⟩ := Stage.exists_last made steps
  have listed : Listed d p last (payload d stages) :=
    listed_payload made marked (of last hlast) greatest
  exact ⟨p, last, planned, atEnd, listed, Normalized.nodup, listed.normalized marked⟩

/-- Arguments that are declared once each, one of them with both roles. -/
def soloists : Document where
  declarations := [.bare "a", .tagged "b" [.label "bottom", .label "top"],
    .tagged "c" [.step (-1), .label "top"]]
  attacks := [⟨"b", "c"⟩, ⟨"a", "a"⟩, ⟨"b", "c"⟩]
  exhibit := none

theorem soloists_normalized : ∃ stages p last, soloists.decompose 20 = .ok stages ∧
    stages.getLast? = some last ∧ Listed soloists p last (payload soloists stages) ∧
    Normalized p last (payload soloists stages) := by
  obtain ⟨stages, staged⟩ : ∃ stages, soloists.decompose 20 = .ok stages :=
    exists_evolve_of_toBool (by decide +kernel)
  obtain ⟨p, last, -, atEnd, listed, normalized⟩ := payload_normalized_iff staged
  exact ⟨stages, p, last, staged, atEnd, listed, normalized.2 (by decide)⟩

/-- An argument that is declared again, without its role. -/
def restated : Document where
  declarations := [.tagged "a" [.label "top"], .bare "a"]
  attacks := []
  exhibit := none

/-- An argument that is declared twice has two entries, so the graph is not normalized, whatever the
plan and the last stage are. -/
theorem restated_not_normalized : ∃ stages, restated.decompose 20 = .ok stages ∧
    ∀ p last, ¬ Normalized p last (payload restated stages) := by
  obtain ⟨stages, staged⟩ : ∃ stages, restated.decompose 20 = .ok stages :=
    exists_evolve_of_toBool (by decide +kernel)
  refine ⟨stages, staged, fun p last normalized => ?_⟩
  exact absurd normalized.nodup (by decide)

end Report

end Argumentation
