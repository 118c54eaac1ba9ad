import Argumentation.Framework.Tables
import Argumentation.Proofs.Elements
import Argumentation.Proofs.Verdict

/-!
# Argumentation.Proofs.Tables

Which values and attacks make a framework (`Framework.Builds`), and what the framework knows of its
arguments then: their places, and the masks of their neighbours. Everything that is decided later is
read off these masks.

The two tables of masks are filled in by one walk over the attacks. Of each table the walk keeps that
it lists the neighbours by the attacks that have been seen (`Framework.Lists`); the tables are the
same but for the end of an attack from which they look at it, so one lemma on a single attack
(`Lists.add`) serves both. In the end both have been shown the same attacks, and each is the
transpose of the other.

A framework can be cut down and made anew, as often as one likes. Each framework that is reached so
has its own places and tables (`Framework.Reached`).
-/

namespace Argumentation

namespace Framework

variable {F G H : Framework} {a b : String} {i j m : Nat} {near far : Attack → String}
  {seen : List Attack} {table : Array Nat} {t : Tables}

/-! ### One walk over the attacks -/

/-- The table has a mask for every argument, and in it the neighbours that the argument has by the
attacks `seen`: where it is the end `near`, the neighbour is the end `far`. -/
structure Lists (F : Framework) (near far : Attack → String) (seen : List Attack)
    (table : Array Nat) : Prop where
  size_eq : table.size = F.size
  testBit_iff : ∀ i j, (table.getD i 0).testBit j = true ↔
    ∃ e ∈ seen, F.arguments.idxOf (near e) = i ∧ F.arguments.idxOf (far e) = j

theorem Lists.blank (F : Framework) (near far : Attack → String) :
    Lists F near far [] (Array.replicate F.size 0) := by
  refine ⟨Array.size_replicate, fun i j => ?_⟩
  have nothing : (Array.replicate F.size 0).getD i 0 = 0 := by
    rw [Array.getD_eq_getD_getElem?, Array.getElem?_replicate]
    split <;> rfl
  simp [nothing]

theorem getD_modify {f : Nat → Nat} {place : Nat} (inside : place < table.size) (i : Nat) :
    (table.modify place f).getD i 0 = if place = i then f (table.getD i 0) else table.getD i 0 := by
  rw [Array.getD_eq_getD_getElem?, Array.getElem?_modify, Array.getD_eq_getD_getElem?]
  by_cases here : place = i
  · subst here
    simp [inside]
  · simp [here]

/-- One more attack sets one bit of the table, or it has been set before. -/
theorem Lists.add (h : Lists F near far seen table) {e : Attack} (known : near e ∈ F.arguments) :
    Lists F near far (seen ++ [e]) (F.addNeighbour table (near e) (far e)) := by
  have inside : F.arguments.idxOf (near e) < table.size := by
    rw [h.size_eq]
    exact idxOf_lt_size known
  refine ⟨by rw [addNeighbour, Array.size_modify, h.size_eq], fun i j => ?_⟩
  simp only [addNeighbour, getD_modify inside, List.mem_append, List.mem_singleton, or_and_right,
    exists_or, exists_eq_left, ← h.testBit_iff i j]
  by_cases here : F.arguments.idxOf (near e) = i
  · simp [here, Nat.testBit_or, testBit_bit]
  · simp [here]

/-- Both tables list the neighbours by the attacks `seen`. -/
structure Noted (F : Framework) (seen : List Attack) (t : Tables) : Prop where
  attackers : Lists F Attack.target Attack.attacker seen t.attackers
  targets : Lists F Attack.attacker Attack.target seen t.targets

theorem Noted.blank (F : Framework) : Noted F [] F.blank :=
  ⟨Lists.blank F _ _, Lists.blank F _ _⟩

theorem Noted.note (h : Noted F seen t) {e : Attack} (he : e ∈ F.attacks) :
    Noted F (seen ++ [e]) (F.note t e) :=
  ⟨h.attackers.add (F.declared e he).2, h.targets.add (F.declared e he).1⟩

theorem Noted.foldl (h : Noted F seen t) {rest : List Attack} (sub : ∀ e ∈ rest, e ∈ F.attacks) :
    Noted F (seen ++ rest) (rest.foldl F.note t) := by
  induction rest generalizing seen t with
  | nil => simpa using h
  | cons e rest ih =>
      obtain ⟨he, sub⟩ := List.forall_mem_cons.1 sub
      rw [List.foldl_cons, List.append_cons]
      exact ih (h.note he) sub

theorem noted_tables (F : Framework) : Noted F F.attacks F.tables :=
  (Noted.blank F).foldl fun _ he => he

/-! ### What the tables say -/

theorem idxOf_eq_iff (ha : F.arguments[i]? = some a) (hb : b ∈ F.arguments) :
    F.arguments.idxOf b = i ↔ b = a := by
  obtain ⟨hi, rfl⟩ := List.getElem?_eq_some_iff.1 ha
  rw [← List.idxOf_inj hb, F.nodup.idxOf_getElem i hi]

/-- With all attacks seen, the mask of an argument is that of its neighbours. -/
theorem Lists.getD_eq_mask (h : Lists F near far F.attacks table)
    (known : ∀ e ∈ F.attacks, near e ∈ F.arguments) (ha : a ∈ F.arguments) :
    table.getD (F.arguments.idxOf a) 0 =
      F.mask ((F.attacks.filter fun e => near e == a).map far) := by
  refine Nat.eq_of_testBit_eq fun j => Bool.eq_iff_iff.2 ?_
  rw [h.testBit_iff, testBit_mask]
  simp only [mem_neighbours]
  constructor
  · intro h
    obtain ⟨e, he, place, bit⟩ := h
    exact ⟨far e, ⟨e, he, (List.idxOf_inj (known e he)).1 place, rfl⟩, bit⟩
  · intro h
    obtain ⟨b, ⟨e, he, rfl, rfl⟩, bit⟩ := h
    exact ⟨e, he, rfl, bit⟩

/-- A table with all attacks seen has the masks of the neighbours, argument by argument. -/
theorem Lists.toList_eq_map (h : Lists F near far F.attacks table)
    (known : ∀ e ∈ F.attacks, near e ∈ F.arguments) :
    table.toList = F.arguments.map fun a =>
      F.mask ((F.attacks.filter fun e => near e == a).map far) := by
  refine List.ext_getElem (by simp [h.size_eq, size]) fun i hi hi' => ?_
  have inside : i < F.arguments.length := by simpa using hi'
  rw [List.getElem_map, ← h.getD_eq_mask known (List.getElem_mem inside),
    F.nodup.idxOf_getElem i inside]
  simp [Array.getD, show i < table.size by simpa using hi]

theorem toList_attackers (F : Framework) :
    F.tables.attackers.toList = F.arguments.map F.attackersMask :=
  (noted_tables F).attackers.toList_eq_map fun e he => (F.declared e he).2

theorem toList_targets (F : Framework) :
    F.tables.targets.toList = F.arguments.map F.targetsMask :=
  (noted_tables F).targets.toList_eq_map fun e he => (F.declared e he).1

theorem within_fullMask (hm : m < 2 ^ F.size) : within m F.fullMask = true := by
  rw [within_iff_members_subset hm, members_fullMask]
  exact fun a ha => ha.1

/-- What a framework knows of its arguments: their places, and by the places their neighbours. -/
structure Tabled (F : Framework) : Prop where
  nodup : F.arguments.Nodup
  index_names : F.index.map (·.1) = F.arguments
  index_places : F.index.map (·.2) = List.range F.size
  /-- Every place is that of one argument, and every argument has one place. -/
  position?_iff : ∀ a i, F.position? a = some i ↔ F.arguments[i]? = some a
  attackers_size : F.tables.attackers.size = F.size
  targets_size : F.tables.targets.size = F.size
  /-- The bit of `b` is set in the mask of the attackers of `a` if `b` attacks `a`. -/
  attackers_iff : ∀ i j a b, F.arguments[i]? = some a → F.arguments[j]? = some b →
    ((F.tables.attackers.getD i 0).testBit j = true ↔ ⟨b, a⟩ ∈ F.attacks)
  /-- And the bit of `a` is set in the mask of the targets of `b`. -/
  targets_iff : ∀ i j a b, F.arguments[i]? = some a → F.arguments[j]? = some b →
    ((F.tables.targets.getD j 0).testBit i = true ↔ ⟨b, a⟩ ∈ F.attacks)
  /-- No bit stands for anything but an argument. -/
  inside : ∀ m ∈ F.tables.attackers.toList ++ F.tables.targets.toList, within m F.fullMask = true
  /-- The rows that the semantics are decided on hold these masks. -/
  rows_attackers : F.rows.map (·.attackers) = F.tables.attackers.toList
  rows_targets : F.rows.map (·.targets) = F.tables.targets.toList
  /-- Made anew from its arguments and attacks, it is the same framework. -/
  rebuilt : F.rebuilt = .ok F

theorem rebuilt_eq_ok (F : Framework) : F.rebuilt = .ok F :=
  make_eq_ok_iff.2 ⟨(distinct_eq_self F.nodup).symm, rfl⟩

/-- An attack joins two arguments at the given places if it is the attack of one on the other. -/
theorem exists_at_iff (ha : F.arguments[i]? = some a) (hb : F.arguments[j]? = some b) :
    (∃ e ∈ F.attacks, F.arguments.idxOf e.target = i ∧ F.arguments.idxOf e.attacker = j) ↔
      ⟨b, a⟩ ∈ F.attacks := by
  have same {e : Attack} (he : e ∈ F.attacks) :
      (F.arguments.idxOf e.target = i ∧ F.arguments.idxOf e.attacker = j) ↔ e = ⟨b, a⟩ := by
    rw [idxOf_eq_iff ha (F.declared e he).2, idxOf_eq_iff hb (F.declared e he).1]
    cases e
    simp [and_comm]
  constructor
  · intro h
    obtain ⟨e, he, ends⟩ := h
    rwa [← (same he).1 ends]
  · intro he
    exact ⟨_, he, (same he).2 rfl⟩

theorem tabled (F : Framework) : Tabled F := by
  have noted := noted_tables F
  exact {
    nodup := F.nodup
    index_names := List.zipIdx_map_fst ..
    index_places := by simp [index, List.zipIdx_map_snd, List.range_eq_range', size]
    position?_iff := fun a i => position?_eq_some_iff
    attackers_size := noted.attackers.size_eq
    targets_size := noted.targets.size_eq
    attackers_iff := fun i j a b ha hb => by
      rw [noted.attackers.testBit_iff, exists_at_iff ha hb]
    targets_iff := fun i j a b ha hb => by
      rw [noted.targets.testBit_iff, ← exists_at_iff ha hb]
      simp only [and_comm]
    inside := fun m hm => by
      rw [toList_attackers, toList_targets, List.mem_append, List.mem_map, List.mem_map] at hm
      rcases hm with ⟨a, -, rfl⟩ | ⟨a, -, rfl⟩
      · exact within_fullMask attackersMask_lt
      · exact within_fullMask targetsMask_lt
    rows_attackers := by rw [toList_attackers, rows, List.map_map]; rfl
    rows_targets := by rw [toList_targets, rows, List.map_map]; rfl
    rebuilt := rebuilt_eq_ok F }

/-! ### Frameworks that are derived -/

/-- The framework `G` is reached from `F` by cutting down and making anew, in whatever order and as
often as one likes. -/
inductive Reached (F : Framework) : Framework → Prop where
  | start : Reached F F
  | restrict {G H : Framework} {keep : List Value} (before : Reached F G)
      (cut : G.restrictTo keep = .ok H) : Reached F H
  | rebuild {G H : Framework} (before : Reached F G) (made : G.rebuilt = .ok H) : Reached F H

/-- Cutting down leaves some of the attacks out and puts none in. -/
theorem attacks_sublist_of_restrictTo {keep : List Value} (cut : G.restrictTo keep = .ok H) :
    H.attacks.Sublist G.attacks := by
  obtain ⟨names, -, cut⟩ := bind_eq_ok_iff.1 cut
  rw [(make_eq_ok_iff.1 (mapError_eq_ok_iff.1 cut)).2]
  exact List.filter_sublist

theorem Reached.attacks_sublist (h : Reached F G) : G.attacks.Sublist F.attacks := by
  induction h with
  | start => exact List.Sublist.refl _
  | restrict _ cut ih => exact (attacks_sublist_of_restrictTo cut).trans ih
  | @rebuild G H _ made ih =>
      obtain rfl : G = H := Except.ok.inj ((rebuilt_eq_ok G).symm.trans made)
      exact ih

/-! ### Frameworks of values -/

variable {arguments : List Value} {attacks : List Attack.Given} {names : List String}

/-- Values name arguments if all of them can be written. -/
theorem namesOfValues_eq_ok_iff : namesOfValues arguments = .ok names ↔
    (∀ v ∈ arguments, v.obstacle? = none) ∧ arguments.map Value.name = names := by
  rw [namesOfValues, mapError_eq_ok_iff, mapM_eq_ok_iff]
  simp only [Value.written_eq_ok_iff]
  induction arguments generalizing names with
  | nil => simp [eq_comm]
  | cons v arguments ih =>
      simp only [List.forall₂_cons_left_iff, ih, List.forall_mem_cons, List.map_cons]
      constructor
      · rintro ⟨_, _, ⟨here, rfl⟩, ⟨later, rfl⟩, rfl⟩
        exact ⟨⟨here, later⟩, rfl⟩
      · rintro ⟨⟨here, later⟩, rfl⟩
        exact ⟨_, _, ⟨here, rfl⟩, ⟨later, rfl⟩, rfl⟩

/-- The first value that cannot be written is told. -/
theorem namesOfValues_eq_error_iff {fault : GraphFault} : namesOfValues arguments = .error fault ↔
    ∃ o, arguments.findSome? Value.obstacle? = some o ∧ fault = .argument o := by
  have first (o : Obstacle) : arguments.mapM Value.written = .error o ↔
      arguments.findSome? Value.obstacle? = some o := by
    induction arguments with
    | nil => simp [pure, Except.pure]
    | cons v arguments ih =>
        rw [List.mapM_cons, bind_eq_error_iff, List.findSome?_cons, Value.written_eq_error_iff]
        cases obstacle : v.obstacle? with
        | some o' => simp [Value.written_eq_ok_iff, obstacle]
        | none => simp [Value.written_eq_ok_iff, obstacle, bind_eq_error_iff, ih, pure, Except.pure]
  rw [namesOfValues, mapError_eq_error_iff]
  exact exists_congr fun o => and_congr (first o) eq_comm

/-- What a framework of the arguments and attacks is like. -/
structure Built (arguments : List Value) (attacks : List Attack.Given) (F : Framework) : Prop where
  arguments : Firsts (arguments.map Value.name) F.arguments
  attacks : attacks.mapM Attack.Given.read = .ok F.attacks
  /-- Every framework that is reached from it has its places and tables, and none of them has an
  attack that it has not. -/
  reached : ∀ G, Reached F G → Tabled G ∧ G.attacks.Sublist F.attacks

/-- When arguments and attacks make a framework, what is told if ends of attacks are missing or
arguments cannot be written, and what the framework is like. -/
structure Builds (arguments : List Value) (attacks : List Attack.Given) : Prop where
  accepted : (∃ F, ofGiven arguments attacks = .ok F) ↔
    arguments ≠ [] ∧ (∀ v ∈ arguments, v.obstacle? = none) ∧
      ∀ g ∈ attacks, g.Fits (arguments.map Value.name)
  /-- The ends that are missing are told once each and in rising order. -/
  undeclared : (∀ g ∈ attacks, g.WellFormed) → ∀ missing,
    ofGiven arguments attacks = .error (.framework (.undeclared missing)) ↔
      arguments ≠ [] ∧ (∀ v ∈ arguments, v.obstacle? = none) ∧
        missing ≠ [] ∧ missing.Pairwise (· < ·) ∧
        ∀ a, a ∈ missing ↔
          (∃ g ∈ attacks, ∃ v ∈ g.firstTwo, v.name = a) ∧ a ∉ arguments.map Value.name
  message : ∀ missing, (GraphFault.framework (.undeclared missing)).message =
    "Attacks reference undeclared arguments: " ++ ", ".intercalate missing
  /-- Arguments are written before anything is judged. -/
  unwritable : ∀ o, ofGiven arguments attacks = .error (.argument o) ↔
    arguments.findSome? Value.obstacle? = some o
  built : ∀ F, ofGiven arguments attacks = .ok F → Built arguments attacks F

theorem exists_ofNames_iff (indexed : ∀ g ∈ attacks, g.isIndexed = true) :
    (∃ F, ofNames names attacks = .ok F) ↔ names ≠ [] ∧ ∀ g ∈ attacks, g.Fits names := by
  rw [Attack.Given.forall_fits_iff indexed]
  constructor
  · intro h
    obtain ⟨F, made⟩ := h
    obtain ⟨arguments, read⟩ := ofNames_eq_ok_iff.1 made
    refine ⟨fun nothing => F.arguments_ne_nil ?_, F.attacks, read, undeclared_eq_nil_iff.2 ?_⟩
    · rw [arguments, nothing, distinct_eq_nil]
    · intro e he
      simpa [arguments] using F.declared e he
  · intro h
    obtain ⟨some_left, given, read, all_declared⟩ := h
    obtain ⟨F, made⟩ := exists_make some_left (undeclared_eq_nil_iff.1 all_declared)
    obtain ⟨arguments, rfl⟩ := make_eq_ok_iff.1 made
    exact ⟨F, ofNames_eq_ok_iff.2 ⟨arguments, read⟩⟩

theorem ofNames_eq_undeclared_iff (indexed : ∀ g ∈ attacks, g.isIndexed = true)
    (formed : ∀ g ∈ attacks, g.WellFormed) (missing : List String) :
    ofNames names attacks = .error (.framework (.undeclared missing)) ↔
      names ≠ [] ∧ missing ≠ [] ∧ missing.Pairwise (· < ·) ∧
        ∀ a, a ∈ missing ↔ (∃ g ∈ attacks, ∃ v ∈ g.firstTwo, v.name = a) ∧ a ∉ names := by
  obtain ⟨given, read⟩ := Attack.Given.exists_mapM_read indexed formed
  have members (a : String) : a ∈ undeclared (distinct names) given ↔
      (∃ g ∈ attacks, ∃ v ∈ g.firstTwo, v.name = a) ∧ a ∉ names := by
    rw [Attack.Given.mem_undeclared_of_mapM_read indexed read, mem_distinct]
  have rising : (undeclared (distinct names) given).Pairwise (· < ·) := pairwise_lt_canonical _
  by_cases nothing : names = []
  · subst nothing
    exact ⟨fun h => (nomatch h), fun h => absurd rfl h.1⟩
  rw [ofNames_eq_error_iff nothing]
  constructor
  · intro h
    rcases h with ⟨f, unread, -⟩ | ⟨given', read', left, told⟩
    · rw [read] at unread
      exact nomatch unread
    · obtain rfl : given = given' := Except.ok.inj (read.symm.trans read')
      cases told
      exact ⟨nothing, left, rising, members⟩
  · intro h
    obtain ⟨-, some_missing, in_order, exactly⟩ := h
    have same : missing = undeclared (distinct names) given :=
      in_order.eq_of_mem_iff rising fun a => (exactly a).trans (members a).symm
    exact .inr ⟨given, read, same ▸ some_missing, by rw [same]⟩

/-- Arguments are written, and then they are names. -/
theorem ofGiven_eq_ok_iff : ofGiven arguments attacks = .ok F ↔
    (∀ v ∈ arguments, v.obstacle? = none) ∧ ofNames (arguments.map Value.name) attacks = .ok F := by
  simp only [ofGiven, bind_eq_ok_iff, namesOfValues_eq_ok_iff]
  constructor
  · rintro ⟨_, ⟨writable, rfl⟩, made⟩
    exact ⟨writable, made⟩
  · rintro ⟨writable, made⟩
    exact ⟨_, ⟨writable, rfl⟩, made⟩

theorem ofGiven_eq_error_iff {fault : GraphFault} : ofGiven arguments attacks = .error fault ↔
    (∃ o, arguments.findSome? Value.obstacle? = some o ∧ fault = .argument o) ∨
      (∀ v ∈ arguments, v.obstacle? = none) ∧
        ofNames (arguments.map Value.name) attacks = .error fault := by
  simp only [ofGiven, bind_eq_error_iff, namesOfValues_eq_ok_iff, namesOfValues_eq_error_iff]
  refine or_congr_right ⟨?_, ?_⟩
  · rintro ⟨_, ⟨writable, rfl⟩, unmade⟩
    exact ⟨writable, unmade⟩
  · rintro ⟨writable, unmade⟩
    exact ⟨_, ⟨writable, rfl⟩, unmade⟩

/-- Once the arguments are names, nothing is told of writing them. -/
theorem ofNames_ne_argument {o : Obstacle} : ofNames names attacks ≠ .error (.argument o) := by
  intro h
  by_cases nothing : names = []
  · subst nothing
    exact nomatch h
  · rcases (ofNames_eq_error_iff nothing).1 h with ⟨f, -, told⟩ | ⟨given, -, -, told⟩
    · exact nomatch told
    · exact nomatch told

/-- **Arguments and attacks make a framework if the arguments are those that the attacks need**, and
the framework knows the places and the neighbours of its arguments, like every one that is reached
from it. -/
theorem ofGiven_builds (indexed : ∀ g ∈ attacks, g.isIndexed = true) :
    Builds arguments attacks where
  accepted := by
    simp only [ofGiven_eq_ok_iff, exists_and_left, exists_ofNames_iff indexed, ne_eq,
      List.map_eq_nil_iff]
    exact and_left_comm
  undeclared formed missing := by
    rw [ofGiven_eq_error_iff, ofNames_eq_undeclared_iff indexed formed]
    simp [and_left_comm]
  message _ := rfl
  unwritable o := by
    rw [ofGiven_eq_error_iff]
    simp [ofNames_ne_argument]
  built F made := by
    obtain ⟨names, read⟩ := ofNames_eq_ok_iff.1 (ofGiven_eq_ok_iff.1 made).2
    refine ⟨?_, read, fun G reached => ⟨tabled G, reached.attacks_sublist⟩⟩
    rw [names]
    exact firsts_distinct _

/-- Attacks that are handed over in every way. -/
def salvo : List Attack.Given :=
  [.raw (.text "a1"), .resolved ⟨"1", "c"⟩, .raw (.tuple [.text "b"]),
    .raw (.mapping [(.int 1, .text "a"), (.int 0, .null)])]

/-- Arguments are given as values, one of them twice. -/
theorem salvo_builds : (∀ g ∈ salvo, g.isIndexed = true) ∧
    Builds [.text "a", .int 1, .text "a"] salvo :=
  ⟨by decide, ofGiven_builds (by decide)⟩

/-- A mapping, whose elements are the keys `x` and `y`. -/
def keyed : Attack.Given := .raw (.mapping [(.text "x", .int 1), (.text "y", .int 2)])

/-- An argument that cannot be written makes no framework, and neither does an attack whose elements
are arguments but do not stand under the keys 0 and 1. -/
theorem unwritable_unbuilt :
    ofGiven [.int (10 ^ 5000)] [] = .error (.argument .digits) ∧
      keyed.elements = [.text "x", .text "y"] ∧
      ofGiven [.text "x", .text "y"] [keyed] = .error (.attack (.missing (.int 0))) := by
  have digits : [Value.int (10 ^ 5000)].findSome? Value.obstacle? = some .digits := by
    decide +kernel
  exact ⟨ofGiven_eq_error_iff.2 (.inl ⟨.digits, digits, rfl⟩), rfl, rfl⟩

end Framework

end Argumentation
