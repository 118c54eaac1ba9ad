import Argumentation.Proofs.Construction

/-!
# Argumentation.Proofs.Elements

Attacks as a caller hands them over, told by their elements. An attack can be read exactly if it has
two elements and the first two can be written (`read_eq_ok_iff`), and then it joins their names. How
it is handed over, as a sequence, a text or a mapping, matters only for where the first two elements
are found (`firstTwo`). Values of other kinds have no places for elements (`isIndexed`), and nothing
is said of them.

Attacks are read one after the other, so the first one that cannot be read is the one that is told.
`Blocked` says that it is one with something in it that cannot be written; then there is nothing to
be told about it either.
-/

namespace Argumentation

open Framework

variable {attacks : List Attack.Given} {g : Attack.Given} {a : Attack} {names : List String}
  {given : List Attack}

namespace Attack.Given

/-- The elements of an attack. -/
def elements : Attack.Given → List Value
  | .raw v => v.members
  | .resolved a => a.ends.map .text

/-- The elements that name the ends, as far as they are there. A mapping has them under the keys 0
and 1. -/
def firstTwo : Attack.Given → List Value
  | .raw v =>
    match v.opened with
    | .list items | .tuple items => items.take 2
    | .text s => (Value.characters s).take 2
    | .mapping entries => [0, 1].filterMap fun place => Value.lookup? (.int place) entries
    | _ => []
  | .resolved a => a.ends.map .text

/-- The attack has places at which its elements can be looked up. -/
def isIndexed : Attack.Given → Bool
  | .raw v => v.sequence?.isSome || v.opened.text?.isSome || v.entries?.isSome
  | .resolved _ => true

/-- Where there are no keys, the ends are in front. -/
theorem firstTwo_raw {v : Value} (h : (Attack.Given.raw v).isIndexed = true) :
    (Attack.Given.raw v).firstTwo = match v.entries? with
      | some entries => [0, 1].filterMap fun place => Value.lookup? (.int place) entries
      | none => v.members.take 2 := by
  simp only [isIndexed, firstTwo, Value.sequence?, Value.entries?, Value.members] at h ⊢
  generalize v.opened = w at h ⊢
  cases w with
  | list | tuple | mapping => rfl
  | set | node => simp [Value.text?] at h
  | atom a =>
      cases a with
      | text => rfl
      | _ => simp [Value.text?] at h

/-- What keeps the attack from being written. If it has elements for both ends, these two have to be
written, and otherwise all that it has, because it is told. -/
def obstacle? (g : Attack.Given) : Option Obstacle :=
  if 2 ≤ g.elements.length then g.firstTwo.findSome? Value.obstacle?
  else (Value.list g.elements).obstacle?

/-- The attack has two elements, and the first two can be written and name an attack. -/
structure WellFormed (g : Attack.Given) : Prop where
  long : 2 ≤ g.elements.length
  both : g.firstTwo.length = 2
  writable : ∀ v ∈ g.firstTwo, v.obstacle? = none

/-- The attack is one between the given names. -/
structure Fits (names : List String) (g : Attack.Given) : Prop extends WellFormed g where
  known : ∀ v ∈ g.firstTwo, v.name ∈ names

/-! ### Reading -/

theorem between_eq_ok_iff {x y : Value} :
    between x y = .ok a ↔ x.written = .ok a.attacker ∧ y.written = .ok a.target := by
  obtain ⟨m, n⟩ := a
  simp [between, bind_eq_ok_iff, pure, Except.pure]

theorem endAt_eq_ok_iff {entries : List (Value × Value)} {place : Int} {name : String} :
    endAt entries place = .ok name ↔
      ∃ v, Value.lookup? (.int place) entries = some v ∧ v.written = .ok name := by
  rw [endAt]
  split <;> simp [*]

theorem ofEntries_eq_ok_iff {entries : List (Value × Value)} :
    ofEntries entries = .ok a ↔
      endAt entries 0 = .ok a.attacker ∧ endAt entries 1 = .ok a.target := by
  obtain ⟨m, n⟩ := a
  simp [ofEntries, bind_eq_ok_iff, pure, Except.pure]

/-- A mapping has both ends if there is something under each of the two keys. -/
theorem filterMap_lookup?_eq_iff {entries : List (Value × Value)} {x y : Value} :
    ([0, 1].filterMap fun place => Value.lookup? (.int place) entries) = [x, y] ↔
      Value.lookup? (.int 0) entries = some x ∧ Value.lookup? (.int 1) entries = some y := by
  cases first : Value.lookup? (.int 0) entries <;> cases second : Value.lookup? (.int 1) entries <;>
    simp [first, second]

/-- An attack is read from its first two elements. -/
theorem read_eq_ok_iff (indexed : g.isIndexed = true) :
    g.read = .ok a ↔ 2 ≤ g.elements.length ∧
      ∃ x y, g.firstTwo = [x, y] ∧ x.written = .ok a.attacker ∧ y.written = .ok a.target := by
  cases g with
  | resolved b =>
      obtain ⟨m, n⟩ := a
      obtain ⟨k, l⟩ := b
      simp [read, elements, firstTwo, Attack.ends]
  | raw v =>
      rw [firstTwo_raw indexed]
      simp only [read, ofValue, elements]
      rcases v.members with _ | ⟨x, _ | ⟨y, rest⟩⟩
      · simp
      · simp
      · cases v.entries? with
        | none => simp [between_eq_ok_iff]
        | some entries =>
            have long : 2 ≤ (x :: y :: rest).length := Nat.le_add_left 2 rest.length
            simp only [ofEntries_eq_ok_iff, endAt_eq_ok_iff, filterMap_lookup?_eq_iff, long, true_and]
            constructor
            · rintro ⟨⟨x, first, written⟩, y, second, written'⟩
              exact ⟨x, y, ⟨first, second⟩, written, written'⟩
            · rintro ⟨x, y, ⟨first, second⟩, written, written'⟩
              exact ⟨⟨x, first, written⟩, y, second, written'⟩

/-- What is read names an attack, and what names an attack is read. -/
theorem exists_read_iff (indexed : g.isIndexed = true) :
    (∃ a, g.read = .ok a) ↔ g.WellFormed := by
  simp only [read_eq_ok_iff indexed]
  constructor
  · rintro ⟨a, long, x, y, both, first, second⟩
    refine ⟨long, by rw [both]; rfl, ?_⟩
    rw [both]
    simp [(Value.written_eq_ok_iff.1 first).1, (Value.written_eq_ok_iff.1 second).1]
  · intro h
    obtain ⟨x, y, both⟩ := List.length_eq_two.1 h.both
    have writable := h.writable
    rw [both] at writable
    refine ⟨⟨x.name, y.name⟩, h.long, x, y, both, ?_, ?_⟩
    · exact Value.written_eq_ok_iff.2 ⟨writable x (by simp), rfl⟩
    · exact Value.written_eq_ok_iff.2 ⟨writable y (by simp), rfl⟩

/-- The ends of an attack that is read are the names of its first two elements. -/
theorem ends_of_read (indexed : g.isIndexed = true) (h : g.read = .ok a) :
    a.ends = g.firstTwo.map Value.name := by
  obtain ⟨-, x, y, both, first, second⟩ := (read_eq_ok_iff indexed).1 h
  simp [both, Attack.ends, (Value.written_eq_ok_iff.1 first).2, (Value.written_eq_ok_iff.1 second).2]

/-- An attack fits names exactly if it is read and has both ends among them. -/
theorem fits_iff (indexed : g.isIndexed = true) :
    g.Fits names ↔ ∃ a, g.read = .ok a ∧ a.attacker ∈ names ∧ a.target ∈ names := by
  constructor
  · intro h
    obtain ⟨a, read⟩ := (exists_read_iff indexed).2 h.toWellFormed
    have known := h.known
    rw [← List.forall_mem_map (f := Value.name) (P := (· ∈ names)),
      ← ends_of_read indexed read] at known
    exact ⟨a, read, known _ (by simp [Attack.ends]), known _ (by simp [Attack.ends])⟩
  · rintro ⟨a, read, known⟩
    refine ⟨(exists_read_iff indexed).1 ⟨a, read⟩, ?_⟩
    rw [← List.forall_mem_map (f := Value.name) (P := (· ∈ names)), ← ends_of_read indexed read]
    simpa [Attack.ends] using known

/-- Attacks fit names exactly if all of them can be read and their ends are among the names. -/
theorem forall_fits_iff (indexed : ∀ g ∈ attacks, g.isIndexed = true) :
    (∀ g ∈ attacks, g.Fits names) ↔
      ∃ given, attacks.mapM read = .ok given ∧ undeclared names given = [] := by
  simp only [mapM_eq_ok_iff, undeclared_eq_nil_iff]
  induction attacks with
  | nil => simp
  | cons g attacks ih =>
      obtain ⟨indexed_here, indexed⟩ := List.forall_mem_cons.1 indexed
      rw [List.forall_mem_cons, ih indexed, fits_iff indexed_here]
      simp only [List.forall₂_cons_left_iff]
      constructor
      · rintro ⟨⟨a, here, known⟩, given, read, declared⟩
        exact ⟨a :: given, ⟨a, given, here, read, rfl⟩, List.forall_mem_cons.2 ⟨known, declared⟩⟩
      · rintro ⟨_, ⟨a, given, here, read, rfl⟩, declared⟩
        obtain ⟨known, declared⟩ := List.forall_mem_cons.1 declared
        exact ⟨⟨a, here, known⟩, given, read, declared⟩

/-- Well-formed attacks can be read one after the other. -/
theorem exists_mapM_read (indexed : ∀ g ∈ attacks, g.isIndexed = true)
    (formed : ∀ g ∈ attacks, g.WellFormed) : ∃ given, attacks.mapM read = .ok given := by
  obtain ⟨given, read, -⟩ := exists_mapM_eq_ok (P := fun _ => True) fun g hg =>
    ((exists_read_iff (indexed g hg)).2 (formed g hg)).imp fun a read => ⟨read, trivial⟩
  exact ⟨given, read⟩

/-- The ends of attacks that have been read are those of the attacks as they were given. -/
theorem map_ends_of_mapM_read (indexed : ∀ g ∈ attacks, g.isIndexed = true)
    (h : attacks.mapM read = .ok given) :
    given.map Attack.ends = attacks.map fun g => g.firstTwo.map Value.name := by
  replace h := mapM_eq_ok_iff.1 h
  induction h with
  | nil => rfl
  | cons here _ ih =>
      obtain ⟨indexed_here, indexed⟩ := List.forall_mem_cons.1 indexed
      rw [List.map_cons, List.map_cons, ends_of_read indexed_here here, ih indexed]

/-- The undeclared ends are the names of first two elements that are not declared. -/
theorem mem_undeclared_of_mapM_read (indexed : ∀ g ∈ attacks, g.isIndexed = true)
    (h : attacks.mapM read = .ok given) {name : String} :
    name ∈ undeclared names given ↔
      (∃ g ∈ attacks, ∃ v ∈ g.firstTwo, v.name = name) ∧ name ∉ names := by
  have joined : name ∈ (given.map Attack.ends).flatten ↔
      name ∈ (attacks.map fun g => g.firstTwo.map Value.name).flatten := by
    rw [map_ends_of_mapM_read indexed h]
  have either : (∃ e ∈ given, name = e.attacker ∨ name = e.target) ↔
      ∃ g ∈ attacks, ∃ v ∈ g.firstTwo, v.name = name := by
    simpa [Attack.ends] using joined
  rw [mem_undeclared, either]

/-! ### Sequences -/

end Attack.Given

/-- The first attack that is not read holds something that cannot be written. Those before it have
two elements or more, of which the first two can be written. -/
def Blocked (attacks : List Attack.Given) (obstacle : Obstacle) : Prop :=
  ∃ front g back, attacks = front ++ g :: back ∧
    (∀ e ∈ front, 2 ≤ e.elements.length ∧ e.obstacle? = none) ∧ g.obstacle? = some obstacle

end Argumentation
