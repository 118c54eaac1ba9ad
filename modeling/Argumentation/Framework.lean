import Argumentation.Canonical

/-!
# Argumentation frameworks

A framework is a finite, non-empty set of arguments with attacks between them. Its arguments are
listed once each, in the order of their first declaration; its attacks are kept as they were given,
repetitions included. `Framework.make` accepts exactly the declarations that make one, and
`Framework.induced` cuts a framework down to some of its arguments.
-/

namespace Argumentation

/-- An attack of one argument on another, or on itself. -/
structure Attack where
  attacker : String
  target : String
  deriving DecidableEq, Repr

/-- A finite set of arguments and the attacks between them. -/
structure Framework where
  arguments : List String
  attacks : List Attack
  arguments_ne_nil : arguments ≠ []
  nodup : arguments.Nodup
  declared : ∀ a ∈ attacks, a.attacker ∈ arguments ∧ a.target ∈ arguments
  deriving DecidableEq

/-- Why arguments and attacks do not make a framework. -/
inductive FrameworkFault where
  | noArguments
  /-- Attacks name these arguments, which are not declared. -/
  | undeclared (names : List String)
  deriving DecidableEq, Repr

namespace FrameworkFault

/-- The words for the fault. -/
def message : FrameworkFault → String
  | .noArguments => "Framework must declare at least one argument."
  | .undeclared names => "Attacks reference undeclared arguments: " ++ ", ".intercalate names

end FrameworkFault

/-- The two arguments that an attack names, the attacker first. -/
def Attack.ends (a : Attack) : List String := [a.attacker, a.target]

namespace Framework

/-- The ends of attacks that are not among the arguments, once each and in rising order. -/
def undeclared (arguments : List String) (attacks : List Attack) : List String :=
  canonical ((attacks.flatMap Attack.ends).filter fun name => !arguments.contains name)

theorem mem_undeclared {arguments : List String} {attacks : List Attack} {name : String} :
    name ∈ undeclared arguments attacks ↔
      (∃ a ∈ attacks, name = a.attacker ∨ name = a.target) ∧ name ∉ arguments := by
  simp [undeclared, canonical, canonicalBy, Attack.ends]

theorem declared_of_undeclared_eq_nil {arguments : List String} {attacks : List Attack}
    (h : undeclared arguments attacks = []) :
    ∀ a ∈ attacks, a.attacker ∈ arguments ∧ a.target ∈ arguments := by
  intro a ha
  have none_left (name : String) : name ∉ undeclared arguments attacks := by simp [h]
  constructor
  · by_cases hm : a.attacker ∈ arguments
    · exact hm
    · exact absurd (mem_undeclared.2 ⟨⟨a, ha, .inl rfl⟩, hm⟩) (none_left _)
  · by_cases hm : a.target ∈ arguments
    · exact hm
    · exact absurd (mem_undeclared.2 ⟨⟨a, ha, .inr rfl⟩, hm⟩) (none_left _)

/-- The framework with the given arguments, each at its first place, and the given attacks. There
has to be an argument, and the ends of every attack have to be arguments. -/
def make (names : List String) (attacks : List Attack) : Except FrameworkFault Framework :=
  let arguments := distinct names
  if some_left : arguments = [] then .error .noArguments
  else if all_declared : undeclared arguments attacks = [] then
    .ok ⟨arguments, attacks, some_left, nodup_distinct names,
      declared_of_undeclared_eq_nil all_declared⟩
  else .error (.undeclared (undeclared arguments attacks))

/-- The number of arguments. -/
def size (F : Framework) : Nat := F.arguments.length

/-- The place of an argument among the arguments. -/
def position? (F : Framework) (name : String) : Option Nat := F.arguments.idxOf? name

/-- Whether the name is an argument. -/
def contains (F : Framework) (name : String) : Bool := F.arguments.contains name

@[simp] theorem contains_iff {F : Framework} {name : String} :
    F.contains name = true ↔ name ∈ F.arguments := List.contains_iff_mem

/-- Every argument with its place. -/
def index (F : Framework) : List (String × Nat) := F.arguments.zipIdx

/-- The framework of the given arguments with the attacks of `F` between the given members. -/
def induced (F : Framework) (arguments members : List String) : Except FrameworkFault Framework :=
  make arguments (F.attacks.filter fun a => members.contains a.attacker && members.contains a.target)

/-- The framework of some of the arguments of `F`, with the attacks of `F` between them. -/
def restrict (F : Framework) (names : List String) : Except FrameworkFault Framework :=
  F.induced names names

/-- The framework that is made anew from the arguments and attacks of `F`. -/
def rebuilt (F : Framework) : Except FrameworkFault Framework := make F.arguments F.attacks

end Framework

end Argumentation
