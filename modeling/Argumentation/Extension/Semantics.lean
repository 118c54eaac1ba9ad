import Argumentation.Framework.Mask

/-!
# Semantics of a set of arguments

When a set of arguments is conflict-free, admissible, complete or stable, decided on its mask. A set
attacks an argument if one of its members does; it defends an argument if it attacks all attackers
of the argument.
-/

namespace Argumentation

/-- The semantics under which a framework has extensions. -/
inductive Semantics where
  | conflictFree
  | admissible
  | complete
  | preferred
  | grounded
  | stable
  deriving DecidableEq, Repr

namespace Semantics

/-- All semantics, in the order in which they are reported. -/
def all : List Semantics := [.conflictFree, .admissible, .complete, .preferred, .grounded, .stable]

/-- The key of the semantics in reports and requests. -/
def key : Semantics → String
  | .conflictFree => "conflict_free"
  | .admissible => "admissible"
  | .complete => "complete"
  | .preferred => "preferred"
  | .grounded => "grounded"
  | .stable => "stable"

/-- The semantics with the given key. -/
def ofKey? (key : String) : Option Semantics := all.find? fun s => s.key == key

end Semantics

namespace Framework

/-- Whether every bit of `m` is a bit of `n`. -/
def within (m n : Nat) : Bool := m &&& n == m

theorem within_iff {m n : Nat} :
    within m n = true ↔ ∀ i, m.testBit i = true → n.testBit i = true := by
  rw [within, beq_iff_eq]
  constructor
  · intro h i hi
    rw [← h, Nat.testBit_and, Bool.and_eq_true] at hi
    exact hi.2
  · intro h
    refine Nat.eq_of_testBit_eq fun i => ?_
    rw [Nat.testBit_and]
    cases hi : m.testBit i with
    | false => rfl
    | true => rw [h i hi]; rfl

theorem within_refl (m : Nat) : within m m = true := within_iff.2 fun _ h => h

theorem within_trans {l m n : Nat} (h₁ : within l m = true) (h₂ : within m n = true) :
    within l n = true :=
  within_iff.2 fun i hi => within_iff.1 h₂ i (within_iff.1 h₁ i hi)

theorem within_antisymm {m n : Nat} (h₁ : within m n = true) (h₂ : within n m = true) : m = n :=
  Nat.eq_of_testBit_eq fun i => Bool.eq_iff_iff.2 ⟨within_iff.1 h₁ i, within_iff.1 h₂ i⟩

theorem within_or_left (m n : Nat) : within m (m ||| n) = true :=
  within_iff.2 fun i hi => by rw [Nat.testBit_or, hi, Bool.true_or]

theorem within_or_right (m n : Nat) : within n (m ||| n) = true :=
  within_iff.2 fun i hi => by rw [Nat.testBit_or, hi, Bool.or_true]

/-- A part adds nothing to the whole. -/
theorem or_eq_left_of_within {m n : Nat} (h : within n m = true) : m ||| n = m := by
  refine Nat.eq_of_testBit_eq fun i => ?_
  rw [Nat.testBit_or]
  cases hi : n.testBit i with
  | false => rw [Bool.or_false]
  | true => rw [within_iff.1 h i hi]; rfl

/-- The mask of what the set `m` attacks. -/
def attackedBy (rows : List Row) (m : Nat) : Nat :=
  rows.foldl (fun hit r => if within r.bit m then hit ||| r.targets else hit) 0

/-- The mask of the arguments all of whose attackers are in `hit`. -/
def defendedBy (rows : List Row) (hit : Nat) : Nat :=
  rows.foldl (fun safe r => if within r.attackers hit then safe ||| r.bit else safe) 0

/-- Whether a set that attacks `hit` attacks no member of its own. -/
def isConflictFree (m hit : Nat) : Bool := m &&& hit == 0

/-- Whether a conflict-free set that attacks `hit` defends all its members. -/
def isAdmissible (rows : List Row) (m hit : Nat) : Bool :=
  isConflictFree m hit && within m (defendedBy rows hit)

/-- Whether a conflict-free set that attacks `hit` has the arguments that it defends as its
members. -/
def isComplete (rows : List Row) (m hit : Nat) : Bool :=
  isConflictFree m hit && defendedBy rows hit == m

/-- Whether a conflict-free set that attacks `hit` attacks every argument that it leaves out. -/
def isStable (full m hit : Nat) : Bool :=
  isConflictFree m hit && m ||| hit == full

/-- What the four semantics that can be decided on a set alone say of it. -/
structure Verdict where
  conflictFree : Bool
  admissible : Bool
  complete : Bool
  stable : Bool
  deriving DecidableEq, Repr

/-- What the semantics say of the set with the mask `m`. -/
def judge (F : Framework) (m : Nat) : Verdict :=
  let hit := attackedBy F.rows m
  { conflictFree := isConflictFree m hit
    admissible := isAdmissible F.rows m hit
    complete := isComplete F.rows m hit
    stable := isStable F.fullMask m hit }

end Framework

end Argumentation
