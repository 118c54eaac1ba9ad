import Argumentation.Extension.Labelling

/-!
# Families of extensions

All extensions of a framework under every semantics. The sets of arguments are visited one after the
other in the order of their masks. What a set attacks is put together from what the set without its
lowest member attacks, which has been visited before, and the targets of that member; a set with a
conflict inside is not looked at any further. The names come back only at the end, when each family
is sorted.

The number of sets is exponential, so frameworks above a limit are refused before the enumeration.
-/

namespace Argumentation

/-- The families of extensions of one framework. -/
structure Families where
  conflictFree : List (List String)
  admissible : List (List String)
  complete : List (List String)
  preferred : List (List String)
  grounded : List (List String)
  stable : List (List String)
  deriving DecidableEq, Repr

/-- The family of one semantics. -/
def Families.get (f : Families) : Semantics → List (List String)
  | .conflictFree => f.conflictFree
  | .admissible => f.admissible
  | .complete => f.complete
  | .preferred => f.preferred
  | .grounded => f.grounded
  | .stable => f.stable

/-- A framework has more arguments than can be enumerated. -/
structure SizeExcess where
  size : Int
  limit : Int
  deriving DecidableEq, Repr

/-- The words for an excess whose size and limit are written so. -/
def SizeExcess.sentence (size limit : String) : String :=
  "Framework has " ++ size ++ " arguments; at most " ++ limit ++ " can be enumerated."

/-- The words for the excess. -/
def SizeExcess.message (e : SizeExcess) : String :=
  SizeExcess.sentence (toString e.size) (toString e.limit)

namespace Framework

/-- The most arguments that are enumerated unless a caller says otherwise. -/
def defaultLimit : Int := 20

/-- Refuses a framework with more arguments than the limit. -/
def checkSize (F : Framework) (limit : Int) : Except SizeExcess Unit :=
  if limit < F.size then .error ⟨F.size, limit⟩ else .ok ()

theorem checkSize_eq_ok_iff {F : Framework} {limit : Int} :
    F.checkSize limit = .ok () ↔ F.size ≤ limit := by
  unfold checkSize
  split
  · next above => exact ⟨fun h => (nomatch h), fun h => absurd above (Int.not_lt.2 h)⟩
  · next below => exact ⟨fun _ => Int.not_lt.1 below, fun _ => rfl⟩

theorem checkSize_eq_error_iff {F : Framework} {limit : Int} {excess : SizeExcess} :
    F.checkSize limit = .error excess ↔ limit < F.size ∧ excess = ⟨F.size, limit⟩ := by
  unfold checkSize
  split
  · next above => simp [above, eq_comm]
  · next below => simp [below]

/-- What an enumeration of the sets has found so far, as masks. -/
structure Enumeration where
  /-- What each visited set attacks, at the place of its mask. -/
  attacked : Array Nat
  conflictFree : Array Nat
  admissible : Array Nat
  complete : Array Nat
  stable : Array Nat
  deriving Repr

namespace Enumeration

/-- No set has been visited. -/
def start : Enumeration := ⟨#[], #[], #[], #[], #[]⟩

/-- What the set `m` attacks, when all sets before it have been visited. -/
def hitOf (targets : Array Nat) (e : Enumeration) (m : Nat) : Nat :=
  if m = 0 then 0
  else e.attacked.getD (withoutLowest m) 0 ||| targets.getD (lowest m) 0

/-- Visits the set `m`. -/
def visit (rows : List Row) (targets : Array Nat) (full : Nat) (e : Enumeration) (m : Nat) :
    Enumeration :=
  let hit := e.hitOf targets m
  let e := { e with attacked := e.attacked.push hit }
  if !isConflictFree m hit then e
  else
    let e := { e with conflictFree := e.conflictFree.push m }
    let e := if m ||| hit == full then { e with stable := e.stable.push m } else e
    let safe := defendedBy rows hit
    if !within m safe then e
    else
      let e := { e with admissible := e.admissible.push m }
      if safe == m then { e with complete := e.complete.push m } else e

end Enumeration

/-- The enumeration of all sets of arguments. -/
def enumeration (F : Framework) : Enumeration :=
  let rows := F.rows
  (List.range (1 <<< F.size)).foldl
    (Enumeration.visit rows (rows.map (·.targets)).toArray F.fullMask) .start

/-- The masks that are contained in no other one. -/
def maximal (masks : Array Nat) : Array Nat :=
  masks.filter fun m => !(masks.any fun n => m != n && within m n)

/-- The sets of arguments with the given masks, in rising order. -/
def named (F : Framework) (masks : Array Nat) : List (List String) :=
  (masks.toList.map fun (m : Nat) => F.namesOf m).mergeSort notAfter

/-- The families of extensions of a framework, whatever its size. -/
def families (F : Framework) : Families :=
  let e := F.enumeration
  { conflictFree := F.named e.conflictFree
    admissible := F.named e.admissible
    complete := F.named e.complete
    preferred := F.named (maximal e.admissible)
    grounded := [F.groundedExtension]
    stable := F.named e.stable }

/-- The families of extensions of a framework within the limit. -/
def extensions (F : Framework) (limit : Int) : Except SizeExcess Families := do
  F.checkSize limit
  return F.families

theorem extensions_eq_ok {F : Framework} {limit : Int} (h : F.size ≤ limit) :
    F.extensions limit = .ok F.families := by
  rw [extensions, checkSize_eq_ok_iff.2 h]
  rfl

/-- The family of one semantics. The grounded extension is found without enumeration, so the limit
does not concern it. -/
def family (F : Framework) (limit : Int) : Semantics → Except SizeExcess (List (List String))
  | .grounded => .ok [F.groundedExtension]
  | s => (F.extensions limit).map fun f => f.get s

end Framework

end Argumentation
