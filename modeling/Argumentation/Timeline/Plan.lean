import Argumentation.Rejection

/-!
# Plans

When each declared argument appears. If no declaration gives a step, the declarations are counted, and
each argument appears at the number of its first declaration; a repeated declaration counts as well,
so where `a` is declared twice before `b`, they appear at the steps 1 and 3. Otherwise a declaration
without a step takes that of the last declaration before it that gives one, and 0 if there is none; a
repeated declaration still sets the step for those after it, but an argument keeps the step of its
first declaration.

A plan keeps the arguments in the order in which they appear, those of one step in the order of
their declarations. So the arguments that are visible at a step are always a front part of it.
-/

namespace Argumentation

namespace Timeline

/-- The step of every declaration, where `current` is the step in force and `numbered` says that
the declarations count the steps themselves. -/
def stepsFrom (numbered : Bool) (current : Int) : List Declaration → List (String × Int)
  | [] => []
  | d :: ds =>
    let current := if numbered then d.step?.getD current else current + 1
    (d.id, current) :: stepsFrom numbered current ds

/-- The entries whose key is not the key of an earlier one. -/
def firstEntries (entries : List (String × Int)) : List (String × Int) :=
  entries.eraseDupsBy fun e f => e.1 == f.1

theorem firstEntries_cons (e : String × Int) (entries : List (String × Int)) :
    firstEntries (e :: entries) = e :: firstEntries (entries.filter fun f => !(f.1 == e.1)) := by
  have others : (fun f : String × Int => decide ((f.1 == e.1) = false)) =
      fun f => !(f.1 == e.1) := by
    funext f
    cases f.1 == e.1 <;> rfl
  rw [firstEntries, firstEntries, List.eraseDupsBy_cons, others]

/-- The step of every declared argument, in the order of the first declarations. -/
def resolveSteps (ds : List Declaration) : List (String × Int) :=
  firstEntries (stepsFrom (ds.any fun d => d.step?.isSome) 0 ds)

/-- The place between `low` and `high` at which `x` goes into a rising sequence, behind the members
that are equal to it. The places between which it lies are halved until they meet. -/
def bisect (xs : Array Int) (x : Int) (low high : Nat) (inside : high ≤ xs.size) : Nat :=
  if apart : low < high then
    if x < xs[(low + high) / 2] then bisect xs x low ((low + high) / 2) (by omega)
    else bisect xs x ((low + high) / 2 + 1) high inside
  else low
termination_by high - low

/-- The place at which `x` goes into a rising sequence, behind the members that are equal to it. -/
def bisectRight (xs : Array Int) (x : Int) : Nat := bisect xs x 0 xs.size (Nat.le_refl _)

end Timeline

/-- The declarations of a document, resolved. -/
structure Plan where
  /-- All arguments and attacks. -/
  framework : Framework
  /-- The arguments with their steps, in the order in which they appear. -/
  order : List (String × Int)
  /-- The arguments that are marked as roots of the ranking from the top. -/
  top : List String
  /-- The arguments that are marked as roots of the ranking from the bottom. -/
  bottom : List String
  /-- The argument that is declared first. -/
  first : String
  /-- The argument that is declared last. -/
  last : String

/-- Why declarations and attacks do not make a plan. -/
inductive PlanFault where
  | declaration (fault : DeclarationFault)
  | graph (fault : GraphFault)
  | size (excess : SizeExcess)

/-- How a plan that cannot be made is answered. A bad declaration is told as part of a document,
unless it is nested so deep that it cannot be told. -/
def PlanFault.failure : PlanFault → Failure
  | .declaration fault =>
    if fault.obstacle? = some .nesting then .tooDeep
    else .rejection (.invalidDocument fault.message)
  | .graph fault => .ofGraph fault
  | .size excess => .ofExcess excess

namespace Plan

/-- The plan of declarations that have been read. -/
def ofDeclarations (ds : List Declaration) (attacks : List Attack.Given) (limit : Int) :
    Except PlanFault Plan :=
  match ds with
  | [] => .error (.graph (.framework .noArguments))
  | d :: rest => do
    let steps := Timeline.resolveSteps (d :: rest)
    let framework ← (Framework.ofNames (steps.map (·.1)) attacks).mapError .graph
    (framework.checkSize limit).mapError .size
    return {
      framework
      order := steps.mergeSort fun a b => decide (a.2 ≤ b.2)
      top := distinct (((d :: rest).filter Declaration.isTop).map Declaration.id)
      bottom := distinct (((d :: rest).filter Declaration.isBottom).map Declaration.id)
      first := d.id
      last := ((d :: rest).getLast (List.cons_ne_nil d rest)).id }

/-- The plan of declarations. All of them are read before anything else is judged. -/
def ofDeclared (declarations : List Declared) (attacks : List Attack.Given) (limit : Int) :
    Except PlanFault Plan := do
  let ds ← (declarations.mapM Declared.read).mapError .declaration
  ofDeclarations ds attacks limit

/-- The plan of declarations as values. -/
def make (declarations attacks : List Value) (limit : Int) : Except PlanFault Plan :=
  ofDeclared (declarations.map .raw) (attacks.map .raw) limit

/-- The steps at which arguments appear, once each and in rising order. -/
def stepNumbers (p : Plan) : List Int :=
  canonicalBy (fun a b => decide (a ≤ b)) (p.order.map (·.2))

/-- The arguments that have appeared by the given step: the front part of the order that ends where
the step would go. -/
def visibleAt (p : Plan) (step : Int) : List String :=
  (p.order.map (·.1)).take (Timeline.bisectRight (p.order.map (·.2)).toArray step)

/-- The framework of the visible arguments at every step. -/
def snapshots (p : Plan) : Except FrameworkFault (List (Int × Framework)) :=
  p.stepNumbers.mapM fun step => (p.framework.restrict (p.visibleAt step)).map fun F => (step, F)

end Plan

end Argumentation
