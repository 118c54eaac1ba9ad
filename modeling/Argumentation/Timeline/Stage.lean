import Argumentation.Rank
import Argumentation.Timeline.Plan

/-!
# Stages

A framework evolves step by step as its arguments appear. A stage holds what is known at one step:
the framework of the visible arguments, its families of extensions, and the ranks of its arguments
from the top and from the bottom.

If any argument is marked as a root, the visible ones of the marked arguments are the roots, even if
there are none. Otherwise the root is the argument that is declared first, or last for the ranking
from the bottom, once it is visible.
-/

namespace Argumentation

/-- What is known at one step. -/
structure Stage where
  step : Int
  framework : Framework
  extensions : Families
  rankTop : Distances String
  rankBottom : Distances String

namespace Stage

/-- The ranks in a framework from the visible roots among `marked`, or from the `fallback` if none
is marked anywhere. -/
def ranks (F : Framework) (marked : List String) (fallback : String) : Distances String :=
  let fallback := if marked.isEmpty && F.contains fallback then some fallback else none
  Rank.compute (F.attacks.map fun a => (a.attacker, a.target)) (marked.filter F.contains) fallback

/-- The stage of a plan at a step with the given visible framework. -/
def make (p : Plan) (limit : Int) (step : Int) (F : Framework) : Except SizeExcess Stage := do
  let extensions ← F.extensions limit
  return ⟨step, F, extensions, ranks F p.top p.first, ranks F p.bottom p.last⟩

/-- The stages of a plan, in the order of their steps. -/
def ofPlan (p : Plan) (limit : Int) : Except PlanFault (List Stage) := do
  let snapshots ← p.snapshots.mapError fun fault => .graph (.framework fault)
  (snapshots.mapM fun (step, F) => make p limit step F).mapError .size

end Stage

/-- The stages of the framework that declarations and attacks describe. -/
def evolve (declarations : List Declared) (attacks : List Attack.Given) (limit : Int) :
    Except PlanFault (List Stage) := do
  Stage.ofPlan (← Plan.ofDeclared declarations attacks limit) limit

/-- The stages of the framework that values describe. -/
def decompose (declarations attacks : List Value) (limit : Int) : Except PlanFault (List Stage) :=
  evolve (declarations.map .raw) (attacks.map .raw) limit

/-- The stages of the framework that a document describes. -/
def Document.decompose (d : Document) (limit : Int) : Except PlanFault (List Stage) :=
  evolve (d.declarations.map .resolved) (d.attacks.map .resolved) limit

end Argumentation
