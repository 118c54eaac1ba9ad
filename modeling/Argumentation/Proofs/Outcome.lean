import Argumentation.Proofs.Construction

/-!
# Argumentation.Proofs.Outcome

What a computation comes to that stops at its first fault. `Ends done failed x` says that `x` gives
a result with the property `done` or a fault with the property `failed`. Such statements are put
together as the computations are: of one step and what follows it, and of a walk over a list.
-/

namespace Argumentation

variable {ε α β : Type} {done : α → Prop} {failed : ε → Prop} {x : Except ε α}

/-- The computation gives a result that is `done`, or a fault that is `failed`. -/
def Ends (done : α → Prop) (failed : ε → Prop) : Except ε α → Prop
  | .ok a => done a
  | .error e => failed e

namespace Ends

/-- A step, and what follows it. -/
theorem bind {f : α → Except ε β} {done' : β → Prop} (h : Ends done failed x)
    (next : ∀ a, done a → Ends done' failed (f a)) : Ends done' failed (x >>= f) := by
  cases x with
  | error e => exact h
  | ok a => exact next a h

/-- Each step of a walk gives a result that is `done`. -/
theorem mapM {f : α → Except ε β} {done : β → Prop} {xs : List α}
    (h : ∀ a ∈ xs, Ends done failed (f a)) :
    Ends (fun ys => ∀ b ∈ ys, done b) failed (xs.mapM f) := by
  induction xs with
  | nil => exact fun _ hb => absurd hb List.not_mem_nil
  | cons a xs ih =>
      obtain ⟨here, later⟩ := List.forall_mem_cons.1 h
      rw [List.mapM_cons]
      refine here.bind fun b hb => (ih later).bind fun bs hbs => ?_
      exact List.forall_mem_cons.2 ⟨hb, hbs⟩

end Ends

end Argumentation
