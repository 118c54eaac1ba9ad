import Argumentation.Document
import Argumentation.Proofs.Construction

/-!
# Argumentation.Proofs.Spelling

What is spelled out is read back as it was: a tag, a declaration, an attack, and so a whole document.

Two readings have to be kept apart. A declaration is spelled out as a mapping with two entries or
more, so it is never taken for the short form, which has one entry with the name as its key; that
holds whatever the argument is called, `kind` and `id` included. And a step tag is spelled out as a
mapping, which is no text, so it cannot come back as a label.
-/

namespace Argumentation

/-- A walk over values that are all read back gives what they have been made of. -/
theorem mapM_map_eq_ok {ε α β : Type} {f : β → Except ε α} {g : α → β}
    (back : ∀ a, f (g a) = .ok a) (xs : List α) : (xs.map g).mapM f = .ok xs := by
  rw [mapM_eq_ok_iff, List.forall₂_map_left_iff, List.forall₂_same]
  intro a _
  exact back a

/-- Checks side by side that all succeed give their results in the same order. -/
theorem Field.every_map_eq_ok {α β : Type} {check : β → Checked α} (read : β → α)
    (each : ∀ b, check b = .ok (read b)) (xs : List β) :
    every (xs.map check) = .ok (xs.map read) := by
  induction xs with
  | nil => rfl
  | cons b xs ih =>
      show both List.cons (check b) (every (xs.map check)) = _
      rw [each, ih]
      rfl

theorem Field.both_eq_ok_iff {α β γ : Type} {combine : α → β → γ} {x : Checked α} {y : Checked β}
    {c : γ} : both combine x y = .ok c ↔ ∃ a b, x = .ok a ∧ y = .ok b ∧ combine a b = c := by
  cases x with
  | error es => cases y <;> simp [both]
  | ok a => cases y <;> simp [both]

/-! ### Tags and declarations -/

theorem Tag.check_dump (t : Tag) : Tag.check t.dump = .ok t := by
  cases t with
  | step n => rfl
  | label s => rfl

namespace Declaration

theorem checkTags_dump (tags : List Tag) :
    checkTags (some (.tuple (tags.map Tag.dump))) = .ok tags := by
  show Field.every ((tags.map Tag.dump).zipIdx.map _) = _
  rw [List.zipIdx_map, List.map_map]
  -- the places of the tags show in issues only, and there are none
  rw [Field.every_map_eq_ok Prod.fst, List.zipIdx_map_fst]
  intro entry
  show (Tag.check entry.1.dump).mapError _ = _
  rw [Tag.check_dump]
  rfl

theorem parse_dump (d : Declaration) : parse d.dump = .ok d := by
  cases d with
  | bare id => rfl
  | tagged id tags =>
      show ((Field.both Declaration.tagged (.ok id)
        (checkTags (some (.tuple (tags.map Tag.dump))))).mapError _).mapError _ = _
      rw [checkTags_dump]
      rfl

end Declaration

/-- What has been resolved is handed over as it is. -/
theorem Declared.mapM_read_resolved (ds : List Declaration) :
    (ds.map Declared.resolved).mapM Declared.read = .ok ds :=
  mapM_map_eq_ok (f := Declared.read) (fun _ => rfl) ds

theorem Attack.Given.mapM_read_resolved (attacks : List Attack) :
    (attacks.map Attack.Given.resolved).mapM Attack.Given.read = .ok attacks :=
  mapM_map_eq_ok (f := Attack.Given.read) (fun _ => rfl) attacks

/-! ### Documents -/

theorem Attack.ofEntry_toValue (a : Attack) : Attack.ofEntry a.toValue = .ok a := rfl

namespace Document

section Fields

variable {raw : Value} {d : Document}

/-- The declarations and attacks of a document are those that its fields hold. -/
theorem fields_of_check (checked : check raw = .ok d) :
    (∀ v, raw.field? "arguments" = some v → checkArguments v = .ok d.declarations) ∧
      ∀ v, raw.field? "attacks" = some v → checkAttacks v = .ok d.attacks := by
  rw [check] at checked
  split at checked
  · exact nomatch checked
  · obtain ⟨_, _, inner, -, rfl⟩ := Field.both_eq_ok_iff.1 checked
    obtain ⟨_, _, declared, attacked, rfl⟩ := Field.both_eq_ok_iff.1 inner
    refine ⟨fun v here => ?_, fun v here => ?_⟩
    · rw [here] at declared
      exact declared
    · rw [here] at attacked
      exact attacked

end Fields

variable (d : Document)

theorem checkArguments_dump :
    checkArguments (.list (d.declarations.map Declaration.dump)) = .ok d.declarations := by
  show ((d.declarations.map Declaration.dump).mapM Declaration.parse).mapError _ = _
  rw [mapM_map_eq_ok Declaration.parse_dump]
  rfl

theorem checkAttacks_dump : checkAttacks (.list (d.attacks.map Attack.toValue)) = .ok d.attacks := by
  show ((d.attacks.map Attack.toValue).mapM Attack.ofEntry).mapError _ = _
  rw [mapM_map_eq_ok Attack.ofEntry_toValue]
  rfl

theorem checkExhibit_dump : checkExhibit ((d.exhibit.map Value.text).getD .null) = .ok d.exhibit := by
  cases d.exhibit with
  | none => rfl
  | some s => rfl

theorem check_dump : check d.dump = .ok d := by
  -- each field is found at its key, and the fields of a document are judged one by one
  show Field.both _ (Field.both Prod.mk (checkArguments (.list (d.declarations.map Declaration.dump)))
      (checkAttacks (.list (d.attacks.map Attack.toValue))))
    (checkExhibit ((d.exhibit.map Value.text).getD .null)) = _
  rw [checkArguments_dump, checkAttacks_dump, checkExhibit_dump]
  rfl

/-- **Documents survive being spelled out.** Every document is read back from its spelling. So a
value that makes a document makes the same one when the document is spelled out and read again, and
a value that makes none is refused as before. -/
theorem check_dump_check : (∀ d : Document, check d.dump = .ok d) ∧
    ∀ raw : Value, (check raw >>= fun d => check d.dump) = check raw := by
  refine ⟨check_dump, fun raw => ?_⟩
  cases read : check raw with
  | error issues => rfl
  | ok d => exact check_dump d

/-- Arguments that are called like the keys of the long form. -/
def namesakes : Value :=
  .mapping [
    (.text "arguments", .mapping [
      (.text "kind", .list [.text "top", .mapping [(.text "step", .text "+2.0")]]),
      (.text "id", .null)]),
    (.text "attacks", .list [
      .mapping [(.text "target", .text "id"), (.text "attacker", .text "kind")]]),
    (.text "exhibit", .text "Kind is an id.")]

example : (check namesakes >>= fun d => check d.dump) =
    .ok ⟨[.tagged "kind" [.label "top", .step 2], .tagged "id" []], [⟨"kind", "id"⟩],
      some "Kind is an id."⟩ := by
  rfl

end Document

end Argumentation
