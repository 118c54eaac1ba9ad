import Argumentation.Extension.Semantics

/-!
# The grounded extension

The grounded extension is found by labelling. A round walks through the arguments twice. On the
first walk the arguments without a label whose attackers are all out are labelled in; on the second
walk everything that an argument with the label in attacks is labelled out. The rounds end when one
of them changes nothing; the arguments that are in then make up the extension. No set is enumerated,
so the size of the framework is not limited.

The rounds come to an end on all rows and from every labelling: a round that labels no argument in
can change something only if the second walk was still due, and it is not due after a round.
-/

namespace Argumentation

/-- The arguments that are labelled in and those that are labelled out, as masks. -/
@[ext]
structure Labelling where
  accepted : Nat
  rejected : Nat
  deriving DecidableEq, Repr

namespace Labelling

open Framework

/-- Nothing is labelled. -/
def empty : Labelling := ⟨0, 0⟩

/-- Labels in the argument of a row, if it has no label and all its attackers are out. -/
def acceptRow (l : Labelling) (r : Row) : Labelling :=
  if within r.bit (l.accepted ||| l.rejected) then l
  else if within r.attackers l.rejected then { l with accepted := l.accepted ||| r.bit }
  else l

/-- Labels out what the argument of a row attacks, if the argument is in. -/
def rejectRow (l : Labelling) (r : Row) : Labelling :=
  if within r.bit l.accepted then { l with rejected := l.rejected ||| r.targets } else l

/-- Labels in every argument without a label all of whose attackers are out. -/
def accept (rows : List Row) (l : Labelling) : Labelling := rows.foldl acceptRow l

/-- Labels out every argument that an accepted one attacks. -/
def reject (rows : List Row) (l : Labelling) : Labelling := rows.foldl rejectRow l

/-- One round. -/
def round (rows : List Row) (l : Labelling) : Labelling := reject rows (accept rows l)

/-! ### What one walk leaves as it is -/

@[simp] theorem rejectRow_accepted (l : Labelling) (r : Row) :
    (rejectRow l r).accepted = l.accepted := by
  unfold rejectRow
  split <;> rfl

@[simp] theorem reject_accepted (rows : List Row) (l : Labelling) :
    (reject rows l).accepted = l.accepted := by
  induction rows generalizing l with
  | nil => rfl
  | cons r rows ih => exact (ih (rejectRow l r)).trans (rejectRow_accepted l r)

/-! ### The second walk -/

theorem within_rejectRow (l : Labelling) (r : Row) :
    within l.rejected (rejectRow l r).rejected = true := by
  unfold rejectRow
  split
  · exact within_or_left _ _
  · exact within_refl _

theorem within_reject (rows : List Row) (l : Labelling) :
    within l.rejected (reject rows l).rejected = true := by
  induction rows generalizing l with
  | nil => exact within_refl _
  | cons r rows ih => exact within_trans (within_rejectRow l r) (ih (rejectRow l r))

/-- After the second walk, what an accepted argument attacks is out. -/
theorem targets_within_reject {rows : List Row} {r : Row} (hr : r ∈ rows) {l : Labelling}
    (hin : within r.bit l.accepted = true) :
    within r.targets (reject rows l).rejected = true := by
  induction rows generalizing l with
  | nil => exact absurd hr List.not_mem_nil
  | cons s rows ih =>
      rcases List.mem_cons.1 hr with rfl | hr
      · have here : within r.targets (rejectRow l r).rejected = true := by
          rw [rejectRow, if_pos hin]
          exact within_or_right _ _
        exact within_trans here (within_reject rows (rejectRow l r))
      · exact ih hr (by rw [rejectRow_accepted]; exact hin)

/-- A walk over rows all of whose accepted arguments have their targets out changes nothing. -/
theorem reject_eq_self {rows : List Row} {l : Labelling}
    (h : ∀ r ∈ rows, within r.bit l.accepted = true → within r.targets l.rejected = true) :
    reject rows l = l := by
  induction rows with
  | nil => rfl
  | cons r rows ih =>
      have here : rejectRow l r = l := by
        unfold rejectRow
        split
        · next hin => rw [or_eq_left_of_within (h r List.mem_cons_self hin)]
        · rfl
      have rest := ih fun s hs => h s (List.mem_cons_of_mem _ hs)
      exact (congrArg (reject rows) here).trans rest

/-- A second walk right after a second walk changes nothing. -/
theorem reject_reject (rows : List Row) (l : Labelling) :
    reject rows (reject rows l) = reject rows l := by
  refine reject_eq_self fun r hr hin => ?_
  rw [reject_accepted] at hin
  exact targets_within_reject hr hin

/-! ### The rounds come to an end -/

/-- The number of rows whose argument is not labelled in. -/
def unaccepted (rows : List Row) (l : Labelling) : Nat :=
  (rows.filter fun r => !within r.bit l.accepted).length

/-- Labelling one argument in leaves fewer that are not. -/
theorem acceptRow_eq_or_lt {rows : List Row} {r : Row} (hr : r ∈ rows) (l : Labelling) :
    acceptRow l r = l ∨ unaccepted rows (acceptRow l r) < unaccepted rows l := by
  by_cases labelled : within r.bit (l.accepted ||| l.rejected) = true
  · exact .inl (if_pos labelled)
  by_cases safe : within r.attackers l.rejected = true
  · right
    have grown : acceptRow l r = { l with accepted := l.accepted ||| r.bit } := by
      rw [acceptRow, if_neg labelled, if_pos safe]
    have fewer : (rows.filter fun s => !within s.bit (l.accepted ||| r.bit)) =
        (rows.filter fun s => !within s.bit l.accepted).filter
          fun s => !within s.bit (l.accepted ||| r.bit) := by
      rw [List.filter_filter]
      refine List.filter_congr fun s _ => ?_
      cases hs : within s.bit l.accepted with
      | false => simp
      | true => simp [within_trans hs (within_or_left l.accepted r.bit)]
    have open_before : r ∈ rows.filter fun s => !within s.bit l.accepted := by
      refine List.mem_filter.2 ⟨hr, ?_⟩
      simp only [Bool.not_eq_true', Bool.eq_false_iff]
      exact fun hin => labelled (within_trans hin (within_or_left _ _))
    rw [grown, unaccepted, unaccepted, fewer, List.length_filter_lt_length_iff_exists]
    exact ⟨r, open_before, by simp [within_or_right]⟩
  · exact .inl (by rw [acceptRow, if_neg labelled, if_neg safe])

/-- A first walk that changes something leaves fewer arguments that are not in. -/
theorem accept_eq_or_lt (rows : List Row) (l : Labelling) :
    accept rows l = l ∨ unaccepted rows (accept rows l) < unaccepted rows l := by
  suffices walk : ∀ rest : List Row, (∀ r ∈ rest, r ∈ rows) → ∀ l : Labelling,
      accept rest l = l ∨ unaccepted rows (accept rest l) < unaccepted rows l from
    walk rows (fun _ h => h) l
  intro rest
  induction rest with
  | nil => exact fun _ _ => .inl rfl
  | cons r rest ih =>
      intro sub l
      have later := ih (fun s hs => sub s (List.mem_cons_of_mem _ hs)) (acceptRow l r)
      show accept rest (acceptRow l r) = l ∨ unaccepted rows (accept rest (acceptRow l r)) < _
      rcases acceptRow_eq_or_lt (sub r List.mem_cons_self) l with same | fewer
      · rwa [same] at later ⊢
      · right
        rcases later with same | fewer'
        · rwa [same]
        · exact Nat.lt_trans fewer' fewer

/-- Rounds until one of them changes nothing. -/
def settle (rows : List Row) (l : Labelling) : Labelling :=
  if _unchanged : round rows l = l then l else settle rows (round rows l)
termination_by (unaccepted rows l, if reject rows l = l then 0 else 1)
decreasing_by
  have same_count : unaccepted rows (round rows l) = unaccepted rows (accept rows l) := by
    simp only [unaccepted, round, reject_accepted]
  rcases accept_eq_or_lt rows l with same | fewer
  · have due : reject rows l ≠ l := by
      intro h
      exact _unchanged (by rw [round, same, h])
    have done : reject rows (round rows l) = round rows l := reject_reject rows _
    rw [same_count, same, if_neg due, if_pos done]
    exact Prod.Lex.right _ (by decide)
  · exact Prod.Lex.left _ _ (by rw [same_count]; exact fewer)

end Labelling

namespace Framework

/-- The labelling at which the rounds end. -/
def labelling (F : Framework) : Labelling := Labelling.settle F.rows .empty

/-- The grounded extension: what is accepted when the rounds end. -/
def groundedExtension (F : Framework) : List String := F.namesOf F.labelling.accepted

end Framework

end Argumentation
