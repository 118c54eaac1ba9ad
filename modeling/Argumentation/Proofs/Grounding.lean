import Argumentation.Extension.Labelling
import Argumentation.Proofs.Verdict

/-!
# Argumentation.Proofs.Grounding

The rounds of the labelling end at the least fixpoint of the characteristic function.

`Labelling.Run` is the loop as a relation: it relates a labelling to the one at which the rounds
end, and to every labelling on the way there, one for each look at an argument. That there is a run
at all says that the loop ends. The invariant of a run is `Labelling.Sound`; one look at an argument
preserves it on either walk (`Sound.acceptRow`, `Sound.rejectRow`), so it holds all along a run.

Disjointness is the delicate part of it. The second walk labels an argument out without asking
whether it is in; that it never is follows from the order in which the labels were given: when an
argument was labelled in, all its attackers were out already, so none of them is in now.
-/

namespace Argumentation

open Framework

namespace Labelling

variable {F : Framework} {rows : List Row} {l l' : Labelling} {a b : String}

/-! ### Runs -/

/-- Every label of `l` is a label of `l'`. -/
def Grows (l l' : Labelling) : Prop :=
  within l.accepted l'.accepted = true ∧ within l.rejected l'.rejected = true

/-- The labellings of one round: those of the first walk, then those of the second. -/
def walks (rows : List Row) (l : Labelling) : List Labelling :=
  rows.scanl acceptRow l ++ rows.scanl rejectRow (accept rows l)

/-- Rounds from `l` until one of them changes nothing, which is at the last labelling. The list has
all labellings on the way, in their order. -/
inductive Run (rows : List Row) : Labelling → List Labelling → Labelling → Prop where
  | stop {l : Labelling} (same : round rows l = l) : Run rows l (walks rows l) l
  | next {l last : Labelling} {trace : List Labelling} (changed : round rows l ≠ l)
      (rest : Run rows (round rows l) trace last) : Run rows l (walks rows l ++ trace) last

/-- The loop ends, from every labelling. -/
theorem exists_run (rows : List Row) (l : Labelling) :
    ∃ trace, Run rows l trace (settle rows l) := by
  induction l using settle.induct rows with
  | case1 l same =>
      refine ⟨walks rows l, ?_⟩
      rw [settle, dif_pos same]
      exact .stop same
  | case2 l changed ih =>
      obtain ⟨trace, rest⟩ := ih
      refine ⟨walks rows l ++ trace, ?_⟩
      rw [settle, dif_neg changed]
      exact .next changed rest

/-- It makes no difference whether a round is made before the loop. -/
theorem settle_round (rows : List Row) (l : Labelling) :
    settle rows (round rows l) = settle rows l := by
  by_cases same : round rows l = l
  · rw [same]
  · rw [settle.eq_def rows l, dif_neg same]

/-- The loop ends where it is found that a round changes nothing. -/
theorem settle_eq_iterate (n : Nat)
    (same : round rows ((round rows)^[n] l) = (round rows)^[n] l) :
    settle rows l = (round rows)^[n] l := by
  induction n generalizing l with
  | zero =>
      rw [settle]
      exact dif_pos same
  | succ n ih =>
      rw [← settle_round]
      exact ih same

/-- A round changes nothing at the labelling at which a run ends. -/
theorem Run.round_eq {trace : List Labelling} (h : Run rows l trace l') : round rows l' = l' := by
  induction h with
  | stop same => exact same
  | next _ _ ih => exact ih

theorem round_labelling (F : Framework) : round F.rows F.labelling = F.labelling := by
  obtain ⟨trace, run⟩ := exists_run F.rows .empty
  exact run.round_eq

/-! ### Labels only grow -/

theorem Grows.refl (l : Labelling) : Grows l l := ⟨within_refl _, within_refl _⟩

theorem Grows.trans {k : Labelling} (h₁ : Grows k l) (h₂ : Grows l l') : Grows k l' :=
  ⟨within_trans h₁.1 h₂.1, within_trans h₁.2 h₂.2⟩

theorem grows_acceptRow (l : Labelling) (r : Row) : Grows l (acceptRow l r) := by
  unfold acceptRow
  split
  · exact Grows.refl l
  · split
    · exact ⟨within_or_left _ _, within_refl _⟩
    · exact Grows.refl l

theorem grows_rejectRow (l : Labelling) (r : Row) : Grows l (rejectRow l r) := by
  unfold rejectRow
  split
  · exact ⟨within_refl _, within_or_left _ _⟩
  · exact Grows.refl l

theorem start_mem_scanl {look : Labelling → Row → Labelling} : l ∈ rows.scanl look l := by
  cases rows <;> simp [List.scanl_cons]

/-- The labellings of a walk whose looks add labels only. -/
theorem scanl_grows {look : Labelling → Row → Labelling} (h : ∀ l r, Grows l (look l r))
    (rows : List Row) (l : Labelling) :
    (rows.scanl look l).Pairwise Grows ∧
      ∀ k ∈ rows.scanl look l, Grows l k ∧ Grows k (rows.foldl look l) := by
  induction rows generalizing l with
  | nil => simp [Grows.refl]
  | cons r rows ih =>
      obtain ⟨chain, between⟩ := ih (look l r)
      have start : Grows l (rows.foldl look (look l r)) :=
        (h l r).trans (between _ start_mem_scanl).2
      rw [List.scanl_cons, List.foldl_cons]
      refine ⟨List.pairwise_cons.2 ⟨fun k hk => (h l r).trans (between k hk).1, chain⟩, ?_⟩
      intro k hk
      rcases List.mem_cons.1 hk with rfl | hk
      · exact ⟨Grows.refl k, start⟩
      · exact ⟨(h l r).trans (between k hk).1, (between k hk).2⟩

theorem walks_grow (rows : List Row) (l : Labelling) :
    (walks rows l).Pairwise Grows ∧
      ∀ k ∈ walks rows l, Grows l k ∧ Grows k (round rows l) := by
  obtain ⟨chain₁, between₁⟩ := scanl_grows grows_acceptRow rows l
  obtain ⟨chain₂, between₂⟩ := scanl_grows grows_rejectRow rows (accept rows l)
  have first : Grows l (accept rows l) := (between₁ l start_mem_scanl).2
  have second : Grows (accept rows l) (round rows l) := (between₂ _ start_mem_scanl).2
  refine ⟨List.pairwise_append.2 ⟨chain₁, chain₂, fun j hj k hk => ?_⟩, fun k hk => ?_⟩
  · exact (between₁ j hj).2.trans (between₂ k hk).1
  · rcases List.mem_append.1 hk with hk | hk
    · exact ⟨(between₁ k hk).1, (between₁ k hk).2.trans second⟩
    · exact ⟨first.trans (between₂ k hk).1, (between₂ k hk).2⟩

/-- Along a run no label is ever taken back. -/
theorem Run.grows {trace : List Labelling} (h : Run rows l trace l') :
    trace.Pairwise Grows ∧ ∀ k ∈ trace, Grows l k := by
  induction h with
  | @stop l _ => exact ⟨(walks_grow rows l).1, fun k hk => ((walks_grow rows l).2 k hk).1⟩
  | @next l _ trace _ _ ih =>
      obtain ⟨chain, between⟩ := walks_grow rows l
      obtain ⟨chain', later⟩ := ih
      refine ⟨List.pairwise_append.2 ⟨chain, chain', fun j hj k hk => ?_⟩, fun k hk => ?_⟩
      · exact (between j hj).2.trans (later k hk)
      · rcases List.mem_append.1 hk with hk | hk
        · exact (between k hk).1
        · have whole := (between l (List.mem_append_left _ start_mem_scanl)).2
          exact whole.trans (later k hk)

/-! ### The invariant of a run -/

/-- What holds of the labels at any time during a run. -/
structure Sound (F : Framework) (l : Labelling) : Prop where
  accepted_lt : l.accepted < 2 ^ F.size
  rejected_lt : l.rejected < 2 ^ F.size
  /-- No argument has both labels. -/
  apart : ∀ a ∈ F.members l.accepted, a ∉ F.members l.rejected
  /-- The attackers of an argument that is in are out. -/
  safe : ∀ a ∈ F.members l.accepted, ∀ b, F.Attacks b a → b ∈ F.members l.rejected
  /-- An argument that is out is attacked by one that is in. -/
  hit : ∀ b ∈ F.members l.rejected, ∃ a ∈ F.members l.accepted, F.Attacks a b
  /-- Only arguments are in that every set closed under defence has. -/
  least : ∀ S, F.characteristic S ⊆ S → F.members l.accepted ⊆ S

theorem Sound.empty (F : Framework) : Sound F .empty := by
  have none_in : F.members Labelling.empty.accepted = ∅ := members_zero
  have none_out : F.members Labelling.empty.rejected = ∅ := members_zero
  constructor
  · exact Nat.two_pow_pos _
  · exact Nat.two_pow_pos _
  · simp [none_in]
  · simp [none_in]
  · simp [none_out]
  · simp [none_in]

/-- A look on the first walk. The newcomer has no label and all its attackers are out; each of them
is attacked by an argument that is in, so a set closed under defence has the newcomer too. -/
theorem Sound.acceptRow (h : Sound F l) {r : Row} (hr : r ∈ F.rows) : Sound F (acceptRow l r) := by
  obtain ⟨a, ha, rfl⟩ := mem_rows.1 hr
  unfold Labelling.acceptRow
  split
  · exact h
  next unlabelled =>
  split
  · next attackers_out =>
    rw [within_bit_iff ha, members_or, Set.mem_union, not_or] at unlabelled
    rw [within_attackersMask_iff] at attackers_out
    have grown : F.members (l.accepted ||| F.bit a) = insert a (F.members l.accepted) :=
      members_or_bit ha
    constructor
    · exact Nat.or_lt_two_pow h.accepted_lt (bit_lt ha)
    · exact h.rejected_lt
    · rw [grown]
      rintro b (rfl | hb)
      · exact unlabelled.2
      · exact h.apart b hb
    · rw [grown]
      rintro b (rfl | hb)
      · exact attackers_out
      · exact h.safe b hb
    · intro b hb
      obtain ⟨c, hc, hcb⟩ := h.hit b hb
      exact ⟨c, by rw [grown]; exact .inr hc, hcb⟩
    · intro S closed
      rw [grown]
      rintro b (rfl | hb)
      · -- the members so far, which are in `S`, attack all attackers of the newcomer
        refine closed ⟨ha, fun c hcb => ?_⟩
        obtain ⟨d, hd, hdc⟩ := h.hit c (attackers_out c hcb)
        exact ⟨d, h.least S closed hd, hdc⟩
      · exact h.least S closed hb
  · exact h

/-- A look on the second walk. If a target were in, its attacker would be out, but it is in. -/
theorem Sound.rejectRow (h : Sound F l) {r : Row} (hr : r ∈ F.rows) : Sound F (rejectRow l r) := by
  obtain ⟨a, ha, rfl⟩ := mem_rows.1 hr
  unfold Labelling.rejectRow
  split
  · next a_in =>
    have a_in := (within_bit_iff ha).1 a_in
    have grown (b : String) : b ∈ F.members (l.rejected ||| F.targetsMask a) ↔
        b ∈ F.members l.rejected ∨ F.Attacks a b := by
      rw [members_or, Set.mem_union, mem_members_targetsMask]
    constructor
    · exact h.accepted_lt
    · exact Nat.or_lt_two_pow h.rejected_lt targetsMask_lt
    · intro b hb out
      rcases (grown b).1 out with out | hab
      · exact h.apart b hb out
      · -- `a` was out already when `b` was labelled in, and it still is
        exact h.apart a a_in (h.safe b hb a hab)
    · exact fun b hb c hcb => (grown c).2 (.inl (h.safe b hb c hcb))
    · intro b out
      rcases (grown b).1 out with out | hab
      · exact h.hit b out
      · exact ⟨a, a_in, hab⟩
    · exact h.least
  · exact h

/-- A walk whose looks preserve the invariant preserves it all along. -/
theorem Sound.scanl {look : Labelling → Row → Labelling}
    (step : ∀ l, Sound F l → ∀ r ∈ F.rows, Sound F (look l r)) {rest : List Row}
    (sub : ∀ r ∈ rest, r ∈ F.rows) (h : Sound F l) :
    (∀ k ∈ rest.scanl look l, Sound F k) ∧ Sound F (rest.foldl look l) := by
  induction rest generalizing l with
  | nil => simpa using h
  | cons r rest ih =>
      obtain ⟨along, last⟩ := ih (fun s hs => sub s (List.mem_cons_of_mem _ hs))
        (step l h r (sub r List.mem_cons_self))
      rw [List.scanl_cons, List.foldl_cons]
      exact ⟨List.forall_mem_cons.2 ⟨h, along⟩, last⟩

theorem Sound.walks (h : Sound F l) :
    (∀ k ∈ walks F.rows l, Sound F k) ∧ Sound F (round F.rows l) := by
  obtain ⟨along₁, middle⟩ := Sound.scanl (fun _ h _ hr => h.acceptRow hr) (fun _ hr => hr) h
  obtain ⟨along₂, last⟩ := Sound.scanl (fun _ h _ hr => h.rejectRow hr) (fun _ hr => hr) middle
  refine ⟨fun k hk => ?_, last⟩
  exact (List.mem_append.1 hk).elim (along₁ k) (along₂ k)

/-- The invariant holds of every labelling of a run, and of the one at which it ends. -/
theorem Run.sound {trace : List Labelling} (run : Run F.rows l trace l') (h : Sound F l) :
    (∀ k ∈ trace, Sound F k) ∧ Sound F l' := by
  induction run with
  | stop _ => exact ⟨h.walks.1, h⟩
  | next _ _ ih =>
      obtain ⟨along, last⟩ := ih h.walks.2
      exact ⟨fun k hk => (List.mem_append.1 hk).elim (h.walks.1 k) (along k), last⟩

theorem sound_labelling (F : Framework) : Sound F F.labelling := by
  obtain ⟨trace, run⟩ := exists_run F.rows .empty
  exact (run.sound (Sound.empty F)).2

/-! ### The end of a run -/

theorem Grows.antisymm (h₁ : Grows l l') (h₂ : Grows l' l) : l = l' :=
  Labelling.ext (within_antisymm h₁.1 h₂.1) (within_antisymm h₁.2 h₂.2)

/-- If a whole walk changes nothing, none of its looks does: labels that are given stay. -/
theorem look_eq_self {look : Labelling → Row → Labelling} (h : ∀ l r, Grows l (look l r))
    (same : rows.foldl look l = l) : ∀ r ∈ rows, look l r = l := by
  induction rows with
  | nil => exact fun _ hr => absurd hr List.not_mem_nil
  | cons r rows ih =>
      rw [List.foldl_cons] at same
      -- the rest of the walk only adds labels, so it cannot undo what the first look adds
      have back : Grows (look l r) l := by
        have rest := ((scanl_grows h rows (look l r)).2 _ start_mem_scanl).2
        rwa [same] at rest
      have here : look l r = l := back.antisymm (h l r)
      rw [here] at same
      exact List.forall_mem_cons.2 ⟨here, ih same⟩

/-- If a round changes nothing, neither walk does. -/
theorem walks_eq_self (same : round rows l = l) : accept rows l = l ∧ reject rows l = l := by
  have between := (walks_grow rows l).2
  have middle := between (accept rows l) (List.mem_append_right _ start_mem_scanl)
  rw [same] at middle
  have first : accept rows l = l := middle.2.antisymm middle.1
  rw [round, first] at same
  exact ⟨first, same⟩

/-- Where a round changes nothing, an argument whose attackers are all out has a label. -/
theorem labelled_of_attackers_out (same : round F.rows l = l) (ha : a ∈ F.arguments)
    (out : ∀ b, F.Attacks b a → b ∈ F.members l.rejected) :
    a ∈ F.members l.accepted ∨ a ∈ F.members l.rejected := by
  have unchanged := look_eq_self grows_acceptRow (walks_eq_self same).1 _ (mem_rows.2 ⟨a, ha, rfl⟩)
  rw [← Set.mem_union, ← members_or, ← within_bit_iff ha]
  by_contra unlabelled
  rw [acceptRow, if_neg unlabelled, if_pos (within_attackersMask_iff.2 out)] at unchanged
  refine unlabelled (within_trans ?_ (within_or_left _ _))
  rw [← congrArg Labelling.accepted unchanged]
  exact within_or_right _ _

/-- Where a round changes nothing, an argument that is attacked by one that is in is out. -/
theorem out_of_attacker_in (same : round F.rows l = l) (ha : a ∈ F.members l.accepted)
    (hab : F.Attacks a b) : b ∈ F.members l.rejected := by
  have unchanged := look_eq_self grows_rejectRow (walks_eq_self same).2 _
    (mem_rows.2 ⟨a, ha.1, rfl⟩)
  rw [rejectRow, if_pos ((within_bit_iff ha.1).2 ha)] at unchanged
  rw [← congrArg Labelling.rejected unchanged, members_or]
  exact .inr (mem_members_targetsMask.2 hab)

/-- At the end of the rounds the arguments that are in are those that they defend. An argument that
they defend has a label, and it is not out: the one that attacks it would be in and out. -/
theorem characteristic_accepted (F : Framework) :
    F.characteristic (F.members F.labelling.accepted) = F.members F.labelling.accepted := by
  have sound := sound_labelling F
  have same := round_labelling F
  refine Set.Subset.antisymm ?_ fun a ha => ?_
  · rintro a ⟨ha, defended⟩
    have attackers_out : ∀ b, F.Attacks b a → b ∈ F.members F.labelling.rejected := by
      intro b hba
      obtain ⟨c, hc, hcb⟩ := defended b hba
      exact out_of_attacker_in same hc hcb
    rcases labelled_of_attackers_out same ha attackers_out with a_in | a_out
    · exact a_in
    · obtain ⟨c, hc, hca⟩ := sound.hit a a_out
      exact absurd (attackers_out c hca) (sound.apart c hc)
  · exact ⟨ha.1, fun b hba => sound.hit b (sound.safe a ha b hba)⟩

/-- The arguments that are in at the end are the least fixpoint of the characteristic function. -/
theorem members_accepted_eq_lfp (F : Framework) :
    F.members F.labelling.accepted = F.characteristic.lfp := by
  refine le_antisymm ((sound_labelling F).least _ F.characteristic.map_lfp.le) ?_
  exact F.characteristic.lfp_le (characteristic_accepted F).le

theorem conflictFree_accepted (F : Framework) :
    F.ConflictFree (F.members F.labelling.accepted) := by
  refine ⟨fun a ha => ha.1, fun a ha b hb hab => ?_⟩
  exact (sound_labelling F).apart a ha ((sound_labelling F).safe b hb a hab)

end Labelling

namespace Framework

variable {F G : Framework}

/-! ### The grounded extension -/

theorem mem_groundedExtension {a : String} :
    a ∈ F.groundedExtension ↔ a ∈ F.characteristic.lfp := by
  rw [groundedExtension, mem_namesOf, Labelling.members_accepted_eq_lfp]

theorem pairwise_lt_groundedExtension (F : Framework) : F.groundedExtension.Pairwise (· < ·) :=
  pairwise_lt_namesOf _

theorem conflictFree_lfp (F : Framework) : F.ConflictFree F.characteristic.lfp := by
  rw [← Labelling.members_accepted_eq_lfp]
  exact Labelling.conflictFree_accepted F

/-- The characteristic function knows of a framework only which arguments and attacks it has. -/
theorem characteristic_congr (arguments : ∀ a, a ∈ G.arguments ↔ a ∈ F.arguments)
    (attacks : ∀ e, e ∈ G.attacks ↔ e ∈ F.attacks) : G.characteristic = F.characteristic := by
  ext S a
  simp only [mem_characteristic, Defends, Attacks, arguments, attacks]

/-- **The labelling finds the grounded extension.** The rounds end; on the way the labels in and out
stay apart and only grow; and the extension is the canonical form of the least fixpoint of the
characteristic function, which is free of conflicts. The order of the declarations has no part in
it. -/
theorem groundedExtension_isLeast (F : Framework) :
    (∃ trace, Labelling.Run F.rows .empty trace F.labelling ∧
      (∀ l ∈ trace, l.accepted &&& l.rejected = 0) ∧ trace.Pairwise Labelling.Grows) ∧
    F.groundedExtension.Pairwise (· < ·) ∧
    IsLeast {S | F.characteristic S = S} {a | a ∈ F.groundedExtension} ∧
    F.ConflictFree {a | a ∈ F.groundedExtension} ∧
    ∀ G : Framework, (∀ a, a ∈ G.arguments ↔ a ∈ F.arguments) →
      (∀ e, e ∈ G.attacks ↔ e ∈ F.attacks) → G.groundedExtension = F.groundedExtension := by
  have same : {a | a ∈ F.groundedExtension} = F.characteristic.lfp :=
    Set.ext fun _ => mem_groundedExtension
  obtain ⟨trace, run⟩ := Labelling.exists_run F.rows .empty
  refine ⟨⟨trace, run, fun l hl => ?_, run.grows.1⟩, pairwise_lt_groundedExtension F, ?_, ?_, ?_⟩
  · have sound := (run.sound (Labelling.Sound.empty F)).1 l hl
    exact (and_eq_zero_iff sound.accepted_lt).2 sound.apart
  · rw [same]
    exact ⟨F.characteristic.map_lfp, fun S hS => F.characteristic.lfp_le (le_of_eq hS)⟩
  · rw [same]
    exact conflictFree_lfp F
  · intro G arguments attacks
    refine (pairwise_lt_groundedExtension G).eq_of_mem_iff (pairwise_lt_groundedExtension F) ?_
    intro a
    rw [mem_groundedExtension, mem_groundedExtension, characteristic_congr arguments attacks]

end Framework

end Argumentation
