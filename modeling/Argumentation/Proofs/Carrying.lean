import Argumentation.Proofs.Appearance
import Mathlib.Data.List.Find

/-!
# Argumentation.Proofs.Carrying

The step of every argument, told by the place of its first declaration. The walk over the
declarations carries a step along. Where declarations give steps, each of them that gives one puts
it in force and all others leave the one in force as it is (`Timeline.InForce`); where none does,
each counts one further. Repeated declarations take part in the walk like all others, but an
argument keeps the step that the walk had at its first declaration.

Two walks are taken apart here, and both leave behind what the last one to speak has said: the walk
over the declarations, and the look through the tags of one declaration. So both rest on one lemma
about the last member that has a value (`getLast?_filterMap_eq_some_iff`).
-/

namespace Argumentation

/-! ### The last one that has a value -/

section Last

variable {α β : Type} {f : α → Option β} {xs : List α} {b : β}

theorem getLast?_filterMap_cons (f : α → Option β) (x : α) (xs : List α) :
    ((x :: xs).filterMap f).getLast? = ((xs.filterMap f).getLast?).or (f x) := by
  cases here : f x with
  | none => simp [here]
  | some b => cases later : (xs.filterMap f).getLast? <;> simp [here, later, List.getLast?_cons]

/-- The last value is that of a member behind which no member has one. -/
theorem getLast?_filterMap_eq_some_iff :
    (xs.filterMap f).getLast? = some b ↔
      ∃ front x back, xs = front ++ x :: back ∧ f x = some b ∧ ∀ y ∈ back, f y = none := by
  constructor
  · intro h
    obtain ⟨values, split⟩ := List.getLast?_eq_some_iff.1 h
    obtain ⟨front, rest, rfl, -, last⟩ := List.filterMap_eq_append_iff.1 split
    obtain ⟨silent, x, back, rfl, -, here, nothing⟩ := List.filterMap_eq_cons_iff.1 last
    exact ⟨front ++ silent, x, back, by simp, here, List.filterMap_eq_nil_iff.1 nothing⟩
  · intro h
    obtain ⟨front, x, back, rfl, here, silent⟩ := h
    simp [List.filterMap_append, here, List.filterMap_eq_nil_iff.2 silent]

theorem getLast?_filterMap_eq_none_iff :
    (xs.filterMap f).getLast? = none ↔ ∀ x ∈ xs, f x = none := by
  rw [List.getLast?_eq_none_iff, List.filterMap_eq_nil_iff]

end Last

namespace Declaration

variable {d : Declaration} {s : Int}

/-- The declaration gives the step `s`: it has a tag for this step and behind it no tag for a
step. -/
def Gives (d : Declaration) (s : Int) : Prop :=
  ∃ front back, d.tags = front ++ .step s :: back ∧ ∀ n, .step n ∉ back

theorem step?_eq_some_iff : d.step? = some s ↔ d.Gives s := by
  have silent (back : List Tag) : (∀ t ∈ back, t.step? = none) ↔ ∀ n, .step n ∉ back := by
    constructor
    · intro h n hn
      exact nomatch h _ hn
    · intro h t ht
      cases t with
      | step n => exact absurd ht (h n)
      | label _ => rfl
  rw [step?, getLast?_filterMap_eq_some_iff]
  simp only [silent, Gives]
  constructor
  · intro h
    obtain ⟨front, t, back, split, here, behind⟩ := h
    cases t with
    | step n =>
        cases here
        exact ⟨front, back, split, behind⟩
    | label _ => exact nomatch here
  · intro h
    obtain ⟨front, back, split, behind⟩ := h
    exact ⟨front, .step s, back, split, rfl, behind⟩

theorem step?_eq_none_iff : d.step? = none ↔ ∀ n, ¬ d.Gives n := by
  simp only [← step?_eq_some_iff, Option.eq_none_iff_forall_ne_some, ne_eq]

end Declaration

namespace Timeline

variable {ds : List Declaration} {a : String} {s : Int} {i : Nat}

/-! ### The walk over the declarations -/

/-- The step that is in force behind the declarations: that of the last one that gives a step, or
zero if none does. -/
def InForce (ds : List Declaration) (s : Int) : Prop :=
  (∃ front d back, ds = front ++ d :: back ∧ d.Gives s ∧ ∀ e ∈ back, ∀ n, ¬ e.Gives n) ∨
    s = 0 ∧ ∀ e ∈ ds, ∀ n, ¬ e.Gives n

theorem inForce_iff : InForce ds s ↔ (ds.filterMap Declaration.step?).getLast?.getD 0 = s := by
  simp only [InForce, ← Declaration.step?_eq_none_iff]
  simp only [← Declaration.step?_eq_some_iff]
  rw [← getLast?_filterMap_eq_some_iff, ← getLast?_filterMap_eq_none_iff]
  cases (ds.filterMap Declaration.step?).getLast? with
  | none => simp [eq_comm]
  | some n => simp

/-- Where declarations give steps, the walk is at the last one that has been given so far. -/
theorem getElem?_stepsFrom_true (current : Int) (ds : List Declaration) (i : Nat) :
    (stepsFrom true current ds)[i]? = ds[i]?.map fun d =>
      (d.id, ((ds.take (i + 1)).filterMap Declaration.step?).getLast?.getD current) := by
  induction ds generalizing current i with
  | nil => rfl
  | cons d ds ih =>
      cases i with
      | zero => cases here : d.step? <;> simp [stepsFrom, here]
      | succ i =>
          -- what the later ones say comes first, then this one, then what was in force before
          rw [stepsFrom, if_pos rfl, List.getElem?_cons_succ, ih, List.getElem?_cons_succ,
            List.take_succ_cons, getLast?_filterMap_cons]
          cases ((ds.take (i + 1)).filterMap Declaration.step?).getLast? <;> simp

/-- Where no declaration gives a step, the walk counts. -/
theorem getElem?_stepsFrom_false (current : Int) (ds : List Declaration) (i : Nat) :
    (stepsFrom false current ds)[i]? = ds[i]?.map fun d => (d.id, current + (i + 1)) := by
  induction ds generalizing current i with
  | nil => rfl
  | cons d ds ih =>
      cases i with
      | zero => simp [stepsFrom]
      | succ i =>
          have next : current + 1 + (i + 1) = current + ((i + 1 : Nat) + 1) := by omega
          rw [stepsFrom, if_neg Bool.false_ne_true, List.getElem?_cons_succ, ih, next]
          rfl

/-! ### The first entry of a key -/

/-- Removing what repeats a key leaves the first entry of every key where it can be found. -/
theorem find?_firstEntries (entries : List (String × Int)) (a : String) :
    (firstEntries entries).find? (fun e => e.1 == a) = entries.find? fun e => e.1 == a := by
  match entries with
  | [] => rfl
  | e :: entries =>
    rw [firstEntries_cons, List.find?_cons, List.find?_cons]
    by_cases here : e.1 = a
    · simp [here]
    · have apart : (e.1 == a) = false := by simpa using here
      simp only [apart]
      rw [find?_firstEntries, List.find?_filter]
      refine List.find?_congr fun f _ => ?_
      by_cases there : f.1 = a
      · simp [there, Ne.symm here]
      · simp [there]
termination_by entries.length
decreasing_by
  exact Nat.lt_succ_of_le (List.length_filter_le _ entries)

/-- Where no two entries have the same key, looking for a key finds the entry that has it. -/
theorem find?_eq_some_of_mem {entries : List (String × Int)} (keys : (entries.map (·.1)).Nodup)
    (listed : (a, s) ∈ entries) : entries.find? (fun e => e.1 == a) = some (a, s) := by
  cases found : entries.find? fun e => e.1 == a with
  | none =>
      have missing := List.find?_eq_none.1 found (a, s) listed
      simp at missing
  | some e =>
      have same := (List.find?_eq_some_iff_getElem.1 found).1
      have there := List.mem_of_find?_eq_some found
      rw [List.inj_on_of_nodup_map keys there listed (by simpa using same)]

/-- An entry is left if no earlier one has its key. -/
theorem mem_firstEntries_iff {entries : List (String × Int)} :
    (a, s) ∈ firstEntries entries ↔
      ∃ i, (entries.map (·.1)).idxOf? a = some i ∧ entries[i]? = some (a, s) := by
  have found : (a, s) ∈ firstEntries entries ↔
      entries.find? (fun e => e.1 == a) = some (a, s) := by
    have keys : ((firstEntries entries).map (·.1)).Nodup := by
      rw [firstEntries_map_fst]
      exact nodup_distinct _
    rw [← find?_firstEntries]
    exact ⟨find?_eq_some_of_mem keys, List.mem_of_find?_eq_some⟩
  rw [found, List.find?_eq_some_iff_getElem]
  simp only [List.idxOf?_eq_some_iff, List.length_map, List.getElem_map, List.getElem?_eq_some_iff]
  constructor
  · intro h
    obtain ⟨-, i, hi, here, before⟩ := h
    exact ⟨i, ⟨hi, by rw [here], fun j hj => by simpa using before j hj⟩, hi, here⟩
  · intro h
    obtain ⟨i, ⟨hi, -, before⟩, hi', here⟩ := h
    exact ⟨by simp, i, hi', here, fun j hj => by simpa using before j hj⟩

/-! ### The steps of the arguments -/

theorem mem_resolveSteps_iff : (a, s) ∈ resolveSteps ds ↔
    ∃ i, (ds.map Declaration.id).idxOf? a = some i ∧
      (stepsFrom (ds.any fun d => d.step?.isSome) 0 ds)[i]? = some (a, s) := by
  rw [resolveSteps, mem_firstEntries_iff, stepsFrom_map_fst]

/-- At the place of a declaration of `a`, the entry of the walk is that of `a`. -/
theorem map_id_eq_some_iff {t : Int} (h : (ds.map Declaration.id).idxOf? a = some i) :
    (ds[i]?.map fun d => (d.id, t)) = some (a, s) ↔ t = s := by
  obtain ⟨hi, here, -⟩ := List.idxOf?_eq_some_iff.1 h
  simp only [List.length_map, List.getElem_map] at hi here
  simp [List.getElem?_eq_getElem hi, here]

theorem any_step?_iff : (ds.any fun d => d.step?.isSome) = true ↔ ∃ d ∈ ds, ∃ n, d.Gives n := by
  simp only [List.any_eq_true, Option.isSome_iff_exists, Declaration.step?_eq_some_iff]

/-- What the steps of the arguments are. Places count from zero. -/
structure Resolved (ds : List Declaration) (entries : List (String × Int)) : Prop where
  /-- Every argument has one entry, in the order of the first declarations. -/
  names : Firsts (ds.map Declaration.id) (entries.map (·.1))
  /-- Where any declaration gives a step, an argument has the one that is in force at its first
  declaration. -/
  carried : (∃ d ∈ ds, ∃ n, d.Gives n) → ∀ a s, (a, s) ∈ entries ↔
    ∃ i, (ds.map Declaration.id).idxOf? a = some i ∧ InForce (ds.take (i + 1)) s
  /-- Where no declaration gives a step, the declarations count. -/
  counted : (∀ d ∈ ds, ∀ n, ¬ d.Gives n) → ∀ a s, (a, s) ∈ entries ↔
    ∃ i, (ds.map Declaration.id).idxOf? a = some i ∧ s = i + 1

/-- **The step of an argument is the one at its first declaration**, whatever is declared again. -/
theorem resolveSteps_resolved (ds : List Declaration) : Resolved ds (resolveSteps ds) := by
  refine ⟨?_, fun given a s => ?_, fun silent a s => ?_⟩
  · rw [resolveSteps_map_fst]
    exact firsts_distinct _
  · rw [mem_resolveSteps_iff, any_step?_iff.2 given]
    refine exists_congr fun i => and_congr_right fun first => ?_
    rw [getElem?_stepsFrom_true, map_id_eq_some_iff first, inForce_iff]
  · have unnumbered : (ds.any fun d => d.step?.isSome) = false := by
      refine Bool.eq_false_iff.2 fun numbered => ?_
      obtain ⟨d, hd, n, gives⟩ := any_step?_iff.1 numbered
      exact silent d hd n gives
    rw [mem_resolveSteps_iff, unnumbered]
    refine exists_congr fun i => and_congr_right fun first => ?_
    rw [getElem?_stepsFrom_false, map_id_eq_some_iff first, Int.zero_add, eq_comm]

example : resolveSteps
    [.bare "a", .tagged "b" [.step 5, .step 2], .tagged "a" [.step (-1)], .bare "c"] =
      [("a", 0), ("b", 2), ("c", -1)] := by
  decide

end Timeline

end Argumentation
