import Argumentation.Proofs.Construction
import Argumentation.Proofs.Families
import Mathlib.Data.Set.Function

/-!
# Argumentation.Proofs.Renaming

The families of a framework do not depend on how the framework is written down. Which arguments come
first, how often an attack is listed and what the arguments are called decides the bits of the
masks, the order in which sets are visited and the order in which the labelling looks at the
arguments. None of it shows in the families, other than through the names themselves.

`Renames f F G` says that `G` is `F` with the arguments renamed by `f`, in whatever order. A set is
then accepted by `F` exactly if its image is accepted by `G`, under each semantics
(`Renames.accepts_iff`). With the identity for `f` this is a statement about order and repetitions
alone.
-/

namespace Argumentation

open Framework

variable {F G : Framework} {f : String → String} {S T : Set String} {a b : String}

/-! ### Renamed attacks and families -/

/-- The attack between the renamed arguments. -/
def Attack.rename (f : String → String) (e : Attack) : Attack := ⟨f e.attacker, f e.target⟩

/-- The family of the renamed sets. Names that have been renamed are in a new order, so each set is
brought into canonical form again, and the family is sorted again. -/
def renamed (f : String → String) (family : List (List String)) : List (List String) :=
  (family.map fun E => canonical (E.map f)).mergeSort notAfter

/-- The families of the renamed sets. -/
def Families.rename (f : String → String) (fam : Families) : Families where
  conflictFree := renamed f fam.conflictFree
  admissible := renamed f fam.admissible
  complete := renamed f fam.complete
  preferred := renamed f fam.preferred
  grounded := renamed f fam.grounded
  stable := renamed f fam.stable

theorem Families.get_rename (fam : Families) (s : Semantics) :
    (fam.rename f).get s = renamed f (fam.get s) := by
  cases s <;> rfl

theorem Families.eq_of_get {fam fam' : Families} (h : ∀ s, fam.get s = fam'.get s) :
    fam = fam' := by
  cases fam with
  | mk => cases fam' with
    | mk =>
      simp only [Families.mk.injEq]
      exact ⟨h .conflictFree, h .admissible, h .complete, h .preferred, h .grounded, h .stable⟩

namespace Framework

/-! ### The semantics as one family of properties -/

/-- The sets that are extensions under a semantics. -/
def Accepts (F : Framework) : Semantics → Set String → Prop
  | .conflictFree => F.ConflictFree
  | .admissible => F.Admissible
  | .complete => F.Complete
  | .preferred => F.Preferred
  | .grounded => fun S => S = F.characteristic.lfp
  | .stable => F.Stable

theorem Accepts.subset {s : Semantics} (h : F.Accepts s S) : S ⊆ {a | a ∈ F.arguments} := by
  cases s with
  | conflictFree => exact h.1
  | admissible => exact h.1.1
  | complete => exact h.1.1.1
  | preferred => exact h.1.1.1
  | grounded => exact (show S = _ from h) ▸ (complete_lfp F).1.1.1
  | stable => exact h.1.1

theorem enumerates_grounded (F : Framework) :
    Enumerates F.families.grounded fun S => S = F.characteristic.lfp := by
  have same : {a | a ∈ F.groundedExtension} = F.characteristic.lfp :=
    Set.ext fun _ => mem_groundedExtension
  constructor
  · intro E hE
    obtain rfl := List.mem_singleton.1 hE
    exact ⟨pairwise_lt_groundedExtension F, same⟩
  · rintro S rfl
    refine ⟨F.groundedExtension, ⟨List.mem_singleton_self _, same⟩, ?_⟩
    exact fun E hE => List.mem_singleton.1 hE.1
  · exact List.pairwise_singleton _ _

theorem enumerates_get (F : Framework) (s : Semantics) :
    Enumerates (F.families.get s) (F.Accepts s) := by
  cases s with
  | conflictFree => exact enumerates_conflictFree F
  | admissible => exact enumerates_admissible F
  | complete => exact enumerates_complete F
  | preferred => exact enumerates_preferred F
  | grounded => exact enumerates_grounded F
  | stable => exact enumerates_stable F

namespace Enumerates

variable {family family' : List (List String)} {P : Set String → Prop}

theorem nodup (h : Enumerates family P) : family.Nodup := h.rising.imp ne_of_lt

/-- There is one way to list the sets with a property. -/
theorem eq (h : Enumerates family P) (h' : Enumerates family' P) : family = family' := by
  have rising : family.Pairwise (· < ·) := h.rising
  have rising' : family'.Pairwise (· < ·) := h'.rising
  exact rising.eq_of_mem_iff rising' fun E => h.mem_iff.trans h'.mem_iff.symm

end Enumerates

/-! ### Renamed frameworks -/

/-- The framework `G` is `F` with the arguments renamed by `f`. The order of arguments and attacks
is left open, and how often an attack is listed. -/
structure Renames (f : String → String) (F G : Framework) : Prop where
  inj : Set.InjOn f {a | a ∈ F.arguments}
  arguments : ∀ b, b ∈ G.arguments ↔ ∃ a ∈ F.arguments, f a = b
  attacks : ∀ e, e ∈ G.attacks ↔ ∃ d ∈ F.attacks, d.rename f = e

namespace Renames

theorem refl (F : Framework) : Renames id F F where
  inj := Set.injOn_id _
  arguments := by simp
  attacks := by simp [Attack.rename]

theorem size_eq (h : Renames f F G) : G.size = F.size := by
  have images : (F.arguments.map f).Nodup := F.nodup.map_on fun a ha b hb => h.inj ha hb
  have perm : G.arguments.Perm (F.arguments.map f) :=
    (List.perm_ext_iff_of_nodup G.nodup images).2 fun b => by simp [h.arguments]
  rw [size, perm.length_eq, List.length_map, size]

/-- Renamed arguments attack each other exactly if the arguments do. -/
theorem attacks_iff (h : Renames f F G) (ha : a ∈ F.arguments) (hb : b ∈ F.arguments) :
    G.Attacks (f a) (f b) ↔ F.Attacks a b := by
  constructor
  · intro hab
    obtain ⟨⟨x, y⟩, hd, same⟩ := (h.attacks _).1 hab
    obtain ⟨hx, hy⟩ := F.declared _ hd
    obtain ⟨fx, fy⟩ := Attack.mk.inj same
    obtain rfl : x = a := h.inj hx ha fx
    obtain rfl : y = b := h.inj hy hb fy
    exact hd
  · exact fun hab => (h.attacks _).2 ⟨_, hab, rfl⟩

/-- Every set of renamed arguments is the image of a set of arguments. -/
theorem exists_image (h : Renames f F G) (sub : T ⊆ {b | b ∈ G.arguments}) :
    ∃ S ⊆ {a | a ∈ F.arguments}, f '' S = T := by
  refine Set.subset_image_iff.1 fun b hb => ?_
  exact (h.arguments b).1 (sub hb)

theorem forall_arguments (h : Renames f F G) {p : String → Prop} :
    (∀ b ∈ G.arguments, p b) ↔ ∀ a ∈ F.arguments, p (f a) := by
  simp only [h.arguments]
  constructor
  · exact fun all a ha => all (f a) ⟨a, ha, rfl⟩
  · rintro all b ⟨a, ha, rfl⟩
    exact all a ha

section Semantics

variable (h : Renames f F G) (sub : S ⊆ {a | a ∈ F.arguments})
include h sub

/-- A set attacks an argument exactly if its image attacks the renamed argument. -/
theorem hits_iff (hb : b ∈ F.arguments) :
    (∃ c ∈ f '' S, G.Attacks c (f b)) ↔ ∃ a ∈ S, F.Attacks a b := by
  rw [Set.exists_mem_image]
  exact exists_congr fun a => and_congr_right fun ha => h.attacks_iff (sub ha) hb

/-- A set defends an argument exactly if its image defends the renamed argument. -/
theorem defends_iff (ha : a ∈ F.arguments) : G.Defends (f '' S) (f a) ↔ F.Defends S a := by
  constructor
  · intro defended b hba
    have hb : b ∈ F.arguments := hba.left_mem
    exact (h.hits_iff sub hb).1 (defended (f b) ((h.attacks_iff hb ha).2 hba))
  · intro defended b' hb'
    obtain ⟨b, hb, rfl⟩ := (h.arguments b').1 hb'.left_mem
    exact (h.hits_iff sub hb).2 (defended b ((h.attacks_iff hb ha).1 hb'))

theorem conflictFree_iff : G.ConflictFree (f '' S) ↔ F.ConflictFree S := by
  simp only [ConflictFree, Set.forall_mem_image]
  refine and_congr (forall₂_congr fun a ha => ?_) (forall₄_congr fun a ha b hb => ?_)
  · exact iff_of_true ((h.arguments _).2 ⟨a, sub ha, rfl⟩) (sub ha)
  · exact not_congr (h.attacks_iff (sub ha) (sub hb))

theorem admissible_iff : G.Admissible (f '' S) ↔ F.Admissible S := by
  simp only [Admissible, Set.forall_mem_image]
  refine and_congr (h.conflictFree_iff sub) (forall₂_congr fun a ha => ?_)
  exact h.defends_iff sub (sub ha)

theorem complete_iff : G.Complete (f '' S) ↔ F.Complete S := by
  refine and_congr (h.admissible_iff sub) (h.forall_arguments.trans ?_)
  refine forall₂_congr fun a ha => ?_
  rw [h.defends_iff sub ha, h.inj.mem_image_iff sub ha]

theorem stable_iff : G.Stable (f '' S) ↔ F.Stable S := by
  refine and_congr (h.conflictFree_iff sub) (h.forall_arguments.trans ?_)
  refine forall₂_congr fun b hb => ?_
  rw [h.inj.mem_image_iff sub hb, h.hits_iff sub hb]

theorem preferred_iff : G.Preferred (f '' S) ↔ F.Preferred S := by
  refine and_congr (h.admissible_iff sub) ⟨fun alone T hT proper => ?_, fun alone T' hT' => ?_⟩
  · have subT : T ⊆ {a | a ∈ F.arguments} := hT.1.1
    refine alone _ ((h.admissible_iff subT).2 hT) ?_
    exact (h.inj.image_ssubset_image_iff sub subT).2 proper
  · obtain ⟨T, subT, rfl⟩ := h.exists_image hT'.1.1
    rw [h.inj.image_ssubset_image_iff sub subT]
    exact alone T ((h.admissible_iff subT).1 hT')

/-- What the image of a set defends is the image of what the set defends. -/
theorem characteristic_image : G.characteristic (f '' S) = f '' F.characteristic S := by
  ext b
  rw [mem_characteristic, h.arguments]
  constructor
  · rintro ⟨⟨a, ha, rfl⟩, defended⟩
    exact ⟨a, ⟨ha, (h.defends_iff sub ha).1 defended⟩, rfl⟩
  · rintro ⟨a, ⟨ha, defended⟩, rfl⟩
    exact ⟨⟨a, ha, rfl⟩, (h.defends_iff sub ha).2 defended⟩

end Semantics

/-- The least fixpoint is renamed as well. -/
theorem lfp_eq (h : Renames f F G) : G.characteristic.lfp = f '' F.characteristic.lfp := by
  have sub : F.characteristic.lfp ⊆ {a | a ∈ F.arguments} := (complete_lfp F).1.1.1
  refine le_antisymm (G.characteristic.lfp_le ?_) ?_
  · rw [h.characteristic_image sub, F.characteristic.map_lfp]
  · -- what the fixpoint of `G` is the image of is a fixpoint of `F`, as images are told apart
    obtain ⟨T, subT, same⟩ := h.exists_image (complete_lfp G).1.1.1
    have fixed : F.characteristic T = T := by
      have inside : F.characteristic T ⊆ {a | a ∈ F.arguments} := fun a ha => ha.1
      rw [← h.inj.image_eq_image_iff inside subT, ← h.characteristic_image subT, same]
      exact G.characteristic.map_lfp
    rw [← same]
    exact Set.image_mono (F.characteristic.lfp_le fixed.le)

/-- A set is accepted exactly if its image is. -/
theorem accepts_iff (h : Renames f F G) (sub : S ⊆ {a | a ∈ F.arguments}) (s : Semantics) :
    G.Accepts s (f '' S) ↔ F.Accepts s S := by
  cases s with
  | conflictFree => exact h.conflictFree_iff sub
  | admissible => exact h.admissible_iff sub
  | complete => exact h.complete_iff sub
  | preferred => exact h.preferred_iff sub
  | grounded =>
      show f '' S = _ ↔ S = _
      rw [h.lfp_eq, h.inj.image_eq_image_iff sub (complete_lfp F).1.1.1]
  | stable => exact h.stable_iff sub

/-- Renaming the sets that `F` accepts gives those that `G` accepts. -/
theorem enumerates (h : Renames f F G) {s : Semantics} {family : List (List String)}
    (listed : Enumerates family (F.Accepts s)) : Enumerates (renamed f family) (G.Accepts s) := by
  have members (E : List String) : {b | b ∈ canonical (E.map f)} = f '' {a | a ∈ E} := by
    ext b
    simp
  have accepted {E : List String} (hE : E ∈ family) : F.Accepts s {a | a ∈ E} :=
    (listed.sound E hE).2
  have mem_renamed {D : List String} :
      D ∈ renamed f family ↔ ∃ E ∈ family, canonical (E.map f) = D := by
    rw [renamed, List.mem_mergeSort, List.mem_map]
  have sound : ∀ D ∈ renamed f family, D.Pairwise (· < ·) ∧ G.Accepts s {b | b ∈ D} := by
    intro D hD
    obtain ⟨E, hE, rfl⟩ := mem_renamed.1 hD
    refine ⟨pairwise_lt_canonical _, ?_⟩
    rw [members]
    exact (h.accepts_iff (accepted hE).subset s).2 (accepted hE)
  refine ⟨sound, fun T hT => ?_, ?_⟩
  · obtain ⟨S, sub, rfl⟩ := h.exists_image hT.subset
    obtain ⟨E, ⟨hE, rfl⟩, -⟩ := listed.complete S ((h.accepts_iff sub s).1 hT)
    refine ⟨canonical (E.map f), ⟨mem_renamed.2 ⟨E, hE, rfl⟩, members E⟩, ?_⟩
    rintro D ⟨hD, same⟩
    refine (sound D hD).1.eq_of_mem_iff (pairwise_lt_canonical _) fun b => ?_
    exact Set.ext_iff.1 (same.trans (members E).symm) b
  · -- two sets with the same image are the same set, in the same written form
    refine pairwise_lex_mergeSort (listed.nodup.map_on fun E hE D hD same => ?_)
    have images : f '' {a | a ∈ E} = f '' {a | a ∈ D} := by
      rw [← members, ← members, same]
    have sets := (h.inj.image_eq_image_iff (accepted hE).subset (accepted hD).subset).1 images
    exact (listed.sound E hE).1.eq_of_mem_iff (listed.sound D hD).1 fun a => Set.ext_iff.1 sets a

/-- The families of the renamed framework are the renamed families. -/
theorem families_eq (h : Renames f F G) : G.families = F.families.rename f := by
  refine Families.eq_of_get fun s => ?_
  rw [Families.get_rename]
  exact (enumerates_get G s).eq (h.enumerates (enumerates_get F s))

end Renames

/-! ### Frameworks written down in other ways -/

variable {names names' : List String} {attacks attacks' : List Attack}

/-- What becomes of names and attacks by renaming makes a framework if these do. -/
theorem exists_renames (made : make names attacks = .ok F) (inj : Set.InjOn f {a | a ∈ names})
    (arguments : ∀ b, b ∈ names' ↔ ∃ a ∈ names, f a = b)
    (joined : ∀ e, e ∈ attacks' ↔ ∃ d ∈ attacks, d.rename f = e) :
    ∃ G, make names' attacks' = .ok G ∧ Renames f F G := by
  obtain ⟨of_names, rfl⟩ := make_eq_ok_iff.1 made
  have mem_arguments (a : String) : a ∈ F.arguments ↔ a ∈ names := by rw [of_names, mem_distinct]
  have some_left : names' ≠ [] := by
    obtain ⟨a, ha⟩ := List.exists_mem_of_ne_nil _ F.arguments_ne_nil
    exact List.ne_nil_of_mem ((arguments _).2 ⟨a, (mem_arguments a).1 ha, rfl⟩)
  have declared : ∀ e ∈ attacks', e.attacker ∈ names' ∧ e.target ∈ names' := by
    intro e he
    obtain ⟨d, hd, rfl⟩ := (joined e).1 he
    obtain ⟨from_here, to_there⟩ := F.declared d hd
    exact ⟨(arguments _).2 ⟨_, (mem_arguments _).1 from_here, rfl⟩,
      (arguments _).2 ⟨_, (mem_arguments _).1 to_there, rfl⟩⟩
  obtain ⟨G, made'⟩ := exists_make some_left declared
  obtain ⟨of_names', rfl⟩ := make_eq_ok_iff.1 made'
  refine ⟨G, made', ?_, fun b => ?_, joined⟩
  · simpa only [mem_arguments] using inj
  · rw [of_names', mem_distinct, arguments]
    simp only [mem_arguments]

/-- **The families depend on the arguments and attacks as sets, and go along with their names.**
Order and repetitions of either leave no trace, and renaming the arguments, with no two of them
getting the same name, renames the families. -/
theorem families_determined {limit : Int} (made : make names attacks = .ok F)
    (h : F.size ≤ limit) : ∃ fam, F.extensions limit = .ok fam ∧
      (∀ names' attacks', (∀ a, a ∈ names' ↔ a ∈ names) → (∀ e, e ∈ attacks' ↔ e ∈ attacks) →
        ∃ G, make names' attacks' = .ok G ∧ G.extensions limit = .ok fam) ∧
      ∀ f : String → String, Set.InjOn f {a | a ∈ names} →
        ∃ G, make (names.map f) (attacks.map (Attack.rename f)) = .ok G ∧
          G.extensions limit = .ok (fam.rename f) := by
  have enumerated {f : String → String} {G : Framework} (renames : Renames f F G) :
      G.extensions limit = .ok (F.families.rename f) := by
    rw [← renames.families_eq]
    exact extensions_eq_ok (renames.size_eq ▸ h)
  refine ⟨F.families, extensions_eq_ok h, fun names' attacks' names_same attacks_same => ?_, ?_⟩
  · -- a framework written down anew is a renamed one in which all names are kept
    obtain ⟨G, made', renames⟩ : ∃ G, make names' attacks' = .ok G ∧ Renames id F G :=
      exists_renames made (Set.injOn_id _) (by simp [names_same])
        (by simp [attacks_same, Attack.rename])
    refine ⟨G, made', ?_⟩
    rw [enumerated renames, ← (Renames.refl F).families_eq]
  · intro f inj
    obtain ⟨G, made', renames⟩ := exists_renames made inj (fun b => List.mem_map)
      fun e => List.mem_map
    exact ⟨G, made', enumerated renames⟩

/-- The quarrel told in another order, and with another name for the argument `a`. -/
theorem quarrel_determined :
    make ["b", "a", "b", "c"] quarrel.attacks = .ok quarrel ∧
    (quarrel.size : Int) ≤ defaultLimit ∧ ∃ fam, quarrel.extensions defaultLimit = .ok fam ∧
      (∃ G, make ["c", "a", "b", "a"] [⟨"c", "c"⟩, ⟨"a", "b"⟩, ⟨"b", "a"⟩] = .ok G ∧
        G.extensions defaultLimit = .ok fam) ∧
      ∃ G, make (["b", "a", "b", "c"].map fun a => if a = "a" then "d" else a)
          (quarrel.attacks.map (Attack.rename fun a => if a = "a" then "d" else a)) = .ok G ∧
        G.extensions defaultLimit = .ok (fam.rename fun a => if a = "a" then "d" else a) := by
  have made : make ["b", "a", "b", "c"] quarrel.attacks = .ok quarrel :=
    make_eq_ok_iff.2 ⟨by decide, rfl⟩
  have small : (quarrel.size : Int) ≤ defaultLimit := by decide
  obtain ⟨fam, enumerated, retold, called⟩ := families_determined made small
  refine ⟨made, small, fam, enumerated, retold _ _ ?_ ?_, called _ ?_⟩
  · intro a
    simp only [List.mem_cons, List.not_mem_nil, or_false]
    tauto
  · intro e
    simp only [quarrel, List.mem_cons, List.not_mem_nil, or_false]
    tauto
  · have apart : ∀ a ∈ ["b", "a", "b", "c"], ∀ b ∈ ["b", "a", "b", "c"],
        (if a = "a" then "d" else a) = (if b = "a" then "d" else b) → a = b := by decide
    exact fun a ha b hb => apart a ha b hb

end Framework

end Argumentation
