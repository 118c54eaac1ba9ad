import Argumentation.Proofs.Outline
import Argumentation.Proofs.Placement
import Argumentation.Proofs.Transcript
import Mathlib.Data.List.Infix

/-!
# Argumentation.Proofs.Embedding

The payload in its page. A page is cut where a reader cuts it (`cut?`): behind the first start tag
of the payload's element, and before the next end tag of a script. What lies between is the guarded
text of the payload, which is read back as the payload (`page_embeds_payload`), and the tags of the
rest do not depend on any text of the document (`outerTags_eq_of_shapes_eq`).

Reading back asks of the stages that their numbers can be written. Where a document is decomposed,
only its steps are in question: a rank is below the number of arguments, and the limit bounds that
(`read_page_of_decompose`).

Where a word occurs is settled piece by piece. A piece is `Silent` for a word if no occurrence
begins in it, whatever follows: that rules out the ones that reach over its end, so silent pieces
can be put next to each other. A guard goes between the `<` and the `/` of an end tag, where a text
has both between quotes; there it is the escape of the slash, so that a guarded text spells the same
text.
-/

namespace Argumentation.Report

open Json

/-! ### Occurrences -/

/-- No occurrence of the word begins in the text, whatever follows it. -/
def Silent (w a : List Char) : Prop := ∀ b before, before ++ w <+: a ++ b → a <+: before

variable {w v a b cs : List Char} {ts : List String}

namespace Silent

theorem append (ha : Silent w a) (hb : Silent w b) : Silent w (a ++ b) := by
  intro c before found
  rw [List.append_assoc] at found
  obtain ⟨between, rfl⟩ := ha (b ++ c) before found
  rw [List.append_assoc, List.prefix_append_right_inj] at found
  exact (List.prefix_append_right_inj a).2 (hb c between found)

theorem cons {c : Char} (h : ∀ b, ¬ w <+: c :: (a ++ b)) (ha : Silent w a) : Silent w (c :: a) := by
  intro b before found
  cases before with
  | nil => exact absurd found (h b)
  | cons d before =>
      rw [List.cons_append, List.cons_append, List.cons_prefix_cons] at found
      obtain ⟨rfl, found⟩ := found
      exact List.cons_prefix_cons.2 ⟨rfl, ha b before found⟩

/-- Words do not begin where their first character is not. -/
theorem of_notMem {c : Char} (h : c ∉ a) : Silent (c :: v) a := by
  induction a with
  | nil => exact fun _ _ _ => List.nil_prefix
  | cons d a ih =>
      simp only [List.mem_cons, not_or] at h
      exact cons (fun b found => h.1 (List.cons_prefix_cons.1 found).1) (ih h.2)

/-- A tag that is no part of the word, and of which the word is no part, is silent. -/
theorem tag {t : List Char} (starts : '<' ∉ t) (after : ¬ '<' :: v <+: '<' :: t)
    (before : ¬ '<' :: t <+: '<' :: v) : Silent ('<' :: v) ('<' :: t) := by
  refine cons (fun b found => ?_) (of_notMem starts)
  rcases List.prefix_or_prefix_of_prefix found (List.prefix_append ('<' :: t) b) with h | h
  · exact after h
  · exact before h

end Silent

/-- Neither of the two words begins with the other one. -/
def Apart (w : List Char) (t : String) : Prop := ¬ w <+: t.toList ∧ ¬ t.toList <+: w

instance : Decidable (Apart w t) := inferInstanceAs (Decidable (_ ∧ _))

theorem Marks.silent (h : Marks ts cs) (hw : w.head? = some '<') (apart : ∀ t ∈ ts, Apart w t) :
    Silent w cs := by
  obtain ⟨v, rfl⟩ := List.head?_eq_some_iff.1 hw
  induction h with
  | nil => exact fun _ _ _ => List.nil_prefix
  | word other _ ih =>
      exact .cons (fun b found => other (List.cons_prefix_cons.1 found).1.symm) (ih apart)
  | @tag t ts cs starts _ _ ih =>
      obtain ⟨after, before⟩ := apart _ (.head _)
      rw [String.toList_ofList] at after before
      have piece := Silent.tag (by simpa using starts) after before
      simpa using piece.append (ih fun t ht => apart t (.tail _ ht))

theorem dropInfix?_of_silent (h : Silent w a) : (a ++ w ++ b).dropInfix? w = some (a, b) := by
  rw [List.dropInfix?_eq_some_iff]
  refine ⟨⟨w, rfl, by simp⟩, fun before i after same hi => ?_⟩
  obtain rfl := eq_of_beq hi
  have found : before ++ i <+: a ++ (i ++ b) := ⟨after, by rw [← same, List.append_assoc]⟩
  exact (h (i ++ b) before found).length_le

/-- A word that begins with `</` does not begin in a text without them. -/
theorem silent_of_not_infix (h : ¬ ['<', '/'] <:+: a) (last : a.getLast? ≠ some '<') :
    Silent ('<' :: '/' :: v) a := by
  induction a with
  | nil => exact fun _ _ _ => List.nil_prefix
  | cons c a ih =>
      cases a with
      | nil =>
          refine .of_notMem ?_
          simpa [eq_comm] using last
      | cons d a =>
          refine .cons (fun b found => h ?_) (ih (fun other => h (List.infix_cons other)) last)
          rw [List.cons_append, List.cons_prefix_cons, List.cons_prefix_cons] at found
          obtain ⟨rfl, rfl, -⟩ := found
          exact ⟨[], a, rfl⟩

/-- A word stands only once in a text if none begins before it, in it or behind it. -/
theorem existsUnique_of_silent (h : Silent w a) (some_left : w ≠ []) (once : ¬ w <:+: w.tail ++ b) :
    ∃! before, before ++ w <+: a ++ w ++ b := by
  obtain ⟨c, v, rfl⟩ := List.exists_cons_of_ne_nil some_left
  refine ⟨a, List.prefix_append _ b, fun before found => ?_⟩
  dsimp only at found
  rw [List.append_assoc] at found
  obtain ⟨between, rfl⟩ := h _ before found
  rw [List.append_assoc, List.prefix_append_right_inj] at found
  cases between with
  | nil => exact List.append_nil a
  | cons d between =>
      rw [List.cons_append, List.cons_append, List.cons_prefix_cons] at found
      exact absurd ((List.suffix_append between (c :: v)).isInfix.trans found.2.isInfix) once

/-! ### Guarded ends -/

@[simp] theorem guardEnds_nil : guardEnds [] = [] := rfl

theorem head?_guardEnds (cs : List Char) : (guardEnds cs).head? = cs.head? := by
  cases cs with
  | nil => rfl
  | cons c cs =>
      rw [guardEnds, List.foldr_cons]
      split
      · simp_all
      · rfl

theorem guardEnds_cons (c : Char) (cs : List Char) :
    guardEnds (c :: cs) = if c = '<' ∧ cs.head? = some '/' then '<' :: '\\' :: guardEnds cs
      else c :: guardEnds cs := by
  rw [← head?_guardEnds cs]
  simp [guardEnds]

theorem guardEnds_cons_of_ne {c : Char} (h : c ≠ '<') :
    guardEnds (c :: cs) = c :: guardEnds cs := by
  simp [guardEnds_cons, h]

theorem guardEnds_append_of_notMem (h : '<' ∉ a) : guardEnds (a ++ b) = a ++ guardEnds b := by
  induction a with
  | nil => rfl
  | cons c a ih =>
      simp only [List.mem_cons, not_or] at h
      rw [List.cons_append, guardEnds_cons_of_ne (Ne.symm h.1), ih h.2, List.cons_append]

theorem guardEnds_of_notMem (h : '<' ∉ a) : guardEnds a = a := by
  have same := guardEnds_append_of_notMem h (b := [])
  rwa [List.append_nil, guardEnds_nil, List.append_nil] at same

/-- Pieces are guarded one by one where no slash begins the second one. -/
theorem guardEnds_append_cons {c : Char} (h : c ≠ '/') :
    guardEnds (a ++ c :: b) = guardEnds a ++ guardEnds (c :: b) := by
  induction a with
  | nil => rfl
  | cons d a ih =>
      have same : d = '<' ∧ (a ++ c :: b).head? = some '/' ↔ d = '<' ∧ a.head? = some '/' := by
        cases a <;> simp [h]
      rw [List.cons_append, guardEnds_cons, guardEnds_cons, ih]
      simp only [same]
      split <;> rfl

/-- No end tag begins in a guarded text. -/
theorem not_infix_guardEnds (cs : List Char) : ¬ ['<', '/'] <:+: guardEnds cs := by
  induction cs with
  | nil => decide
  | cons c cs ih =>
      rw [guardEnds_cons]
      split
      · simp [List.infix_cons_iff, ih]
      · rename_i other
        rw [List.infix_cons_iff, not_or]
        refine ⟨fun found => other ?_, ih⟩
        obtain ⟨rfl, rest, same⟩ := List.cons_prefix_cons.1 found
        rw [← head?_guardEnds, ← same]
        exact ⟨rfl, rfl⟩

/-! ### The payload between quotes -/

theorem notMem_hexDigits (width n : Nat) : '<' ∉ Text.hexDigits width n := by
  induction width generalizing n with
  | zero => exact List.not_mem_nil
  | succ width ih =>
      have digit : ∀ d < 16, '<' ≠ Text.hexDigit d := by decide
      rw [Text.hexDigits, List.mem_append, List.mem_singleton, not_or]
      exact ⟨ih (n / 16), digit _ (Nat.mod_lt n (by decide))⟩

/-- A character stands for itself, or there is a backslash and no `<`. -/
theorem writes_cases {c : Char} {w : List Char} (h : Writes c w) :
    w = [c] ∨ ∃ w', w = '\\' :: w' ∧ '<' ∉ w' := by
  cases h with
  | itself => exact .inl rfl
  | letter l other escape =>
      refine .inr ⟨[l], rfl, fun mem => ?_⟩
      rw [← List.mem_singleton.1 mem] at escape
      cases escape
  | unit => exact .inr ⟨_, rfl, by simp [notMem_hexDigits]⟩
  | halves => exact .inr ⟨_, rfl, by simp [notMem_hexDigits, unitEscape]⟩

/-- A guarded text spells the same text: a slash behind a `<` is spelled by its escape. -/
theorem spells_guardEnds (cs : List Char) :
    Spells cs (guardEnds (cs.flatMap writtenChar)) ∧
      ((cs.flatMap writtenChar).head? = some '/' →
        Spells cs ('\\' :: guardEnds (cs.flatMap writtenChar))) := by
  induction cs with
  | nil => exact ⟨.nil, fun h => nomatch h⟩
  | cons c cs ih =>
      have writes := writes_writtenChar c
      rw [List.flatMap_cons]
      rcases writes_cases writes with same | ⟨w, same, blank⟩
      · rw [same] at writes ⊢
        rw [List.singleton_append, guardEnds_cons]
        refine ⟨?_, fun slash => ?_⟩
        · split
          · next guarded =>
              obtain ⟨rfl, slash⟩ := guarded
              exact .cons writes (ih.2 slash)
          · exact .cons writes ih.1
        · obtain rfl : c = '/' := by simpa using slash
          exact .cons (.letter '/' (by decide) rfl) ih.1
      · rw [same] at writes ⊢
        rw [guardEnds_append_of_notMem (by simp [blank])]
        exact ⟨.cons writes ih.1, fun slash => by simp at slash⟩

/-- The spelling of a text in a page. -/
def guarded (s : String) : List Char := guardEnds (plainly s)

theorem spells_guarded (s : String) : Spells s.toList (guarded s) := (spells_guardEnds s.toList).1

theorem guardEnds_commaed (ms : List (List Char)) :
    guardEnds (commaed ms) = commaed (ms.map guardEnds) := by
  induction ms with
  | nil => rfl
  | cons m ms ih =>
      cases ms with
      | nil => simp
      | cons n ns =>
          rw [commaed_cons_cons, guardEnds_append_cons (by decide),
            guardEnds_cons_of_ne (by decide), guardEnds_cons_of_ne (by decide), ih]
          simp

theorem guardEnds_fielded (name value : List Char) :
    guardEnds (fielded name value) = fielded (guardEnds name) (guardEnds value) := by
  rw [fielded, guardEnds_cons_of_ne (by decide), guardEnds_append_cons (by decide),
    guardEnds_cons_of_ne (by decide), guardEnds_cons_of_ne (by decide),
    guardEnds_cons_of_ne (by decide), fielded]

theorem guardEnds_between {c d : Char} (hc : c ≠ '<') (hd : d ≠ '/') (hd' : d ≠ '<') :
    guardEnds (c :: (cs ++ [d])) = c :: (guardEnds cs ++ [d]) := by
  rw [guardEnds_cons_of_ne hc, guardEnds_append_cons hd, guardEnds_cons_of_ne hd', guardEnds_nil]

mutual

/-- Only what stands between quotes is guarded. -/
theorem guardEnds_spelled : ∀ j : Json, guardEnds (spelled plainly j) = spelled guarded j
  | .null => rfl
  | .bool false => rfl
  | .bool true => rfl
  | .int i => guardEnds_of_notMem (notMem_toString_int i)
  | .float x => guardEnds_of_notMem (notMem_writtenScalar (j := .float x) (fun _ => nofun))
  | .text s => guardEnds_between (by decide) (by decide) (by decide)
  | .array items => by
      rw [spelled, guardEnds_between (by decide) (by decide) (by decide), guardEnds_commaed,
        map_guardEnds_spelledAll items, spelled]
  | .object fields => by
      rw [spelled, guardEnds_between (by decide) (by decide) (by decide), guardEnds_commaed,
        map_guardEnds_spelledFields fields, spelled]

theorem map_guardEnds_spelledAll : ∀ js : List Json,
    (spelledAll plainly js).map guardEnds = spelledAll guarded js
  | [] => rfl
  | j :: js => by
      rw [spelledAll, List.map_cons, guardEnds_spelled j, map_guardEnds_spelledAll js, spelledAll]

theorem map_guardEnds_spelledFields : ∀ fs : List (String × Json),
    (spelledFields plainly fs).map guardEnds = spelledFields guarded fs
  | [] => rfl
  | (name, j) :: fs => by
      rw [spelledFields, List.map_cons, guardEnds_fielded, guardEnds_spelled j,
        map_guardEnds_spelledFields fs, spelledFields, guarded]

end

/-- What stands in the page spells the payload. -/
theorem toList_payloadHtml (payload : Json) :
    (payloadHtml payload).toList = spelled guarded payload := by
  rw [payloadHtml, String.toList_ofList, toList_write, guardEnds_spelled]

/-- What stands in the page is read as the payload. -/
theorem read_payloadHtml {payload : Json} (h : Faithful payload) :
    Json.read (payloadHtml payload) = .ok payload := by
  rw [← String.ofList_toList (s := payloadHtml payload), toList_payloadHtml,
    read_spelled spells_guarded h]

/-! ### Payloads -/

/-- A stage keeps every rank under one name, as a map does, and its numbers are not too long to be
written. No page is made of others. -/
structure Recorded (s : Stage) : Prop where
  step : isWritableInt s.step = true
  top : (s.rankTop.map (·.1)).Nodup
  bottom : (s.rankBottom.map (·.1)).Nodup
  ranks : ∀ entry ∈ s.rankTop ++ s.rankBottom, isWritableInt entry.2 = true

/-- Stages that are made keep every rank under one name. A rank is below the number of arguments, so
it can be written if the limit can. -/
theorem recorded_of_decompose {d : Document} {limit : Int} {stages : List Stage}
    (h : d.decompose limit = .ok stages) (bounded : isWritableInt limit = true)
    (steps : stepsAreWritable stages = true) : ∀ s ∈ stages, Recorded s := by
  obtain ⟨p, -, staged⟩ := bind_eq_ok_iff.1 h
  intro s hs
  have of := (Stage.ofPlan_eq_ok staged).2 s hs
  have small : (s.framework.size : Int) ≤ limit := by
    obtain ⟨⟨⟩, small, -⟩ := bind_eq_ok_iff.1 of.extensions
    exact Framework.checkSize_eq_ok_iff.1 small
  refine ⟨List.all_eq_true.1 steps s hs, ?_, ?_, fun entry ranked => ?_⟩
  · rw [of.rankTop]
    exact (Rank.leastOf_compute _ _ _).nodup
  · rw [of.rankBottom]
    exact (Rank.leastOf_compute _ _ _).nodup
  · rw [of.rankTop, of.rankBottom] at ranked
    have lt : entry.2 < s.framework.size :=
      (List.mem_append.1 ranked).elim (Stage.rank_lt_size _ _ _ _) (Stage.rank_lt_size _ _ _ _)
    rw [isWritableInt, decide_eq_true_iff] at bounded ⊢
    omega

theorem faithful_texts (ss : List String) : Faithful (.texts ss) := by
  simp [Json.texts, allFaithful_iff, Faithful]

theorem faithful_ranksEntry {ranks : Distances String} (names : (ranks.map (·.1)).Nodup)
    (numbers : ∀ entry ∈ ranks, isWritableInt entry.2 = true) : Faithful (ranksEntry ranks) := by
  have perm := List.mergeSort_perm ranks fun a b => decide (a.1 ≤ b.1)
  rw [ranksEntry, faithful_object, fieldsFaithful_iff, List.map_map]
  refine ⟨(perm.map (·.1)).nodup_iff.2 names, fun f hf => ?_⟩
  obtain ⟨entry, mem, rfl⟩ := List.mem_map.1 hf
  rw [Json.nat, Faithful]
  exact numbers entry (perm.mem_iff.1 mem)

theorem faithful_familiesEntry (f : Families) : Faithful (familiesEntry f) := by
  have keys : (Semantics.all.map Semantics.key).Nodup := by decide
  rw [familiesEntry, faithful_object, fieldsFaithful_iff, List.map_map]
  refine ⟨keys, fun entry hf => ?_⟩
  obtain ⟨s, -, rfl⟩ := List.mem_map.1 hf
  simp [allFaithful_iff, faithful_texts]

theorem faithful_argumentEntry {stages : List Stage} (h : ∀ s ∈ stages, Recorded s)
    (d : Declaration) : Faithful (argumentEntry stages d) := by
  have step : Faithful (((firstStep? stages d.id).map Json.int).getD .null) := by
    unfold firstStep?
    cases found : stages.find? fun s => s.framework.contains d.id with
    | none => simp [Faithful]
    | some s =>
        have mem := List.mem_of_find?_eq_some found
        simpa [Faithful] using (h s mem).step
  simp [argumentEntry, step, faithful_texts, Faithful, FieldsFaithful]

theorem faithful_payload (d : Document) {stages : List Stage} (h : ∀ s ∈ stages, Recorded s) :
    Faithful (payload d stages) := by
  have steps : ∀ s ∈ stages, Faithful (.int s.step) := fun s hs => by
    rw [Faithful]
    exact (h s hs).step
  have tops : ∀ s ∈ stages, Faithful (ranksEntry s.rankTop) := fun s hs =>
    faithful_ranksEntry (h s hs).top fun entry mem => (h s hs).ranks entry (by simp [mem])
  have bottoms : ∀ s ∈ stages, Faithful (ranksEntry s.rankBottom) := fun s hs =>
    faithful_ranksEntry (h s hs).bottom fun entry mem => (h s hs).ranks entry (by simp [mem])
  have attacks : ∀ a, Faithful (attackEntry a) := fun a => faithful_texts _
  simpa [payload, allFaithful_iff, FieldsFaithful, faithful_argumentEntry h, attacks,
    faithful_familiesEntry] using And.intro steps (And.intro tops bottoms)

/-! ### Pages -/

/-- How the end tag of the payload begins. -/
def scriptEnd : List Char := "</script".toList

/-- A tag that neither opens nor closes the element of the payload. -/
def Foreign (t : String) : Prop := Apart payloadStart.toList t ∧ Apart scriptEnd t

instance (t : String) : Decidable (Foreign t) := inferInstanceAs (Decidable (_ ∧ _))

theorem foreign_sectionTag (i : Int) : Foreign (sectionTag i) := by
  obtain ⟨rest, same⟩ : ∃ rest, (sectionTag i).toList = '<' :: 's' :: 'e' :: rest := by
    unfold sectionTag
    simp
  obtain ⟨start, first⟩ : ∃ start, payloadStart.toList = '<' :: 's' :: 'c' :: start := ⟨_, rfl⟩
  obtain ⟨ending, second⟩ : ∃ ending, scriptEnd = '<' :: '/' :: ending := ⟨_, rfl⟩
  rw [Foreign, Apart, Apart, same, first, second]
  simp [List.cons_prefix_cons]

theorem forall_mem_replicate {P : String → Prop} (h : ∀ t ∈ ts, P t) (n : Nat) :
    ∀ t ∈ (List.replicate n ts).flatten, P t := by
  intro t ht
  obtain ⟨us, mem, ht⟩ := List.mem_flatten.1 ht
  exact h t (List.eq_of_mem_replicate mem ▸ ht)

theorem foreign_familyTags (size : Nat) : ∀ t ∈ familyTags size, Foreign t := by
  rw [familyTags, List.forall_mem_append, List.forall_mem_append]
  refine ⟨⟨by decide +kernel, ?_⟩, by decide +kernel⟩
  split
  · decide +kernel
  · exact forall_mem_replicate (by decide +kernel) size

theorem foreign_shapeTags (s : Shape) : ∀ t ∈ s.tags, Foreign t := by
  rw [Shape.tags, List.forall_mem_append, List.forall_mem_append, List.forall_mem_append,
    List.forall_mem_append, List.forall_mem_cons]
  refine ⟨⟨⟨⟨⟨foreign_sectionTag s.step, by decide +kernel⟩, fun t ht => ?_⟩, by decide +kernel⟩,
    forall_mem_replicate (by decide +kernel) s.arguments⟩, by decide +kernel⟩
  obtain ⟨size, -, ht⟩ := List.mem_flatMap.1 ht
  exact foreign_familyTags size t ht

/-- Nothing down to the payload opens or closes its element. -/
theorem foreign_frontTags (shapes : List Shape) : ∀ t ∈ frontTags shapes, Foreign t := by
  rw [frontTags, List.forall_mem_append]
  refine ⟨by decide +kernel, fun t ht => ?_⟩
  obtain ⟨s, -, ht⟩ := List.mem_flatMap.1 ht
  exact foreign_shapeTags s t ht

theorem silent_payloadHtml (fields : List (String × Json)) :
    Silent scriptEnd (payloadHtml (.object fields)).toList := by
  have last : ∀ cs : List Char, ('\x7b' :: (cs ++ ['\x7d'])).getLast? ≠ some '<' := fun cs => by
    rw [← List.cons_append, List.getLast?_concat]
    decide
  rw [payloadHtml, String.toList_ofList]
  refine silent_of_not_infix (v := "script".toList) (not_infix_guardEnds _) ?_
  rw [toList_write, spelled, guardEnds_between (by decide) (by decide) (by decide)]
  exact last _

/-- What a page is cut into: what is embedded, with what stands before it and behind it. -/
structure Parts where
  front : List Char
  embedded : List Char
  back : List Char

/-- Cuts a text behind the first `opening` and before the next `closing`. -/
def cutBetween? (opening closing cs : List Char) : Option Parts := do
  let (front, rest) ← cs.dropInfix? opening
  let (embedded, back) ← rest.dropInfix? closing
  return ⟨front ++ opening, embedded, closing ++ back⟩

theorem cutBetween?_of_silent {front embedded opening closing rest : List Char}
    (start : Silent opening front) (ending : Silent closing embedded) :
    cutBetween? opening closing (front ++ opening ++ embedded ++ (closing ++ rest)) =
      some ⟨front ++ opening, embedded, closing ++ rest⟩ := by
  have first := dropInfix?_of_silent start (b := embedded ++ (closing ++ rest))
  have second := dropInfix?_of_silent ending (b := rest)
  rw [List.append_assoc] at second
  rw [cutBetween?, List.append_assoc (front ++ opening), first, Option.bind_eq_bind,
    Option.bind_some]
  dsimp only
  rw [second]
  rfl

/-- Cuts a page at the element of the payload. -/
def cut? (page : String) : Option Parts := cutBetween? payloadStart.toList scriptEnd page.toList

variable (d : Document) (stages : List Stage) (exhibit : Option String) (title : String)
  (m : Moment)

/-- The parts of a page. -/
def pageParts : Parts where
  front := (pageFront d stages exhibit title (stamp m)).toList ++ payloadStart.toList
  embedded := (payloadHtml (payload d stages)).toList
  back := pageBack.toList

theorem embedded_pageParts : (pageParts d stages exhibit title m).embedded =
    (payloadHtml (payload d stages)).toList := by
  simp only [pageParts]

/-- What is embedded is read as the payload. -/
theorem read_embedded_pageParts (h : ∀ s ∈ stages, Recorded s) :
    Json.read (String.ofList (pageParts d stages exhibit title m).embedded) =
      .ok (payload d stages) := by
  rw [embedded_pageParts, String.ofList_toList]
  exact read_payloadHtml (faithful_payload d h)

theorem cut?_page : cut? (page d stages exhibit title (stamp m)) =
    some (pageParts d stages exhibit title m) := by
  have front := marked_pageFront d stages exhibit title m
  have start : Silent payloadStart.toList _ :=
    front.silent rfl fun t ht => (foreign_frontTags (stages.map shape) t ht).1
  have ending : Silent scriptEnd (payloadHtml (payload d stages)).toList := silent_payloadHtml _
  obtain ⟨rest, back⟩ : ∃ rest, pageBack.toList = scriptEnd ++ rest := ⟨_, rfl⟩
  rw [cut?, page, String.toList_append, String.toList_append, String.toList_append, pageParts, back]
  exact cutBetween?_of_silent start ending

theorem silent_payloadStart : Silent scriptEnd payloadStart.toList :=
  marked_payloadStart.silent rfl (by decide +kernel)

/-- The element of the payload ends in one place. -/
theorem existsUnique_scriptEnd : ∃! before,
    before ++ scriptEnd <+: (page d stages exhibit title (stamp m)).toList := by
  have front : Silent scriptEnd _ := (marked_pageFront d stages exhibit title m).silent rfl
    fun t ht => (foreign_frontTags (stages.map shape) t ht).2
  have embedded : Silent scriptEnd (payloadHtml (payload d stages)).toList := silent_payloadHtml _
  have silent := (front.append silent_payloadStart).append embedded
  have some_left : scriptEnd ≠ [] := by decide +kernel
  obtain ⟨rest, back, once⟩ : ∃ rest, pageBack.toList = scriptEnd ++ rest ∧
      ¬ scriptEnd <:+: scriptEnd.tail ++ rest :=
    ⟨">\n</body>\n</html>\n".toList, rfl, by decide +kernel⟩
  have unique := existsUnique_of_silent silent some_left once
  rw [page, String.toList_append, String.toList_append, String.toList_append, back,
    ← List.append_assoc]
  exact unique

/-- **A page embeds its payload.** What stands between the start tag of its element and the next end
tag holds no `</`, that end tag is the only one, and reading what is embedded gives back the
payload. -/
theorem page_embeds_payload :
    ∃ parts, cut? (page d stages exhibit title (stamp m)) = some parts ∧
      ¬ ['<', '/'] <:+: parts.embedded ∧
      (∃! before, before ++ scriptEnd <+: (page d stages exhibit title (stamp m)).toList) ∧
      ((∀ s ∈ stages, Recorded s) →
        Json.read (String.ofList parts.embedded) = .ok (payload d stages)) := by
  refine ⟨pageParts d stages exhibit title m, cut?_page d stages exhibit title m, ?_,
    existsUnique_scriptEnd d stages exhibit title m,
    fun recorded => read_embedded_pageParts d stages exhibit title m recorded⟩
  rw [embedded_pageParts, payloadHtml, String.toList_ofList]
  exact not_infix_guardEnds _

/-- Names that look like the end of the element, and like its guarded form. -/
def impostors : Document := ⟨[.bare "</script>", .bare "<\\/"], [⟨"</script>", "<\\/"⟩], none⟩

/-- The impostors at one step. -/
def impostorStage : Stage :=
  ⟨0, ⟨["</script>", "<\\/"], [⟨"</script>", "<\\/"⟩], by decide, by decide, by decide⟩,
    ⟨[], [], [], [], [], []⟩, [("</script>", 0), ("<\\/", 1)], []⟩

theorem impostors_embedded :
    ∃ parts, cut? (page impostors [impostorStage] none "</title>"
        (stamp ⟨⟨2000, 1, 1⟩, 0, 0, 0, 0, none⟩)) = some parts ∧
      Json.read (String.ofList parts.embedded) = .ok (payload impostors [impostorStage]) := by
  obtain ⟨parts, cut, -, -, back⟩ := page_embeds_payload impostors [impostorStage] none "</title>"
    ⟨⟨2000, 1, 1⟩, 0, 0, 0, 0, none⟩
  refine ⟨parts, cut, back fun s hs => ?_⟩
  rw [List.mem_singleton.1 hs]
  exact ⟨by decide +kernel, by decide, by decide, by decide +kernel⟩

variable {d} {stages} in
/-- **The page of a document gives back its payload**, if its steps and the limit are not too long to
be written. -/
theorem read_page_of_decompose {limit : Int} (h : d.decompose limit = .ok stages)
    (bounded : isWritableInt limit = true) (steps : stepsAreWritable stages = true) :
    ∃ parts, cut? (page d stages exhibit title (stamp m)) = some parts ∧
      Json.read (String.ofList parts.embedded) = .ok (payload d stages) :=
  ⟨_, cut?_page d stages exhibit title m,
    read_embedded_pageParts d stages exhibit title m (recorded_of_decompose h bounded steps)⟩

/-! ### The rest of the page -/

/-- The tags of a page outside of its payload. -/
def outerTags? (page : String) : Option (List String) :=
  (cut? page).map fun parts => tags (parts.front ++ parts.back)

theorem outerTags?_page : outerTags? (page d stages exhibit title (stamp m)) =
    some (frontTags (stages.map shape) ++ [payloadStart] ++
      ["</script>", "</body>", "</html>"]) := by
  have front := Marks.append (marked_pageFront d stages exhibit title m) marked_payloadStart
  have marked := front.append marked_pageBack
  rw [outerTags?, cut?_page, Option.map_some]
  simp only [pageParts]
  rw [marked.tags_eq]

variable {stages} in
/-- **No text of a document changes the tags** of its page outside of the payload: pages with the
same steps, numbers of arguments and sizes of families have the same ones. -/
theorem outerTags_eq_of_shapes_eq {stages' : List Stage}
    (same : stages.map shape = stages'.map shape) (d' : Document) (exhibit' : Option String)
    (title' : String) (m' : Moment) :
    ∃ ts, outerTags? (page d stages exhibit title (stamp m)) = some ts ∧
      outerTags? (page d' stages' exhibit' title' (stamp m')) = some ts :=
  ⟨_, outerTags?_page d stages exhibit title m,
    same ▸ outerTags?_page d' stages' exhibit' title' m'⟩

/-- A stage that looks the same with other names, and with ranks that the other one does not have.
-/
def innocentStage : Stage :=
  ⟨0, ⟨["a", "b"], [], by decide, by decide, by decide⟩, ⟨[], [], [], [], [], []⟩, [], [("b", 3)]⟩

theorem impostors_outerTags : [impostorStage].map shape = [innocentStage].map shape ∧
    ∃ ts, outerTags? (page impostors [impostorStage] (some "<h2>") "</title>"
        (stamp ⟨⟨2000, 1, 1⟩, 0, 0, 0, 0, none⟩)) = some ts ∧
      outerTags? (page ⟨[], [], none⟩ [innocentStage] none ""
        (stamp ⟨⟨1999, 12, 31⟩, 23, 59, 0, 0, none⟩)) = some ts := by
  have same : [impostorStage].map shape = [innocentStage].map shape := by decide
  exact ⟨same, outerTags_eq_of_shapes_eq impostors (some "<h2>") "</title>" _ same _ none "" _⟩

end Argumentation.Report
