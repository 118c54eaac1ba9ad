import Argumentation.Proofs.Embedding
import Argumentation.Proofs.Families

/-!
# Argumentation.Proofs.ScriptState

How a browser reads the payload. Inside a script element markup is not read, but the end tag of the
element is, unless a comment has been opened and another script inside of it. `ScriptState` has the
states of that reading, `ScriptState.step` what a character does in each of them.

A guarded payload never ends its element (`run_payloadHtml_ne_closed`). That the end tag of the page
does so needs more: a text of the payload that opens a comment, and a script in it, makes the reader
take the end tag for that of the inner script (`commented_stays_open`). Where no text opens a
comment, the reader never leaves the outermost states, and the end tag ends the element
(`run_payload`).
-/

namespace Argumentation

/-- Where the reader of a script element stands. A state with a name holds the letters that have
been read of it, in lower case. -/
inductive ScriptState where
  | data
  | lessThan
  | endTagOpen
  | endTagName (name : List Char)
  | escapeStart
  | escapeStartDash
  | escaped
  | escapedDash
  | escapedDashDash
  | escapedLessThan
  | escapedEndTagOpen
  | escapedEndTagName (name : List Char)
  | doubleEscapeStart (name : List Char)
  | doubleEscaped
  | doubleEscapedDash
  | doubleEscapedDashDash
  | doubleEscapedLessThan
  | doubleEscapeEnd (name : List Char)
  /-- The end tag of the element has been read. -/
  | closed
  deriving DecidableEq, Repr

namespace ScriptState

/-- Whether the character ends the name of a tag. -/
def endsName (c : Char) : Bool :=
  c = '\t' || c = '\n' || c = '\x0c' || c = ' ' || c = '/' || c = '>'

/-- The name of the element. -/
def script : List Char := ['s', 'c', 'r', 'i', 'p', 't']

/-- A character outside of comments. -/
def ofData (c : Char) : ScriptState := if c = '<' then .lessThan else .data

/-- A character inside a comment. -/
def ofEscaped (c : Char) : ScriptState :=
  if c = '-' then .escapedDash else if c = '<' then .escapedLessThan else .escaped

/-- A character inside a script inside a comment. -/
def ofDoubleEscaped (c : Char) : ScriptState :=
  if c = '-' then .doubleEscapedDash
  else if c = '<' then .doubleEscapedLessThan
  else .doubleEscaped

/-- The state behind one more character. -/
def step (s : ScriptState) (c : Char) : ScriptState :=
  match s with
  | .data => ofData c
  | .lessThan =>
    if c = '/' then .endTagOpen else if c = '!' then .escapeStart else ofData c
  | .endTagOpen => if c.isAlpha then .endTagName [c.toLower] else ofData c
  | .endTagName name =>
    if endsName c && name == script then .closed
    else if c.isAlpha then .endTagName (name ++ [c.toLower])
    else ofData c
  | .escapeStart => if c = '-' then .escapeStartDash else ofData c
  | .escapeStartDash => if c = '-' then .escapedDashDash else ofData c
  | .escaped => ofEscaped c
  | .escapedDash => if c = '-' then .escapedDashDash else ofEscaped c
  | .escapedDashDash =>
    if c = '-' then .escapedDashDash else if c = '>' then .data else ofEscaped c
  | .escapedLessThan =>
    if c = '/' then .escapedEndTagOpen
    else if c.isAlpha then .doubleEscapeStart [c.toLower]
    else ofEscaped c
  | .escapedEndTagOpen => if c.isAlpha then .escapedEndTagName [c.toLower] else ofEscaped c
  | .escapedEndTagName name =>
    if endsName c && name == script then .closed
    else if c.isAlpha then .escapedEndTagName (name ++ [c.toLower])
    else ofEscaped c
  | .doubleEscapeStart name =>
    if endsName c then (if name = script then .doubleEscaped else .escaped)
    else if c.isAlpha then .doubleEscapeStart (name ++ [c.toLower])
    else ofEscaped c
  | .doubleEscaped => ofDoubleEscaped c
  | .doubleEscapedDash => if c = '-' then .doubleEscapedDashDash else ofDoubleEscaped c
  | .doubleEscapedDashDash =>
    if c = '-' then .doubleEscapedDashDash else if c = '>' then .data else ofDoubleEscaped c
  | .doubleEscapedLessThan => if c = '/' then .doubleEscapeEnd [] else ofDoubleEscaped c
  | .doubleEscapeEnd name =>
    if endsName c then (if name = script then .escaped else .doubleEscaped)
    else if c.isAlpha then .doubleEscapeEnd (name ++ [c.toLower])
    else ofDoubleEscaped c
  | .closed => .closed

/-- Whether a script has been opened inside of a comment. -/
def isDoubleEscaped : ScriptState → Bool
  | .doubleEscaped | .doubleEscapedDash | .doubleEscapedDashDash | .doubleEscapedLessThan
  | .doubleEscapeEnd _ => true
  | _ => false

/-- The state behind a text. -/
def run (s : ScriptState) (cs : List Char) : ScriptState := cs.foldl step s

example : run .data "</script>".toList = .closed := by decide

example : run .data "<!-- </script>".toList = .closed := by decide

variable {s : ScriptState} {c : Char} {cs read : List Char}

theorem run_concat (s : ScriptState) (cs : List Char) (c : Char) :
    run s (cs ++ [c]) = (run s cs).step c := by
  simp [run]

theorem run_append (s : ScriptState) (cs ds : List Char) : run s (cs ++ ds) = run (run s cs) ds :=
  List.foldl_append

/-! ### Text without end tags -/

/-- No end tag has been begun: behind a `<` no slash has been read. -/
def Unended (read : List Char) : ScriptState → Prop
  | .lessThan | .escapedLessThan => ['<'] <:+ read
  | .endTagOpen | .endTagName _ | .escapedEndTagOpen | .escapedEndTagName _ | .closed => False
  | _ => True

theorem unended_ofData (read : List Char) (c : Char) : Unended (read ++ [c]) (ofData c) := by
  unfold ofData
  split
  · next mark => exact mark ▸ List.suffix_append read ['<']
  · trivial

theorem unended_ofEscaped (read : List Char) (c : Char) : Unended (read ++ [c]) (ofEscaped c) := by
  unfold ofEscaped
  split
  · trivial
  split
  · next mark => exact mark ▸ List.suffix_append read ['<']
  · trivial

theorem unended_ofDoubleEscaped (read : List Char) (c : Char) :
    Unended read (ofDoubleEscaped c) := by
  unfold ofDoubleEscaped
  split
  · trivial
  split <;> trivial

/-- Behind the beginning of a mark its next character would complete it. -/
theorem ne_of_suffix {mark : List Char} {d : Char} (h : mark <:+ read)
    (silent : ¬ mark ++ [d] <:+: read ++ [c]) : c ≠ d := by
  rintro rfl
  obtain ⟨front, rfl⟩ := h
  rw [List.append_assoc] at silent
  exact silent (List.suffix_append front (mark ++ [c])).isInfix

/-- As long as no slash follows a `<`, no end tag is begun. -/
theorem Unended.step (h : Unended read s) (silent : ¬ ['<', '/'] <:+: read ++ [c]) :
    Unended (read ++ [c]) (s.step c) := by
  have data := unended_ofData read c
  have escaped := unended_ofEscaped read c
  have double := unended_ofDoubleEscaped (read ++ [c]) c
  cases s with
  | lessThan =>
      have other : c ≠ '/' := ne_of_suffix h silent
      rw [ScriptState.step, if_neg other]
      split
      · trivial
      · exact data
  | escapedLessThan =>
      have other : c ≠ '/' := ne_of_suffix h silent
      rw [ScriptState.step, if_neg other]
      split
      · trivial
      · exact escaped
  | data => exact data
  | escaped => exact escaped
  | doubleEscaped => exact double
  | endTagOpen => exact h.elim
  | endTagName => exact h.elim
  | escapedEndTagOpen => exact h.elim
  | escapedEndTagName => exact h.elim
  | closed => exact h.elim
  | _ =>
      simp only [ScriptState.step]
      split_ifs <;> trivial

theorem unended_run (silent : ¬ ['<', '/'] <:+: cs) : Unended cs (run .data cs) := by
  -- the invariant speaks of the end of what has been read, so the text grows there
  induction cs using List.reverseRecOn with
  | nil => trivial
  | append_singleton cs c ih =>
      rw [run_concat]
      exact (ih fun found => silent (found.trans (List.prefix_append cs [c]).isInfix)).step silent

/-! ### Text without comments -/

/-- How a comment begins. -/
def commentStart : List Char := ['<', '!', '-', '-']

/-- The reader is outside of comments, and what it has read of the start of one is at the end. -/
inductive Calm (read : List Char) : ScriptState → Prop where
  | data : Calm read .data
  | lessThan : ['<'] <:+ read → Calm read .lessThan
  | escapeStart : ['<', '!'] <:+ read → Calm read .escapeStart
  | escapeStartDash : ['<', '!', '-'] <:+ read → Calm read .escapeStartDash

theorem calm_ofData (read : List Char) (c : Char) : Calm (read ++ [c]) (ofData c) := by
  unfold ofData
  split
  · next mark => exact .lessThan (mark ▸ List.suffix_append read ['<'])
  · exact .data

theorem suffix_concat {mark : List Char} (h : mark <:+ read) (c : Char) :
    mark ++ [c] <:+ read ++ [c] := by
  obtain ⟨front, rfl⟩ := h
  rw [List.append_assoc]
  exact List.suffix_append front (mark ++ [c])

/-- As long as no end tag and no comment is begun, the reader stays outside of comments. -/
theorem Calm.step (h : Calm read s) (ends : ¬ ['<', '/'] <:+: read ++ [c])
    (comments : ¬ commentStart <:+: read ++ [c]) : Calm (read ++ [c]) (s.step c) := by
  cases h with
  | data => exact calm_ofData read c
  | lessThan h =>
      have other : c ≠ '/' := ne_of_suffix h ends
      rw [ScriptState.step, if_neg other]
      split
      · next mark => exact .escapeStart (mark ▸ suffix_concat h c)
      · exact calm_ofData read c
  | escapeStart h =>
      rw [ScriptState.step]
      split
      · next mark => exact .escapeStartDash (mark ▸ suffix_concat h c)
      · exact calm_ofData read c
  | escapeStartDash h =>
      have other : c ≠ '-' := ne_of_suffix h comments
      rw [ScriptState.step, if_neg other]
      exact calm_ofData read c

theorem calm_run (ends : ¬ ['<', '/'] <:+: cs) (comments : ¬ commentStart <:+: cs) :
    Calm cs (run .data cs) := by
  induction cs using List.reverseRecOn with
  | nil => exact .data
  | append_singleton cs c ih =>
      have within := (List.prefix_append cs [c]).isInfix
      rw [run_concat]
      exact (ih (fun found => ends (found.trans within)) fun found =>
        comments (found.trans within)).step ends comments

theorem Calm.isDoubleEscaped_eq_false (h : Calm read s) : s.isDoubleEscaped = false := by
  cases h <;> rfl

/-- Behind a character that takes no part in the start of a comment nothing has been begun. -/
theorem Calm.eq_data (h : Calm (read ++ [c]) s) (mark : c ∉ commentStart) : s = .data := by
  have last (front : List Char) {d : Char} (found : front ++ [d] <:+ read ++ [c]) :
      d ∉ commentStart := by
    obtain ⟨rest, same⟩ := found
    obtain rfl : d = c := by simpa [← List.append_assoc] using congrArg List.getLast? same
    exact mark
  cases h with
  | data => rfl
  | lessThan h => exact absurd (by decide) (last [] h)
  | escapeStart h => exact absurd (by decide) (last ['<'] h)
  | escapeStartDash h => exact absurd (by decide) (last ['<', '!'] h)

end ScriptState

/-! ### Payloads without comments -/

namespace Json

mutual

/-- The texts in a value, names of fields included. -/
def strings : Json → List String
  | .text s => [s]
  | .array items => stringsAll items
  | .object fields => stringsFields fields
  | _ => []

/-- The texts in the members of an array. -/
def stringsAll : List Json → List String
  | [] => []
  | j :: js => strings j ++ stringsAll js

/-- The texts in the fields of an object. -/
def stringsFields : List (String × Json) → List String
  | [] => []
  | (name, j) :: fs => name :: strings j ++ stringsFields fs

end

variable {v w cs ws : List Char}

/-- What stands for itself at the start of a spelling starts the text. -/
theorem Spells.starts_text (h : Spells cs ws) (plain : '\\' ∉ v) (found : v <+: ws) : v <+: cs := by
  induction h generalizing v with
  | nil => exact found
  | @cons c w cs ws hc _ ih =>
      cases v with
      | nil => exact List.nil_prefix
      | cons d v =>
          simp only [List.mem_cons, not_or] at plain
          rcases Report.writes_cases hc with rfl | ⟨w', rfl, -⟩
          · obtain ⟨rfl, behind⟩ := List.cons_prefix_cons.1 found
            exact List.cons_prefix_cons.2 ⟨rfl, ih plain.2 behind⟩
          · exact absurd (List.cons_prefix_cons.1 found).1.symm plain.1

/-- A word that begins with `<` and stands for itself in a spelling is in the text. -/
theorem Spells.mem_text (h : Spells cs ws) (plain : '\\' ∉ '<' :: v)
    (found : '<' :: v <:+: ws) : '<' :: v <:+: cs := by
  induction h with
  | nil => exact found
  | @cons c w cs ws hc hs ih =>
      rcases Report.writes_cases hc with rfl | ⟨w', rfl, blank⟩
      · rcases List.infix_cons_iff.1 found with found | found
        · exact ((hs.cons hc).starts_text plain found).isInfix
        · exact List.infix_cons (ih found)
      · obtain ⟨before, after, same⟩ := found
        have silent : Report.Silent ('<' :: v) ('\\' :: w') := .of_notMem (by simp [blank])
        obtain ⟨between, rfl⟩ := silent ws before ⟨after, same⟩
        rw [List.append_assoc, List.append_assoc, List.append_cancel_left_eq] at same
        exact List.infix_cons (ih ⟨between, after, by rw [List.append_assoc, same]⟩)

end Json

namespace Report

open Json ScriptState

variable {w a : List Char}

theorem Silent.absent (h : Silent w a) (some_left : w ≠ []) : ¬ w <:+: a := by
  intro found
  obtain ⟨before, after, same⟩ := found
  have whole := (h [] before ⟨after, by rw [same, List.append_nil]⟩).length_le
  have longer : 0 < w.length := List.length_pos_of_ne_nil some_left
  rw [← same, List.length_append, List.length_append] at whole
  omega

/-- A word without the mark does not reach beyond it. -/
theorem not_prefix_of_mark {c : Char} (h : ¬ w <+: a) (mark : c ∉ w) (b : List Char) :
    ¬ w <+: a ++ c :: b := by
  intro found
  rcases List.prefix_or_prefix_of_prefix found (List.prefix_append a (c :: b)) with within | beyond
  · exact h within
  · obtain ⟨rest, rfl⟩ := beyond
    rw [List.prefix_append_right_inj] at found
    cases rest with
    | nil => exact h (by simp)
    | cons d rest =>
        obtain ⟨rfl, -⟩ := List.cons_prefix_cons.1 found
        exact mark (by simp)

theorem silent_concat {c : Char} (h : ¬ w <:+: a) (mark : c ∉ w) : Silent w (a ++ [c]) := by
  induction a with
  | nil =>
      exact .cons (fun b => not_prefix_of_mark (fun p => h p.isInfix) mark b)
        fun _ _ _ => List.nil_prefix
  | cons d a ih =>
      refine .cons (fun b found => ?_) (ih fun within => h (List.infix_cons within))
      refine not_prefix_of_mark (fun p => h p.isInfix) mark b ?_
      simpa using found

/-- A character that opens no comment stands before silent text. -/
theorem silent_cons {c : Char} (h : c ≠ '<') (ha : Silent commentStart a) :
    Silent commentStart (c :: a) :=
  .cons (fun _ found => h (List.cons_prefix_cons.1 found).1.symm) ha

theorem silent_between {c d : Char} (hc : c ≠ '<') (hd : d ≠ '<') (ha : Silent commentStart a) :
    Silent commentStart (c :: (a ++ [d])) :=
  silent_cons hc (ha.append (silent_cons hd fun _ _ _ => List.nil_prefix))

theorem silent_commaed {ms : List (List Char)} (h : ∀ m ∈ ms, Silent commentStart m) :
    Silent commentStart (commaed ms) := by
  induction ms with
  | nil => exact fun _ _ _ => List.nil_prefix
  | cons m ms ih =>
      cases ms with
      | nil => simpa using h
      | cons n ns =>
          rw [commaed_cons_cons]
          have others := ih fun k hk => h k (.tail _ hk)
          exact (h m (.head _)).append (silent_cons (by decide) (silent_cons (by decide) others))

/-- A text that opens no comment is spelled by one that opens none before its closing quote. -/
theorem silent_guarded {s : String} (h : ¬ commentStart <:+: s.toList) :
    Silent commentStart (guarded s ++ ['"']) :=
  silent_concat (fun found => h ((spells_guarded s).mem_text (by decide) found)) (by decide)

mutual

theorem silent_spelled : ∀ j : Json, (∀ s ∈ strings j, ¬ commentStart <:+: s.toList) →
    Silent commentStart (spelled guarded j)
  | .text s, h => silent_cons (by decide) (silent_guarded (h s (.head _)))
  | .array items, h =>
      silent_between (by decide) (by decide) (silent_commaed (silent_spelledAll items h))
  | .object fields, h =>
      silent_between (by decide) (by decide) (silent_commaed (silent_spelledFields fields h))
  | .null, _ => .of_notMem (notMem_writtenScalar (j := .null) nofun)
  | .bool b, _ => .of_notMem (notMem_writtenScalar (j := .bool b) nofun)
  | .int i, _ => .of_notMem (notMem_writtenScalar (j := .int i) nofun)
  | .float x, _ => .of_notMem (notMem_writtenScalar (j := .float x) nofun)

theorem silent_spelledAll : ∀ js : List Json,
    (∀ s ∈ stringsAll js, ¬ commentStart <:+: s.toList) →
    ∀ m ∈ spelledAll guarded js, Silent commentStart m
  | [], _, m, hm => absurd hm List.not_mem_nil
  | j :: js, h, m, hm => by
      rw [stringsAll, List.forall_mem_append] at h
      cases hm with
      | head => exact silent_spelled j h.1
      | tail _ hm => exact silent_spelledAll js h.2 m hm

theorem silent_spelledFields : ∀ fs : List (String × Json),
    (∀ s ∈ stringsFields fs, ¬ commentStart <:+: s.toList) →
    ∀ m ∈ spelledFields guarded fs, Silent commentStart m
  | [], _, m, hm => absurd hm List.not_mem_nil
  | (name, j) :: fs, h, m, hm => by
      rw [stringsFields, List.forall_mem_append, List.forall_mem_cons] at h
      cases hm with
      | head =>
          have colon := silent_cons (c := ':') (by decide)
            (silent_cons (c := ' ') (by decide) (silent_spelled j h.1.2))
          have field := silent_cons (c := '"') (by decide) ((silent_guarded h.1.1).append colon)
          simpa [fielded] using field
      | tail _ hm => exact silent_spelledFields fs h.2 m hm

end

theorem not_infix_payloadHtml (payload : Json) :
    ¬ ['<', '/'] <:+: (payloadHtml payload).toList := by
  rw [payloadHtml, String.toList_ofList]
  exact not_infix_guardEnds _

theorem calm_payloadHtml {payload : Json} (h : ∀ s ∈ strings payload, ¬ commentStart <:+: s.toList)
    {front : List Char} (part : front <+: (payloadHtml payload).toList) :
    Calm front (run .data front) := by
  have silent : ¬ commentStart <:+: (payloadHtml payload).toList := by
    rw [toList_payloadHtml]
    exact (silent_spelled payload h).absent (by decide)
  exact calm_run (fun found => not_infix_payloadHtml payload (found.trans part.isInfix))
    fun found => silent (found.trans part.isInfix)

/-- A payload does not end its element, not even in part. -/
theorem run_payloadHtml_ne_closed {payload : Json} {front : List Char}
    (part : front <+: (payloadHtml payload).toList) : run .data front ≠ .closed := by
  have silent : ¬ ['<', '/'] <:+: front := fun found =>
    not_infix_payloadHtml payload (found.trans part.isInfix)
  intro ended
  have unended := unended_run silent
  rw [ended] at unended
  exact unended

/-- Where no text opens a comment, the payload leaves the reader where an end tag is read. -/
theorem run_scriptEnd {fields : List (String × Json)}
    (h : ∀ s ∈ strings (.object fields), ¬ commentStart <:+: s.toList) :
    run .data ((payloadHtml (.object fields)).toList ++ "</script>".toList) = .closed := by
  have calm := calm_payloadHtml h (List.prefix_refl _)
  obtain ⟨read, brace⟩ : ∃ read, (payloadHtml (.object fields)).toList = read ++ ['\x7d'] := by
    rw [toList_payloadHtml, spelled, ← List.cons_append]
    exact ⟨_, rfl⟩
  rw [brace] at calm ⊢
  rw [run_append, calm.eq_data (by decide)]
  decide

/-- **What is read of a payload.** It never ends its element. If no text in it opens a comment, the
reader stays outside of comments, and the end tag behind the payload ends the element. -/
theorem run_payload (d : Document) (stages : List Stage) :
    (∀ front, front <+: (payloadHtml (payload d stages)).toList → run .data front ≠ .closed) ∧
      ((∀ s ∈ strings (payload d stages), ¬ commentStart <:+: s.toList) →
        (∀ front, front <+: (payloadHtml (payload d stages)).toList →
          (run .data front).isDoubleEscaped = false) ∧
        run .data ((payloadHtml (payload d stages)).toList ++ "</script>".toList) = .closed) :=
  ⟨fun _ part => run_payloadHtml_ne_closed part, fun harmless =>
    ⟨fun _ part => (calm_payloadHtml harmless part).isDoubleEscaped_eq_false,
      run_scriptEnd harmless⟩⟩

theorem impostors_read :
    (∀ s ∈ strings (payload impostors []), ¬ commentStart <:+: s.toList) ∧
      run .data ((payloadHtml (payload impostors [])).toList ++ "</script>".toList) = .closed := by
  have harmless : ∀ s ∈ strings (payload impostors []), ¬ commentStart <:+: s.toList := by
    decide +kernel
  exact ⟨harmless, ((run_payload impostors []).2 harmless).2⟩

/-- A document whose only argument has a name that opens a comment and a script in it. -/
def commented : Document := ⟨[.bare "<!--<script>"], [], none⟩

/-- Its only stage. -/
def commentedStage : Stage where
  step := 1
  framework := ⟨["<!--<script>"], [], by decide, by decide, by decide⟩
  extensions :=
    { conflictFree := [[], ["<!--<script>"]]
      admissible := [[], ["<!--<script>"]]
      complete := [["<!--<script>"]]
      preferred := [["<!--<script>"]]
      grounded := [["<!--<script>"]]
      stable := [["<!--<script>"]] }
  rankTop := [("<!--<script>", 0)]
  rankBottom := [("<!--<script>", 0)]

/-- Nobody attacks the argument, so a single round accepts it. -/
theorem families_commentedStage :
    commentedStage.framework.families = commentedStage.extensions := by
  have grounded : commentedStage.framework.groundedExtension = ["<!--<script>"] := by
    rw [Framework.groundedExtension, Framework.labelling,
      Labelling.settle_eq_iterate 1 (by decide +kernel)]
    decide +kernel
  simp only [Framework.families, grounded, Framework.named_eq_insertionSort]
  decide +kernel

set_option synthInstance.maxSize 512 in
theorem decompose_commented : commented.decompose 20 = .ok [commentedStage] := by
  have computed : ((commented.decompose 20).map (·.map fun S =>
      ((S.step, S.framework.arguments, S.framework.attacks), S.rankTop, S.rankBottom))).toOption =
      some [((1, ["<!--<script>"], []), [("<!--<script>", 0)], [("<!--<script>", 0)])] := by
    decide +kernel
  obtain ⟨stages, decomposed, parts⟩ := map_eq_ok_iff.1 (eq_ok_of_toOption computed)
  obtain ⟨S, rfl, same⟩ := List.map_eq_singleton_iff.1 parts
  simp only [Prod.mk.injEq] at same
  obtain ⟨⟨step, arguments, attacks⟩, top, bottom⟩ := same
  have framework : S.framework = commentedStage.framework :=
    Framework.eq_of_parts arguments attacks
  have extensions : S.extensions = commentedStage.extensions := by
    obtain ⟨p, -, staged⟩ := bind_eq_ok_iff.1 decomposed
    have enumerated := ((Stage.ofPlan_eq_ok staged).2 S List.mem_cons_self).extensions
    rw [framework, Framework.extensions_eq_ok (by decide), families_commentedStage] at enumerated
    exact (Except.ok.inj enumerated).symm
  rw [decomposed]
  cases S
  cases framework
  cases extensions
  cases step
  cases top
  cases bottom
  rfl

/-- The end tag is taken for that of the inner script, and the element goes on behind it. -/
theorem commented_stays_open : ∃ stages, commented.decompose 20 = .ok stages ∧
    run .data (payloadHtml (payload commented stages)).toList = .doubleEscaped ∧
    run .data ((payloadHtml (payload commented stages)).toList ++ "</script>".toList) ≠
      .closed := by
  have read : run .data (payloadHtml (payload commented [commentedStage])).toList =
      .doubleEscaped := by
    rw [toList_payloadHtml]
    decide +kernel
  refine ⟨[commentedStage], decompose_commented, read, ?_⟩
  rw [run_append, read]
  decide

end Report

end Argumentation
