import Argumentation.Loading
import Argumentation.Proofs.Construction
import Mathlib.Data.List.DropRight
import Mathlib.Data.List.TakeWhile

/-!
# Argumentation.Proofs.Excerpt

What is taken from the lines of a document as its exhibit. The lines around the exhibit are named
first (`Exhibit.Site`): the first one with the key, those below it up to the next one that starts in
the first column, and the rest. What is taken is told by the site alone (`extract_site`).

If the line with the key announces a block, the lines below are shown without what they have in
common at their starts. The margin is measured on the lines that are not blank only, so that it is
at most the margin of each of them, and the blank ones may be shorter than it.
-/

namespace Argumentation.Exhibit

variable {line value rest gap tail : List Char} {lines below block after : List (List Char)}
  {k n : Nat}

/-! ### Lines of a text -/

theorem splitAt_eq_splitOn (sep : Char) (cs : List Char) :
    Text.splitAt sep cs = cs.splitOn sep := by
  induction cs with
  | nil => rfl
  | cons c cs ih =>
      obtain ⟨piece, pieces, split⟩ := List.exists_cons_of_ne_nil (List.splitOn_ne_nil sep cs)
      rw [Text.splitAt_cons, ih, List.splitOn_cons_eq_if_modifyHead, split, Text.splitStep]
      by_cases same : c = sep
      · simp [same]
      · simp [same]

/-- The lines of a text that is made of lines are these lines. -/
theorem splitAt_intercalate (unbroken : ∀ l ∈ lines, '\n' ∉ l) (some_line : lines ≠ []) :
    Text.splitAt '\n' (['\n'].intercalate lines) = lines := by
  rw [splitAt_eq_splitOn]
  exact List.splitOn_intercalate '\n' unbroken some_line

theorem notMem_of_mem_splitAt {sep : Char} {cs : List Char} (h : line ∈ Text.splitAt sep cs) :
    sep ∉ line := by
  induction cs generalizing line with
  | nil =>
      obtain rfl : line = [] := by simpa [Text.splitAt_nil] using h
      exact List.not_mem_nil
  | cons c cs ih =>
      rw [Text.splitAt_cons, splitAt_eq_splitOn] at h
      rw [splitAt_eq_splitOn] at ih
      obtain ⟨piece, pieces, split⟩ := List.exists_cons_of_ne_nil (List.splitOn_ne_nil sep cs)
      rw [split] at h ih
      rw [Text.splitStep] at h
      split at h
      · rcases List.mem_cons.1 h with rfl | h
        · exact List.not_mem_nil
        · exact ih h
      · next other =>
        rcases List.mem_cons.1 h with rfl | h
        · exact List.not_mem_cons_of_ne_of_not_mem (Ne.symm other) (ih List.mem_cons_self)
        · exact ih (List.mem_cons_of_mem _ h)

/-! ### The line with the key -/

/-- The line has the key in its first columns; what follows the colon behind it is `value`. -/
def Introduces (line value : List Char) : Prop :=
  ∃ gap, (∀ c ∈ gap, Text.isBlank c = true) ∧ line = "exhibit".toList ++ (gap ++ ':' :: value)

theorem header?_eq_some_iff :
    header? line = some rest ↔ ∃ value, Introduces line value ∧ Text.trim value = rest := by
  constructor
  · intro h
    rw [header?] at h
    split at h
    · next value found =>
      obtain ⟨behind, front, skipped⟩ := Option.map_eq_some_iff.1 found
      refine ⟨value, ⟨behind.takeWhile Text.isBlank, fun c hc => List.mem_takeWhile_imp hc, ?_⟩,
        Option.some.inj h⟩
      rw [← skipped, List.takeWhile_append_dropWhile]
      exact (List.isPrefixOf?_eq_some_iff_append_eq.1 front).symm
    · exact nomatch h
  · intro h
    obtain ⟨value, ⟨gap, blank, rfl⟩, rfl⟩ := h
    have front : "exhibit".toList.isPrefixOf? ("exhibit".toList ++ (gap ++ ':' :: value)) =
        some (gap ++ ':' :: value) := List.isPrefixOf?_eq_some_iff_append_eq.2 rfl
    have colon : ¬ Text.isBlank ':' = true := by decide
    have skipped : (gap ++ ':' :: value).dropWhile Text.isBlank = ':' :: value := by
      rw [List.dropWhile_append_of_pos blank, List.dropWhile_cons_of_neg colon]
    rw [header?, front, Option.map_some, skipped]
    rfl

theorem header?_eq_none_iff : header? line = none ↔ ∀ value, ¬ Introduces line value := by
  constructor
  · intro h value introduces
    have found := header?_eq_some_iff.2 ⟨value, introduces, rfl⟩
    rw [h] at found
    exact nomatch found
  · intro h
    cases found : header? line with
    | none => rfl
    | some rest =>
        obtain ⟨value, introduces, -⟩ := header?_eq_some_iff.1 found
        exact absurd introduces (h value)

/-- The first line with the key is found behind lines without it. -/
theorem find?_append {before : List (List Char)} (silent : ∀ l ∈ before, header? l = none)
    (here : header? line = some rest) : find? (before ++ line :: below) = some (rest, below) := by
  induction before with
  | nil => rw [List.nil_append, find?, here]
  | cons l before ih =>
      obtain ⟨nothing, silent⟩ := List.forall_mem_cons.1 silent
      rw [List.cons_append, find?, nothing]
      exact ih silent

theorem exists_of_find? (h : find? lines = some (rest, below)) : ∃ before line,
    before ++ line :: below = lines ∧ (∀ l ∈ before, header? l = none) ∧
      header? line = some rest := by
  induction lines with
  | nil => exact nomatch h
  | cons l lines ih =>
      rw [find?] at h
      cases here : header? l with
      | some found =>
          rw [here] at h
          cases h
          exact ⟨[], l, rfl, fun _ hl => absurd hl List.not_mem_nil, here⟩
      | none =>
          rw [here] at h
          obtain ⟨before, line, rfl, silent, introduces⟩ := ih h
          exact ⟨l :: before, line, rfl, List.forall_mem_cons.2 ⟨here, silent⟩, introduces⟩

/-- What stands behind the colon announces a block: one of the four marks, nothing, or a comment. -/
def Announces (rest : List Char) : Prop :=
  rest ∈ ["|".toList, ">".toList, "|-".toList, ">-".toList, []] ∨ rest.head? = some '#'

theorem announcesBlock_iff : announcesBlock rest = true ↔ Announces rest := by
  simp [announcesBlock, blockMarks, Announces, or_assoc]

/-! ### The lines below -/

/-- The line has a character in its first column. -/
def StartsAtMargin (line : List Char) : Prop := ∃ c cs, line = c :: cs ∧ Text.isBlank c = false

theorem inBlock_eq_false_iff : inBlock line = false ↔ StartsAtMargin line := by
  cases line with
  | nil => simp [inBlock, StartsAtMargin, Text.isBlankLine]
  | cons c cs =>
      cases first : Text.isBlank c with
      | true => simp [inBlock, StartsAtMargin, first]
      | false => simp [inBlock, StartsAtMargin, Text.isBlankLine, first]

theorem inBlock_iff : inBlock line = true ↔ ¬ StartsAtMargin line := by
  rw [← inBlock_eq_false_iff, Bool.not_eq_false]

/-- Where the exhibit stands among the lines of a document. -/
structure Site (lines : List (List Char)) where
  before : List (List Char)
  /-- The line with the key. -/
  line : List Char
  /-- What follows the colon behind the key. -/
  value : List Char
  /-- The lines below, as far as none of them starts in the first column. -/
  block : List (List Char)
  after : List (List Char)
  lines_eq : before ++ line :: (block ++ after) = lines
  silent : ∀ l ∈ before, ∀ v, ¬ Introduces l v
  introduces : Introduces line value
  inside : ∀ l ∈ block, ¬ StartsAtMargin l
  ends : ∀ l ∈ after.head?, StartsAtMargin l

theorem find?_site (S : Site lines) :
    find? lines = some (Text.trim S.value, S.block ++ S.after) := by
  have here : header? S.line = some (Text.trim S.value) :=
    header?_eq_some_iff.2 ⟨S.value, S.introduces, rfl⟩
  have silent : ∀ l ∈ S.before, header? l = none :=
    fun l hl => header?_eq_none_iff.2 (S.silent l hl)
  have found : find? (S.before ++ S.line :: (S.block ++ S.after)) =
      some (Text.trim S.value, S.block ++ S.after) := find?_append silent here
  rwa [S.lines_eq] at found

theorem takeWhile_site (S : Site lines) : (S.block ++ S.after).takeWhile inBlock = S.block := by
  rw [List.takeWhile_append_of_pos fun l hl => inBlock_iff.2 (S.inside l hl)]
  cases rest : S.after with
  | nil => rw [List.takeWhile_nil, List.append_nil]
  | cons l more =>
      have starts := S.ends l (by rw [rest]; rfl)
      have stops : ¬ inBlock l = true := fun inside => inBlock_iff.1 inside starts
      rw [List.takeWhile_cons_of_neg stops, List.append_nil]

/-- Lines from which something is taken have a place for it. -/
theorem exists_site (h : find? lines = some (rest, below)) : Nonempty (Site lines) := by
  obtain ⟨before, line, split, silent, introduces⟩ := exists_of_find? h
  obtain ⟨value, introduces, -⟩ := header?_eq_some_iff.1 introduces
  refine ⟨⟨before, line, value, below.takeWhile inBlock, below.dropWhile inBlock, ?_,
    fun l hl => header?_eq_none_iff.1 (silent l hl), introduces, ?_, ?_⟩⟩
  · rw [List.takeWhile_append_dropWhile, split]
  · exact fun l hl => inBlock_iff.1 (List.mem_takeWhile_imp hl)
  · intro l hl
    have stops := List.head?_dropWhile_not inBlock below
    rw [Option.mem_def.1 hl] at stops
    exact inBlock_eq_false_iff.1 stops

/-- What is taken from lines is told by the line with the key and the lines below it. -/
theorem ofLines_site (S : Site lines) : ofLines lines =
    if announcesBlock (Text.trim S.value) then ofBlock S.block else some (Text.trim S.value) := by
  rw [ofLines, find?_site S, Option.bind_some]
  dsimp only
  rw [takeWhile_site S]

/-! ### Margins -/

theorem isBlankLine_append {indent kept : List Char} (blank : Text.isBlankLine indent = true) :
    Text.isBlankLine (indent ++ kept) = Text.isBlankLine kept := by
  rw [Text.isBlankLine, List.all_append, ← Text.isBlankLine, blank, Bool.true_and, Text.isBlankLine]

theorem margin_le_length (line : List Char) : margin line ≤ line.length :=
  (List.takeWhile_prefix _).length_le

/-- What is cut off a line within its margin is blank. -/
theorem exists_indent (h : n ≤ margin line) : ∃ indent, line = indent ++ cut n line ∧
    indent.length = n ∧ Text.isBlankLine indent = true := by
  have short : n ≤ line.length := h.trans (margin_le_length line)
  refine ⟨line.take n, ?_, List.length_take_of_le short, ?_⟩
  · rw [cut, if_pos short, List.take_append_drop]
  · have front : line.take n <+: line.takeWhile Text.isBlank :=
      List.prefix_of_prefix_length_le (List.take_prefix _ _) (List.takeWhile_prefix _)
        ((List.length_take_le _ _).trans h)
    exact List.all_eq_true.2 fun c hc => List.mem_takeWhile_imp (front.subset hc)

theorem isBlankLine_cut (h : Text.isBlankLine line = true) :
    Text.isBlankLine (cut n line) = true := by
  rw [cut]
  split
  · exact List.all_eq_true.2 fun c hc => List.all_eq_true.1 h c (List.mem_of_mem_drop hc)
  · exact h

theorem cut_subset : cut n line ⊆ line := by
  rw [cut]
  split
  · exact List.drop_subset _ _
  · exact List.Subset.refl _

/-- The common margin is that of some line, and no line has less; blank lines do not count. -/
theorem commonMargin?_eq_some_iff : commonMargin? lines = some n ↔
    (∃ l ∈ lines, Text.isBlankLine l = false ∧ margin l = n) ∧
      ∀ l ∈ lines, Text.isBlankLine l = false → n ≤ margin l := by
  have measured {m : Nat} : m ∈ (lines.filter fun l => !Text.isBlankLine l).map margin ↔
      ∃ l ∈ lines, Text.isBlankLine l = false ∧ margin l = m := by
    simp [and_assoc]
  rw [commonMargin?, List.min?_eq_some_iff, measured]
  apply and_congr_right
  intro _
  constructor
  · intro h l hl some_mark
    exact h _ (measured.2 ⟨l, hl, some_mark, rfl⟩)
  · intro h m hm
    obtain ⟨l, hl, some_mark, rfl⟩ := measured.1 hm
    exact h l hl some_mark

/-! ### Blank lines at the end -/

theorem mem_dropBlankEnd (h : line ∈ lines) (some_mark : Text.isBlankLine line = false) :
    line ∈ dropBlankEnd lines := by
  induction lines using List.reverseRecOn with
  | nil => exact absurd h List.not_mem_nil
  | append_singleton lines last ih =>
      rw [dropBlankEnd, ← List.rdropWhile.eq_def, List.rdropWhile_concat]
      split
      · next blank =>
        rcases List.mem_append.1 h with h | h
        · exact ih h
        · rw [List.mem_singleton.1 h, blank] at some_mark
          exact nomatch some_mark
      · exact h

/-! ### Blocks that are read -/

/-- Every line that is not blank is a line of the text `shown`, without the same number of blank
characters at its start. -/
def Keeps (shown : List Char) (lines : List (List Char)) : Prop :=
  ∃ n, ∀ l ∈ lines, Text.isBlankLine l = false → ∃ indent kept, l = indent ++ kept ∧
    indent.length = n ∧ Text.isBlankLine indent = true ∧ kept ∈ Text.splitAt '\n' shown

/-- A block that is shown keeps its lines. -/
theorem keeps_of_ofBlock {shown : List Char} (unbroken : ∀ l ∈ block, '\n' ∉ l)
    (h : ofBlock block = some shown) : Keeps shown block := by
  obtain ⟨n, common, rfl⟩ := Option.map_eq_some_iff.1 h
  obtain ⟨-, least⟩ := commonMargin?_eq_some_iff.1 common
  refine ⟨n, fun l hl some_mark => ?_⟩
  obtain ⟨indent, split, length, blank⟩ := exists_indent (least l hl some_mark)
  refine ⟨indent, cut n l, split, length, blank, ?_⟩
  have some_mark_left : Text.isBlankLine (cut n l) = false := by
    rwa [split, isBlankLine_append blank] at some_mark
  have left : cut n l ∈ dropBlankEnd (block.map (cut n)) :=
    mem_dropBlankEnd (List.mem_map_of_mem hl) some_mark_left
  rw [splitAt_intercalate (fun m hm => ?_) (List.ne_nil_of_mem left)]
  · exact left
  · have listed : m ∈ block.map (cut n) := (List.rdropWhile_prefix _ _).subset hm
    obtain ⟨l, hl, rfl⟩ := List.mem_map.1 listed
    exact fun broken => unbroken l hl (cut_subset broken)

/-- What is shown of the exhibit at its place. -/
inductive Shown (S : Site lines) (shown : List Char) : Prop where
  | block (announced : Announces (Text.trim S.value)) (kept : Keeps shown S.block)
  /-- Without an announcement, nothing below the line with the key is shown. -/
  | inline (unannounced : ¬ Announces (Text.trim S.value)) (same : shown = Text.trim S.value)

theorem shown_ofLines (unbroken : ∀ l ∈ lines, '\n' ∉ l) {shown : List Char}
    (h : ofLines lines = some shown) (S : Site lines) : Shown S shown := by
  rw [ofLines_site S] at h
  split at h
  · next announced =>
    refine .block (announcesBlock_iff.1 announced) (keeps_of_ofBlock (fun l hl => unbroken l ?_) h)
    rw [← S.lines_eq]
    simp [hl]
  · next unannounced =>
    exact .inline (fun announced => unannounced (announcesBlock_iff.2 announced))
      (Option.some.inj h).symm

/-- A document whose text has an exhibit for itself is loaded with it. -/
theorem exhibit_of_load {text : String} {limit : Int} {d : Document} {shown : String}
    (taken : extract text = some shown) (loaded : Document.load text limit = .ok d) :
    d.exhibit = some shown := by
  rw [Document.load, Document.loadBy] at loaded
  dsimp only at loaded
  split at loaded
  · exact nomatch loaded
  · obtain ⟨v, -, loaded⟩ := bind_eq_ok_iff.1 loaded
    obtain ⟨d', -, loaded⟩ := bind_eq_ok_iff.1 loaded
    cases loaded
    rw [Document.withExhibit, taken]
    rfl

/-- **What is taken for the exhibit keeps the lines below the key if the line with the key announces
a block**, by one of the four marks, a comment or nothing. If it does not, it is what stands on that
line and nothing else. Either way it stands in for the exhibit that is read from the document. -/
theorem extract_shown {text shown : String} (h : extract text = some shown) :
    Nonempty (Site (Text.splitAt '\n' text.toList)) ∧
      (∀ S : Site (Text.splitAt '\n' text.toList), Shown S shown.toList) ∧
      ∀ limit d, Document.load text limit = .ok d → d.exhibit = some shown := by
  obtain ⟨cs, taken, rfl⟩ := Option.map_eq_some_iff.1 h
  obtain ⟨⟨rest, below⟩, found, -⟩ := Option.bind_eq_some_iff.1 taken
  rw [String.toList_ofList]
  exact ⟨exists_site found, shown_ofLines (fun l hl => notMem_of_mem_splitAt hl) taken,
    fun limit d loaded => exhibit_of_load h loaded⟩

/-- The exhibit is announced by a comment, and its lines are not equally far in. -/
def annotated : String := "arguments: [a]\nexhibit : # as heard\n\n    Ann: |\n      so.\n"

theorem annotated_shown : extract annotated = some "\nAnn: |\n  so." ∧
    Nonempty (Site (Text.splitAt '\n' annotated.toList)) ∧
      (∀ S : Site (Text.splitAt '\n' annotated.toList), Shown S "\nAnn: |\n  so.".toList) ∧
      ∀ limit d, Document.load annotated limit = .ok d → d.exhibit = some "\nAnn: |\n  so." :=
  ⟨by decide, extract_shown (by decide)⟩

/-- The exhibit is a block with the mark that keeps the line breaks at its end. -/
def chomped : String := "exhibit: |+\n  Ann: so.\narguments: [a]\n"

/-- Where the exhibit stands in `chomped`. -/
def chompedSite : Site (Text.splitAt '\n' chomped.toList) where
  before := []
  line := "exhibit: |+".toList
  value := " |+".toList
  block := ["  Ann: so.".toList]
  after := ["arguments: [a]".toList, []]
  lines_eq := by decide
  silent := fun l hl => absurd hl List.not_mem_nil
  introduces := ⟨[], fun c hc => absurd hc List.not_mem_nil, by decide⟩
  inside := by
    rw [List.forall_mem_singleton, ← inBlock_iff]
    decide
  ends := by
    intro l hl
    cases hl
    exact inBlock_eq_false_iff.1 (by decide)

/-- The mark of the block is taken for the exhibit. The one line of the block is not in it, and it
is lost to the document, which has been read with it. -/
theorem chomped_loses : extract chomped = some "|+" ∧ ¬ Keeps "|+".toList chompedSite.block ∧
    (match Document.load chomped Document.lengthLimit with
      | .ok d => d.exhibit
      | .error _ => none) = some "|+" ∧
    (match (Markup.read chomped.toList).toOption.bind (·.field? "exhibit") with
      | some (.text s) => some s
      | _ => none) = some "Ann: so.\n" := by
  refine ⟨by decide, fun keeps => ?_, by decide +kernel, by decide +kernel⟩
  obtain ⟨n, each⟩ := keeps
  obtain ⟨indent, kept, split, -, -, shown⟩ :=
    each "  Ann: so.".toList (List.mem_singleton_self _) rfl
  obtain rfl : kept = "|+".toList := List.mem_singleton.1 shown
  -- the line ends in a full stop
  have last := congrArg List.getLast? split
  rw [List.getLast?_append] at last
  exact absurd (show '.' = '+' from Option.some.inj last) (by decide)

end Argumentation.Exhibit
