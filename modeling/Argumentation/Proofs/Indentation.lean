import Argumentation.Proofs.Excerpt

/-!
# Argumentation.Proofs.Indentation

A text that is written into a document as a block is taken from it as it was. `Exhibit.Layout` says
how: the line with the key announces the block, and each line of the text stands the same number of
columns in. One line of the text has to start in its first column, so that the columns are all of
what the lines have in common; and its last line must not be blank, as blank lines may follow the
block. What the lines say is free. They may be blank, stand further in, or look like the line with
the key, as no line of the block has a character in the first column of the document.
-/

namespace Argumentation.Exhibit

variable {line mark space : List Char} {body blankEnd : List (List Char)} {k : Nat}

/-! ### The mark of a block -/

theorem trim_append (blank : ∀ c ∈ space, Text.isBlank c = true) (cs : List Char) :
    Text.trim (space ++ cs) = Text.trim cs := by
  rw [Text.trim, Text.trimBoth, List.dropWhile_append_of_pos blank, Text.trim, Text.trimBoth]

/-- A comment stays one without the blank characters at its end. -/
theorem head?_trim_comment (cs : List Char) : (Text.trim ('#' :: cs)).head? = some '#' := by
  have first : ¬ Text.isBlank '#' = true := by decide
  have cut : Text.trim ('#' :: cs) = ('#' :: cs).rdropWhile Text.isBlank := by
    rw [Text.trim, Text.trimBoth, List.dropWhile_cons_of_neg first, List.rdropWhile]
  have some_left : Text.trim ('#' :: cs) ≠ [] := by
    intro nothing
    rw [cut, List.rdropWhile_eq_nil_iff] at nothing
    exact first (nothing '#' List.mem_cons_self)
  obtain ⟨c, rest, split⟩ := List.exists_cons_of_ne_nil some_left
  have front : Text.trim ('#' :: cs) <+: '#' :: cs := cut ▸ List.rdropWhile_prefix _ _
  rw [split] at front ⊢
  rw [(List.cons_prefix_cons.1 front).1, List.head?_cons]

theorem Announces.trim (h : Announces mark) : Announces (Text.trim mark) := by
  rcases h with one_of | comment
  · have kept : ∀ m ∈ ["|".toList, ">".toList, "|-".toList, ">-".toList, []], Text.trim m = m := by
      decide
    rw [kept mark one_of]
    exact .inl one_of
  · obtain ⟨cs, rfl⟩ := List.head?_eq_some_iff.1 comment
    exact .inr (head?_trim_comment cs)

/-! ### Indented lines -/

/-- The line, `k` columns further in. -/
def indented (k : Nat) (line : List Char) : List Char := List.replicate k ' ' ++ line

theorem isBlankLine_replicate (k : Nat) : Text.isBlankLine (List.replicate k ' ') = true := by
  rw [Text.isBlankLine, List.all_replicate]
  split
  · rfl
  · decide

theorem isBlankLine_indented : Text.isBlankLine (indented k line) = Text.isBlankLine line :=
  isBlankLine_append (isBlankLine_replicate k)

theorem cut_indented : cut k (indented k line) = line := by
  rw [cut, indented, if_pos (by simp), List.drop_left' List.length_replicate]

/-- Indenting a line moves its margin by as many columns. -/
theorem margin_indented : margin (indented k line) = k + margin line := by
  have blank : ∀ c ∈ List.replicate k ' ', Text.isBlank c = true :=
    List.all_eq_true.1 (isBlankLine_replicate k)
  rw [margin, indented, List.takeWhile_append_of_pos blank, List.length_append,
    List.length_replicate, margin]

theorem StartsAtMargin.margin_eq (h : StartsAtMargin line) : margin line = 0 := by
  obtain ⟨c, cs, rfl, mark⟩ := h
  have stops : ¬ Text.isBlank c = true := Bool.eq_false_iff.1 mark
  rw [margin, List.takeWhile_cons_of_neg stops, List.length_nil]

theorem StartsAtMargin.isBlankLine_eq (h : StartsAtMargin line) :
    Text.isBlankLine line = false := by
  obtain ⟨c, cs, rfl, mark⟩ := h
  rw [Text.isBlankLine, List.all_cons, mark, Bool.false_and]

/-- A line that is blank or stands further in has nothing in the first column. -/
theorem not_startsAtMargin_indented (pos : 0 < k) : ¬ StartsAtMargin (indented k line) := by
  intro starts
  have inside := starts.margin_eq
  rw [margin_indented] at inside
  omega

theorem not_startsAtMargin_of_blank (blank : Text.isBlankLine line = true) :
    ¬ StartsAtMargin line := by
  intro starts
  rw [starts.isBlankLine_eq] at blank
  exact nomatch blank

/-! ### Blank lines behind a block -/

/-- Blank lines at the end are dropped with those that are there already. -/
theorem dropBlankEnd_append (blank : ∀ l ∈ blankEnd, Text.isBlankLine l = true) :
    dropBlankEnd (body ++ blankEnd) = dropBlankEnd body := by
  rw [dropBlankEnd, List.reverse_append,
    List.dropWhile_append_of_pos fun l hl => blank l (List.mem_reverse.1 hl), dropBlankEnd]

theorem dropBlankEnd_eq_self (last : ∀ l ∈ body.getLast?, Text.isBlankLine l = false) :
    dropBlankEnd body = body := by
  refine List.rdropWhile_eq_self_iff.2 fun some_line blank => ?_
  rw [last _ (List.getLast?_eq_getLast_of_ne_nil some_line)] at blank
  exact nomatch blank

/-- Lines that are as far in as they can be are what is left of them as a block. -/
theorem ofBlock_indented (flush : ∃ l ∈ body, StartsAtMargin l)
    (last : ∀ l ∈ body.getLast?, Text.isBlankLine l = false)
    (blank : ∀ l ∈ blankEnd, Text.isBlankLine l = true) :
    ofBlock (body.map (indented k) ++ blankEnd) = some (['\n'].intercalate body) := by
  have common : commonMargin? (body.map (indented k) ++ blankEnd) = some k := by
    rw [commonMargin?_eq_some_iff]
    constructor
    · obtain ⟨l, hl, starts⟩ := flush
      refine ⟨indented k l, List.mem_append_left _ (List.mem_map_of_mem hl), ?_, ?_⟩
      · rw [isBlankLine_indented, starts.isBlankLine_eq]
      · rw [margin_indented, starts.margin_eq, Nat.add_zero]
    · intro l hl some_mark
      rcases List.mem_append.1 hl with inside | behind
      · obtain ⟨l, -, rfl⟩ := List.mem_map.1 inside
        rw [margin_indented]
        exact Nat.le_add_right k _
      · rw [blank l behind] at some_mark
        exact nomatch some_mark
  have body_back : (body.map (indented k)).map (cut k) = body := by
    simp [Function.comp_def, cut_indented]
  have blank_cut : ∀ l ∈ blankEnd.map (cut k), Text.isBlankLine l = true := by
    intro l hl
    obtain ⟨l, old, rfl⟩ := List.mem_map.1 hl
    exact isBlankLine_cut (blank l old)
  rw [ofBlock, common, Option.map_some, List.map_append, body_back, dropBlankEnd_append blank_cut,
    dropBlankEnd_eq_self last]

/-! ### Documents with a block -/

/-- A document that gives its exhibit as a block. -/
structure Layout where
  before : List (List Char)
  /-- What stands between the key and the colon. -/
  gap : List Char
  /-- What stands between the colon and the mark. -/
  space : List Char
  mark : List Char
  /-- How many columns the exhibit stands in. -/
  width : Nat
  /-- The lines of the exhibit. -/
  body : List (List Char)
  /-- Blank lines behind the exhibit. -/
  blankEnd : List (List Char)
  after : List (List Char)
  silent : ∀ l ∈ before, ∀ v, ¬ Introduces l v
  gap_blank : ∀ c ∈ gap, Text.isBlank c = true
  space_blank : ∀ c ∈ space, Text.isBlank c = true
  announces : Announces mark
  width_pos : 0 < width
  flush : ∃ l ∈ body, StartsAtMargin l
  last : ∀ l ∈ body.getLast?, Text.isBlankLine l = false
  blank : ∀ l ∈ blankEnd, Text.isBlankLine l = true
  ends : ∀ l ∈ after.head?, StartsAtMargin l
  unbroken : ∀ l ∈ (gap ++ (space ++ mark)) :: (before ++ (body ++ (blankEnd ++ after))), '\n' ∉ l

namespace Layout

/-- The line with the key. -/
def header (L : Layout) : List Char := "exhibit".toList ++ (L.gap ++ ':' :: (L.space ++ L.mark))

/-- The lines of the document. -/
def lines (L : Layout) : List (List Char) :=
  L.before ++ L.header :: ((L.body.map (indented L.width) ++ L.blankEnd) ++ L.after)

/-- The text of the document. -/
def text (L : Layout) : String := String.ofList (['\n'].intercalate L.lines)

/-- The text of the exhibit. -/
def exhibit (L : Layout) : String := String.ofList (['\n'].intercalate L.body)

/-- Where the exhibit stands in the document. -/
def site (L : Layout) : Site L.lines where
  before := L.before
  line := L.header
  value := L.space ++ L.mark
  block := L.body.map (indented L.width) ++ L.blankEnd
  after := L.after
  lines_eq := rfl
  silent := L.silent
  introduces := ⟨L.gap, L.gap_blank, rfl⟩
  inside := by
    intro l hl
    rcases List.mem_append.1 hl with inside | behind
    · obtain ⟨l, -, rfl⟩ := List.mem_map.1 inside
      exact not_startsAtMargin_indented L.width_pos
    · exact not_startsAtMargin_of_blank (L.blank l behind)
  ends := L.ends

/-- No line of the document holds a line break. -/
theorem unbroken_lines (L : Layout) : ∀ l ∈ L.lines, '\n' ∉ l := by
  obtain ⟨around, others⟩ := List.forall_mem_cons.1 L.unbroken
  obtain ⟨before, others⟩ := List.forall_mem_append.1 others
  obtain ⟨body, others⟩ := List.forall_mem_append.1 others
  obtain ⟨blankEnd, after⟩ := List.forall_mem_append.1 others
  have header : '\n' ∉ L.header := by
    show '\n' ∉ "exhibit".toList ++ (L.gap ++ ':' :: (L.space ++ L.mark))
    simpa using around
  have inside : ∀ l ∈ L.body.map (indented L.width), '\n' ∉ l := by
    intro l hl
    obtain ⟨l, old, rfl⟩ := List.mem_map.1 hl
    simp [indented, body l old]
  exact List.forall_mem_append.2 ⟨before, List.forall_mem_cons.2 ⟨header,
    List.forall_mem_append.2 ⟨List.forall_mem_append.2 ⟨inside, blankEnd⟩, after⟩⟩⟩

end Layout

/-- **An exhibit that is written as a block is recovered exactly**, whatever its lines say, however
far in it stands, and whatever stands before it and after it. -/
theorem extract_layout (L : Layout) : extract L.text = some L.exhibit := by
  have split : Text.splitAt '\n' L.text.toList = L.lines := by
    rw [Layout.text, String.toList_ofList]
    exact splitAt_intercalate L.unbroken_lines (by simp [Layout.lines])
  have announced : announcesBlock (Text.trim (L.space ++ L.mark)) = true := by
    rw [announcesBlock_iff, trim_append L.space_blank]
    exact L.announces.trim
  have taken : ofLines L.lines = some (['\n'].intercalate L.body) := by
    rw [ofLines_site L.site, Layout.site, if_pos announced]
    exact ofBlock_indented L.flush L.last L.blank
  rw [extract, split, taken, Option.map_some, Layout.exhibit]

/-- A block between other fields. Its lines look like a key and like a comment, and the first one
does not start in the first column of the exhibit. -/
def quoted : Layout where
  before := ["arguments: [a]".toList]
  gap := ['\t']
  space := [' ']
  mark := "# as heard".toList
  width := 2
  body := ["  Ann:".toList, [], "exhibit: |".toList, "   # no".toList]
  blankEnd := [[' ']]
  after := ["attacks: []".toList, []]
  silent := by
    rw [List.forall_mem_singleton, ← header?_eq_none_iff]
    decide
  gap_blank := List.forall_mem_singleton.2 (by decide)
  space_blank := List.forall_mem_singleton.2 (by decide)
  announces := .inr (by decide)
  width_pos := by decide
  flush := ⟨"exhibit: |".toList, by decide, inBlock_eq_false_iff.1 (by decide)⟩
  last := by decide
  blank := by decide
  ends := by
    intro l hl
    cases hl
    exact inBlock_eq_false_iff.1 (by decide)
  unbroken := by decide

theorem quoted_recovered : extract quoted.text = some "  Ann:\n\nexhibit: |\n   # no" :=
  (extract_layout quoted).trans (by decide)

end Argumentation.Exhibit
