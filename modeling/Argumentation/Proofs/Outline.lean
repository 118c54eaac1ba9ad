import Argumentation.Proofs.Numeral
import Argumentation.Report.Page

/-!
# Argumentation.Proofs.Outline

The tags of a page. Everything that a page is put together from is either a piece of markup that is
the same for all documents, or words in which no tag can begin. So the tags can be told from the
numbers of what is shown (`Shape`), whatever the names, the ranks, the exhibit and the title are.

`Marked` relates a text to its tags piece by piece. It has one constructor for a character outside
all tags and one for a whole tag: a text that ends inside a tag is not marked, and so two marked
texts can be put next to each other (`Marked.append`).
-/

namespace Argumentation.Report

/-! ### Tags -/

/-- The tags of a text, where `started` holds the tag that is being read, its last character
first. -/
def tagsFrom : (started : Option (List Char)) → List Char → List String
  | _, [] => []
  | none, c :: cs => if c = '<' then tagsFrom (some ['<']) cs else tagsFrom none cs
  | some t, c :: cs =>
    if c = '>' then String.ofList ('>' :: t).reverse :: tagsFrom none cs
    else tagsFrom (some (c :: t)) cs

/-- The tags of a text: the parts from a `<` to the next `>`. -/
def tags (cs : List Char) : List String := tagsFrom none cs

variable {started : Option (List Char)} {t cs rest : List Char} {ts us : List String}

/-- Inside of a tag everything up to its end is taken over. -/
theorem tagsFrom_append (h : '>' ∉ t) (started : List Char) :
    tagsFrom (some started) (t ++ cs) = tagsFrom (some (t.reverse ++ started)) cs := by
  induction t generalizing started with
  | nil => rfl
  | cons c t ih =>
      simp only [List.mem_cons, not_or] at h
      rw [List.cons_append, tagsFrom, if_neg (Ne.symm h.1), ih h.2]
      simp

/-- A text whose tags are the given ones, and which ends outside of them. -/
inductive Marks : List String → List Char → Prop where
  | nil : Marks [] []
  | word {c : Char} {ts : List String} {cs : List Char} : c ≠ '<' → Marks ts cs →
    Marks ts (c :: cs)
  | tag {t : List Char} {ts : List String} {cs : List Char} : '<' ∉ t → '>' ∉ t → Marks ts cs →
    Marks (String.ofList ('<' :: (t ++ ['>'])) :: ts) ('<' :: (t ++ '>' :: cs))

namespace Marks

/-- The tags are found, whatever follows. -/
theorem tags_append (h : Marks ts cs) (rest : List Char) :
    tags (cs ++ rest) = ts ++ tags rest := by
  induction h with
  | nil => rfl
  | word other _ ih =>
      rw [List.cons_append, tags, tagsFrom, if_neg other]
      exact ih
  | @tag t ts cs _ ends _ ih =>
      rw [List.cons_append, List.append_assoc, tags, tagsFrom, if_pos rfl, tagsFrom_append ends,
        List.cons_append, tagsFrom, if_pos rfl, List.cons_append, ← ih]
      simp [tags]

theorem tags_eq (h : Marks ts cs) : tags cs = ts := by
  have found := h.tags_append []
  rwa [List.append_nil, tags, tags, tagsFrom, List.append_nil] at found

/-- Marked texts do not run into each other. -/
theorem append (h : Marks ts cs) (h' : Marks us rest) : Marks (ts ++ us) (cs ++ rest) := by
  induction h with
  | nil => exact h'
  | word other _ ih => exact .word other ih
  | tag starts ends _ ih =>
      rw [List.cons_append, List.cons_append, List.append_assoc, List.cons_append]
      exact .tag starts ends ih

/-- A text in which no tag begins has none. -/
theorem words (h : '<' ∉ cs) : Marks [] cs := by
  induction cs with
  | nil => exact .nil
  | cons c cs ih =>
      simp only [List.mem_cons, not_or] at h
      exact .word (Ne.symm h.1) (ih h.2)

end Marks

/-- The tags of a text that ends outside of them, if it does. -/
def marks? : (started : Option (List Char)) → List Char → Option (List String)
  | none, [] => some []
  | some _, [] => none
  | none, c :: cs => if c = '<' then marks? (some []) cs else marks? none cs
  | some t, c :: cs =>
    if c = '>' then (marks? none cs).map (String.ofList ('<' :: (t.reverse ++ ['>'])) :: ·)
    else if c = '<' then none
    else marks? (some (c :: t)) cs

/-- Either outside of tags, or inside of one of which `t` has been read. -/
theorem marks_of_marks? (h : marks? started cs = some ts) :
    match started with
    | none => Marks ts cs
    | some t => '<' ∉ t → '>' ∉ t → Marks ts ('<' :: (t.reverse ++ cs)) := by
  induction cs generalizing started ts with
  | nil =>
      cases started with
      | none =>
          cases h
          exact .nil
      | some t => cases h
  | cons c cs ih =>
      cases started with
      | none =>
          rw [marks?] at h
          by_cases starts : c = '<'
          · rw [if_pos starts] at h
            subst starts
            exact ih h (List.not_mem_nil) (List.not_mem_nil)
          · rw [if_neg starts] at h
            exact .word starts (ih h)
      | some t =>
          intro starts ends
          rw [marks?] at h
          by_cases closes : c = '>'
          · rw [if_pos closes] at h
            subst closes
            obtain ⟨us, found, rfl⟩ := Option.map_eq_some_iff.1 h
            exact .tag (by simpa using starts) (by simpa using ends) (ih found)
          · rw [if_neg closes] at h
            by_cases again : c = '<'
            · rw [if_pos again] at h
              cases h
            · rw [if_neg again] at h
              have marked := ih h (by simp [starts, Ne.symm again]) (by simp [ends, Ne.symm closes])
              simpa using marked

/-- The tags of a string that ends outside of them. -/
def Marked (ts : List String) (s : String) : Prop := Marks ts s.toList

namespace Marked

variable {a b s : String} {α : Type} {f : α → List String} {g : α → String}

theorem append (h : Marked ts a) (h' : Marked us b) : Marked (ts ++ us) (a ++ b) := by
  rw [Marked, String.toList_append]
  exact Marks.append h h'

/-- What holds no `<` holds no tag. -/
theorem words (h : '<' ∉ s.toList) : Marked [] s := Marks.words h

/-- The tags of a fixed piece of markup are computed. -/
theorem literal (h : marks? none cs = some ts) : Marked ts (String.ofList cs) := by
  rw [Marked, String.toList_ofList]
  exact marks_of_marks? h

/-- A hole between two pieces of markup is filled. -/
theorem fill {vs : List String} (h : Marked ts a) (h' : Marked us b)
    (behind : marks? none cs = some vs) : Marked (ts ++ us ++ vs) (a ++ b ++ String.ofList cs) :=
  (h.append h').append (.literal behind)

theorem of_eq (h : Marked ts s) (same : ts = us) : Marked us s := same ▸ h

theorem flatMap (h : ∀ x, Marks (f x) (g x).toList) (xs : List α) :
    Marks (xs.flatMap f) (xs.flatMap fun x => (g x).toList) := by
  induction xs with
  | nil => exact .nil
  | cons x xs ih => exact (h x).append ih

/-- Pieces that are joined have their tags one after the other. -/
theorem join (h : ∀ x, Marked (f x) (g x)) (xs : List α) :
    Marked (xs.flatMap f) (String.join (xs.map g)) := by
  rw [Marked, String.toList_join, List.flatMap_map]
  exact flatMap h xs

/-- What stands between the pieces makes no difference if no tag begins in it. -/
theorem intercalate (blank : '<' ∉ s.toList) (h : ∀ x, Marked (f x) (g x)) (xs : List α) :
    Marked (xs.flatMap f) (s.intercalate (xs.map g)) := by
  rw [Marked, String.toList_intercalate]
  induction xs with
  | nil => exact .nil
  | cons x xs ih =>
      cases xs with
      | nil =>
          rw [List.map_singleton, List.map_singleton, List.intercalate_singleton,
            List.flatMap_singleton]
          exact h x
      | cons y ys =>
          have joined := Marks.append (h x) ((Marks.words blank).append ih)
          simpa [List.intercalate_cons_cons] using joined

end Marked

/-! ### Words -/

/-- A `<` is written as an entity, and no entity has one. -/
theorem notMem_escapedChar (c : Char) : '<' ∉ Text.escapedChar c := by
  unfold Text.escapedChar
  split
  case h_6 other _ _ _ =>
    rw [List.mem_singleton]
    exact fun same => other same.symm
  all_goals decide

/-- No tag begins in a text of a document. -/
theorem notMem_escaped (s : String) : '<' ∉ (Text.escaped s).toList := by
  rw [Text.escaped, String.toList_ofList]
  intro h
  obtain ⟨c, -, hc⟩ := List.mem_flatMap.1 h
  exact notMem_escapedChar c hc

theorem notMem_append {c : Char} {a b : String} (ha : c ∉ a.toList) (hb : c ∉ b.toList) :
    c ∉ (a ++ b).toList := by
  rw [String.toList_append, List.mem_append]
  exact not_or.2 ⟨ha, hb⟩

theorem notMem_intercalate {c : Char} {s : String} {l : List String} (hs : c ∉ s.toList)
    (hl : ∀ x ∈ l, c ∉ x.toList) : c ∉ (s.intercalate l).toList := by
  rw [String.toList_intercalate]
  induction l with
  | nil => simp
  | cons x xs ih =>
      cases xs with
      | nil => simpa using hl
      | cons y ys =>
          have others := ih fun z hz => hl z (.tail _ hz)
          simpa [List.intercalate_cons_cons, hs, hl x (.head _)] using others

/-- The characters of a number. -/
theorem mem_toString_int {c : Char} {i : Int} (h : c ∈ (toString i).toList) :
    c = '-' ∨ Decimal.isDigit c = true := by
  rcases Json.toString_int_cases i with ⟨written, -⟩ | ⟨written, -⟩
  · rw [written] at h
    exact .inr (Decimal.isDigit_of_mem_digitsOf h)
  · rw [written] at h
    cases h with
    | head => exact .inl rfl
    | tail _ h => exact .inr (Decimal.isDigit_of_mem_digitsOf h)

theorem notMem_toString_int (i : Int) : '<' ∉ (toString i).toList :=
  fun h => absurd (mem_toString_int h) (by decide)

theorem notMem_toString_nat (n : Nat) : '<' ∉ (toString n).toList := notMem_toString_int n

theorem notMem_digitsOf (n : Nat) : '<' ∉ Decimal.digitsOf n :=
  fun h => absurd (Decimal.isDigit_of_mem_digitsOf h) (by decide)

theorem notMem_padded (width n : Nat) : '<' ∉ Decimal.padded width n := by
  simp [Decimal.padded, notMem_digitsOf]

/-- Digits, a point and an exponent are all that a number in a style is made of. -/
theorem notMem_positive (style : Decimal.Style) (d : Decimal.Scaled) : '<' ∉ style.positive d := by
  have digits := notMem_digitsOf d.digits
  have taken (n : Nat) : '<' ∉ (Decimal.digitsOf d.digits).take n :=
    fun h => digits (List.mem_of_mem_take h)
  have dropped (n : Nat) : '<' ∉ (Decimal.digitsOf d.digits).drop n :=
    fun h => digits (List.mem_of_mem_drop h)
  have behind : '<' ∉ (Decimal.digitsOf d.digits).tail := fun h => digits (List.mem_of_mem_tail h)
  simp only [Decimal.Style.positive]
  split_ifs <;> simp [digits, taken, dropped, behind, notMem_padded]

/-- No tag begins in what is written between the texts of a payload. -/
theorem notMem_writtenScalar {j : Json} (h : ∀ s, j ≠ .text s) :
    '<' ∉ (Json.writtenScalar j).toList := by
  cases j with
  | text s => exact absurd rfl (h s)
  | int i => exact notMem_toString_int i
  | bool b => cases b <;> decide
  | float x =>
      simp only [Json.writtenScalar, Decimal.Style.write]
      split_ifs
      · simp [Decimal.interchange]
      · simp [Decimal.interchange]
      · decide
      · split <;> simp [notMem_positive]
      · split <;> simp [notMem_positive]
  | null => decide
  | array items => exact (by decide : '<' ∉ "null".toList)
  | object fields => exact (by decide : '<' ∉ "null".toList)

theorem notMem_stamp (m : Moment) : '<' ∉ (stamp m).toList := by
  simp [stamp, Date.text, notMem_padded]

theorem notMem_rankHtml (ranks : Distances String) (name : String) :
    '<' ∉ (rankHtml ranks name).toList := by
  unfold rankHtml
  cases ranks.lookup name with
  | none => simp
  | some n => exact notMem_toString_nat n

/-- The names of an extension are escaped, and an empty one has a sign of its own. -/
theorem notMem_extensionHtml (members : List String) : '<' ∉ (extensionHtml members).toList := by
  have joined : '<' ∉ (", ".intercalate (members.map Text.escaped)).toList :=
    notMem_intercalate (by decide) (by simp [notMem_escaped])
  unfold extensionHtml
  split
  · decide
  · simpa using joined

theorem notMem_attacksHtml (attacks : List Attack) : '<' ∉ (attacksHtml attacks).toList := by
  unfold attacksHtml
  split
  · decide
  · exact notMem_intercalate (by decide) (by simp [attackHtml, notMem_escaped])

theorem notMem_exhibitHtml (exhibit : Option String) : '<' ∉ (exhibitHtml exhibit).toList :=
  notMem_escaped _

/-! ### Outlines -/

/-- The numbers of what a section shows. -/
structure Shape where
  step : Int
  arguments : Nat
  /-- The sizes of the six families. -/
  families : List Nat
  deriving DecidableEq, Repr

/-- The numbers of what is shown of a stage. -/
def shape (s : Stage) : Shape :=
  ⟨s.step, s.framework.arguments.length, Semantics.all.map fun k => (s.extensions.get k).length⟩

/-- The tags of the row of a family. -/
def familyTags (size : Nat) : List String :=
  ["<tr>", "<th>", "</th>", "<td>"] ++
    (if size = 0 then ["<span class=\"none\">", "</span>"]
      else (List.replicate size ["<span class=\"ext\">", "</span>"]).flatten) ++ ["</td>", "</tr>"]

/-- The tags of the row of an argument. -/
def rankTags : List String := ["<tr>", "<td>", "</td>", "<td>", "</td>", "<td>", "</td>", "</tr>"]

/-- The start tag of the section of a step. -/
def sectionTag (step : Int) : String :=
  "<section class=\"step\" id=\"step-" ++ toString step ++ "\">"

/-- The tags of a section. -/
def Shape.tags (s : Shape) : List String :=
  sectionTag s.step :: ["<h2>", "</h2>", "<p>", "<strong>", "</strong>", "</p>", "<p>", "<strong>",
    "</strong>", "</p>", "<table class=\"families\">"] ++
  s.families.flatMap familyTags ++
  ["</table>", "<table class=\"ranks\">", "<tr>", "<th>", "</th>", "<th>", "</th>", "<th>", "</th>",
    "</tr>"] ++
  (List.replicate s.arguments rankTags).flatten ++ ["</table>", "</section>"]

/-- The tags of a page down to its payload. -/
def frontTags (shapes : List Shape) : List String :=
  ["<!DOCTYPE html>", "<html lang=\"en\">", "<head>", "<meta charset=\"UTF-8\">",
    "<meta name=\"viewport\" content=\"width=device-width, initial-scale=1.0\">", "<title>",
    "</title>", "<style>", "</style>", "</head>", "<body>", "<h1>", "</h1>", "<p class=\"meta\">",
    "</p>", "<h2>", "</h2>", "<pre class=\"exhibit\">", "</pre>"] ++ shapes.flatMap Shape.tags

/-- A family shows one tag for each extension, or one for having none. -/
theorem marked_familyHtml (family : List (List String)) :
    Marked (if family.length = 0 then ["<span class=\"none\">", "</span>"]
      else (List.replicate family.length ["<span class=\"ext\">", "</span>"]).flatten)
      (familyHtml family) := by
  cases family with
  | nil => exact .literal rfl
  | cons e es =>
      have extension : ∀ e, Marked ["<span class=\"ext\">", "</span>"]
          ("<span class=\"ext\">" ++ extensionHtml e ++ "</span>") := fun e =>
        .of_eq ((Marked.literal rfl).fill (.words (notMem_extensionHtml e)) rfl) rfl
      have joined := Marked.intercalate (s := " ") (by decide) extension (e :: es)
      rw [List.flatMap_def, List.map_const'] at joined
      exact joined

theorem marked_familyRow (f : Families) (s : Semantics) :
    Marked (familyTags (f.get s).length) (familyRow f s) := by
  have title : '<' ∉ (familyTitle s).toList := by cases s <;> decide
  unfold familyRow
  exact .of_eq
    (((Marked.literal rfl).fill (.words title) rfl).fill (marked_familyHtml (f.get s)) rfl) rfl

/-- The row of an argument has the same tags whatever its ranks are. -/
theorem marked_rankRow (s : Stage) (name : String) : Marked rankTags (rankRow s name) := by
  unfold rankRow
  exact .of_eq ((((Marked.literal rfl).fill (.words (notMem_escaped name)) rfl).fill
    (.words (notMem_rankHtml s.rankTop name)) rfl).fill
    (.words (notMem_rankHtml s.rankBottom name)) rfl) rfl

/-- The start tag of a section does not end before the step, which is part of it. -/
theorem marked_sectionStart (i : Int) :
    Marked [sectionTag i, "<h2>"]
      ("\n    <section class=\"step\" id=\"step-" ++ toString i ++ "\">\n        <h2>Step ") := by
  have starts :
      '<' ∉ "section class=\"step\" id=\"step-".toList ++ (toString i).toList ++ ['"'] := by
    simpa using notMem_toString_int i
  have ends :
      '>' ∉ "section class=\"step\" id=\"step-".toList ++ (toString i).toList ++ ['"'] := by
    have digits : '>' ∉ (toString i).toList := fun h => absurd (mem_toString_int h) (by decide)
    simpa using digits
  have heading : Marked ["<h2>"] "\n        <h2>Step " := .literal rfl
  have tag : String.ofList ('<' :: ("section class=\"step\" id=\"step-".toList ++
      (toString i).toList ++ ['"'] ++ ['>'])) = sectionTag i := by
    unfold sectionTag
    rw [← String.toList_inj]
    simp
  have margin : Marks [] "\n    ".toList := .words (by decide)
  have start := margin.append (.tag starts ends heading)
  refine .of_eq ?_ (congrArg (· :: ["<h2>"]) tag)
  simpa [Marked] using start

set_option maxRecDepth 2000 in
/-- The tags of a section are those of its shape. -/
theorem marked_sectionHtml (s : Stage) : Marked (shape s).tags (sectionHtml s) := by
  have arguments : '<' ∉ (", ".intercalate (s.framework.arguments.map Text.escaped)).toList :=
    notMem_intercalate (by decide) (by simp [notMem_escaped])
  have families := Marked.intercalate (s := "\n") (by decide) (marked_familyRow s.extensions)
    Semantics.all
  have ranks := Marked.intercalate (s := "\n") (by decide) (marked_rankRow s) s.framework.arguments
  rw [List.flatMap_def, List.map_const'] at ranks
  unfold sectionHtml
  refine .of_eq ((((((marked_sectionStart s.step).fill
    (.words (notMem_toString_int s.step)) rfl).fill (.words arguments) rfl).fill
    (.words (notMem_attacksHtml s.framework.attacks)) rfl).fill
    families rfl).append (.literal rfl) |>.fill ranks rfl) ?_
  simp [Shape.tags, shape, List.flatMap_map]

theorem notMem_styleSheet : '<' ∉ styleSheet.toList := by
  have literal : ∀ {cs : List Char}, '<' ∉ cs → '<' ∉ (String.ofList cs).toList := fun h => by
    rwa [String.toList_ofList]
  unfold styleSheet
  repeat refine notMem_append ?_ (literal (by decide))
  exact literal (by decide)

set_option maxRecDepth 2000 in
/-- The tags of a page down to its payload are those of the shapes of its stages. -/
theorem marked_pageFront (d : Document) (stages : List Stage) (exhibit : Option String)
    (title : String) (m : Moment) :
    Marked (frontTags (stages.map shape)) (pageFront d stages exhibit title (stamp m)) := by
  have heading : '<' ∉ (Text.escaped title).toList := notMem_escaped title
  have sections := Marked.join marked_sectionHtml stages
  unfold pageFront
  refine .of_eq (((((((((Marked.literal rfl).append (.literal rfl)).fill (.words heading) rfl).fill
    (.words notMem_styleSheet) rfl).fill (.words heading) rfl).fill
    (.words (notMem_stamp m)) rfl).fill (.words (notMem_toString_nat _)) rfl).fill
    (.words (notMem_exhibitHtml _)) rfl).fill
    sections rfl) ?_
  simp [frontTags, List.flatMap_map]

set_option maxRecDepth 2000 in
theorem marked_payloadStart : Marked [payloadStart] payloadStart := by
  unfold payloadStart
  exact .literal rfl

theorem marked_pageBack : Marked ["</script>", "</body>", "</html>"] pageBack := by
  unfold pageBack
  exact .literal rfl

end Argumentation.Report
