import Argumentation.Proofs.Numeral
import Argumentation.Proofs.Quotation
import Mathlib.Data.List.Nodup

/-!
# Argumentation.Proofs.Transcript

What is written as JSON is read back. `spelled` is the text of a value on one line, with the
spelling of its texts left open; the writer has one spelling (`toList_write`), and others may take
its place as long as each stands for the text it spells. Reading gives the value back from any of
them (`read_spelled`), if its numbers are whole and not too long and no object has a name twice
(`Faithful`).

The reader counts its steps down from the length of the text. A collection takes one step to open it
and one for each member, which the brackets and the commas pay for.
-/

namespace Argumentation.Json

open Decimal

/-! ### Spelled values -/

/-- The members of a collection with commas between them. -/
def commaed (members : List (List Char)) : List Char := [',', ' '].intercalate members

@[simp] theorem commaed_singleton (m : List Char) : commaed [m] = m := List.intercalate_singleton

@[simp] theorem commaed_cons_cons (m n : List Char) (ms : List (List Char)) :
    commaed (m :: n :: ms) = m ++ ',' :: ' ' :: commaed (n :: ms) := by
  simp [commaed, List.intercalate_cons_cons]

theorem exists_commaed (m : List Char) (ms : List (List Char)) :
    ∃ back, commaed (m :: ms) = m ++ back := by
  cases ms with
  | nil => exact ⟨[], by simp⟩
  | cons n ms => exact ⟨_, commaed_cons_cons m n ms⟩

/-- A field with its name and value spelled. -/
def fielded (name value : List Char) : List Char := '"' :: (name ++ '"' :: ':' :: ' ' :: value)

mutual

/-- The value on one line, with `spell` for what stands between quotes. -/
def spelled (spell : String → List Char) : Json → List Char
  | .array items => '[' :: (commaed (spelledAll spell items) ++ [']'])
  | .object fields => '\x7b' :: (commaed (spelledFields spell fields) ++ ['\x7d'])
  | .text s => '"' :: (spell s ++ ['"'])
  | j => (writtenScalar j).toList

/-- The members of an array, each on one line. -/
def spelledAll (spell : String → List Char) : List Json → List (List Char)
  | [] => []
  | j :: js => spelled spell j :: spelledAll spell js

/-- The fields of an object, each on one line. -/
def spelledFields (spell : String → List Char) : List (String × Json) → List (List Char)
  | [] => []
  | (name, j) :: fs =>
    fielded (spell name) (spelled spell j) :: spelledFields spell fs

end

/-- The spelling of the writer. -/
def plainly (s : String) : List Char := s.toList.flatMap writtenChar

theorem toList_writtenText (s : String) : (writtenText s).toList = '"' :: (plainly s ++ ['"']) := by
  rw [writtenText, String.toList_ofList, plainly]

mutual

theorem toList_write : ∀ j : Json, (write j).toList = spelled plainly j
  | .array items => by
      simp [write, spelled, commaed, String.toList_intercalate, toList_writeAll items]
  | .object fields => by
      simp [write, spelled, commaed, String.toList_intercalate, toList_writeFields fields]
  | .text s => by simp [write, spelled, writtenScalar, toList_writtenText]
  | .null => rfl
  | .bool _ => rfl
  | .int _ => rfl
  | .float _ => rfl

theorem toList_writeAll : ∀ js : List Json,
    (writeAll js).map String.toList = spelledAll plainly js
  | [] => rfl
  | j :: js => by simp [writeAll, spelledAll, toList_write j, toList_writeAll js]

theorem toList_writeFields : ∀ fs : List (String × Json),
    (writeFields fs).map String.toList = spelledFields plainly fs
  | [] => rfl
  | (name, j) :: fs => by
      simp [writeFields, spelledFields, fielded, toList_writtenText, toList_write j,
        toList_writeFields fs]

end

/-! ### Values that are read back -/

mutual

/-- Numbers are whole and not too long, and no object has a name twice. -/
def Faithful : Json → Prop
  | .int i => isWritableInt i = true
  | .float _ => False
  | .array items => AllFaithful items
  | .object fields => (fields.map (·.1)).Nodup ∧ FieldsFaithful fields
  | _ => True

/-- All members of an array are faithful. -/
def AllFaithful : List Json → Prop
  | [] => True
  | j :: js => Faithful j ∧ AllFaithful js

/-- The values of all fields of an object are faithful. -/
def FieldsFaithful : List (String × Json) → Prop
  | [] => True
  | (_, j) :: fs => Faithful j ∧ FieldsFaithful fs

end

@[simp] theorem faithful_array {items : List Json} :
    Faithful (.array items) ↔ AllFaithful items := by
  rw [Faithful]

@[simp] theorem faithful_object {fields : List (String × Json)} :
    Faithful (.object fields) ↔ (fields.map (·.1)).Nodup ∧ FieldsFaithful fields := by
  rw [Faithful]

@[simp] theorem allFaithful_cons {j : Json} {js : List Json} :
    AllFaithful (j :: js) ↔ Faithful j ∧ AllFaithful js := by
  rw [AllFaithful]

@[simp] theorem fieldsFaithful_cons {f : String × Json} {fs : List (String × Json)} :
    FieldsFaithful (f :: fs) ↔ Faithful f.2 ∧ FieldsFaithful fs := by
  rw [FieldsFaithful]

theorem allFaithful_iff {js : List Json} : AllFaithful js ↔ ∀ j ∈ js, Faithful j := by
  induction js with
  | nil => simp [AllFaithful]
  | cons j js ih => simp [ih]

theorem fieldsFaithful_iff {fs : List (String × Json)} :
    FieldsFaithful fs ↔ ∀ f ∈ fs, Faithful f.2 := by
  induction fs with
  | nil => simp [FieldsFaithful]
  | cons f fs ih => simp [ih]

theorem setField_of_notMem {name : String} {j : Json} {fields : List (String × Json)}
    (new : name ∉ fields.map (·.1)) : setField name j fields = fields ++ [(name, j)] := by
  induction fields with
  | nil => rfl
  | cons f fs ih =>
      simp only [List.map_cons, List.mem_cons, not_or] at new
      rw [setField, if_neg (Ne.symm new.1), ih new.2]
      rfl

variable {spell : String → List Char} {rest : List Char} {room fuel : Nat}

/-- The first character of a number. -/
theorem exists_toString_int (i : Int) :
    ∃ c cs, (toString i).toList = c :: cs ∧ (c = '-' ∨ isDigit c = true) := by
  rcases toString_int_cases i with ⟨written, -⟩ | ⟨written, -⟩
  · obtain ⟨d, ds, same⟩ : ∃ d ds, digitsOf i.natAbs = d :: ds :=
      List.exists_cons_of_ne_nil Nat.toDigits_ne_nil
    have digit : isDigit d = true := isDigit_of_mem_digitsOf (by rw [same]; exact .head _)
    exact ⟨d, ds, by rw [written, same], .inr digit⟩
  · exact ⟨'-', _, written, .inl rfl⟩

theorem ne_of_isDigit {c : Char} (h : c = '-' ∨ isDigit c = true) (d : Char) (other : d ≠ '-')
    (hd : isDigit d = false) : c ≠ d := by
  rintro rfl
  rcases h with rfl | h
  · exact other rfl
  · rw [h] at hd
    exact Bool.noConfusion hd

/-- A value starts with a mark that is not space and closes nothing. -/
theorem exists_spelled (spell : String → List Char) {j : Json} (h : Faithful j) :
    ∃ c cs, spelled spell j = c :: cs ∧ isSpace c = false ∧ c ≠ ']' := by
  cases j with
  | null => exact ⟨'n', _, rfl, rfl, by decide⟩
  | bool b =>
      cases b with
      | false => exact ⟨'f', _, rfl, rfl, by decide⟩
      | true => exact ⟨'t', _, rfl, rfl, by decide⟩
  | int i =>
      obtain ⟨c, cs, same, first⟩ := exists_toString_int i
      have other := ne_of_isDigit first
      refine ⟨c, cs, same, ?_, other ']' (by decide) rfl⟩
      simp [isSpace, other ' ' (by decide) rfl, other '\t' (by decide) rfl,
        other '\n' (by decide) rfl, other '\r' (by decide) rfl]
  | float x => exact absurd h (by simp [Faithful])
  | text s => exact ⟨'"', _, rfl, rfl, by decide⟩
  | array items => exact ⟨'[', _, rfl, rfl, by decide⟩
  | object fields => exact ⟨'\x7b', _, rfl, rfl, by decide⟩

theorem readValue_scalar {c : Char} {cs : List Char} (quote : c ≠ '"') (bracket : c ≠ '[')
    (brace : c ≠ '\x7b') : readValue room (fuel + 1) (c :: cs) = readScalar (c :: cs) := by
  rw [readValue.eq_def]
  split <;> simp_all

/-- A number is read back as a value. -/
theorem readValue_int {i : Int} (h : isWritableInt i = true) (ends : Follows rest) :
    readValue room (fuel + 1) ((toString i).toList ++ rest) = .ok (.int i, rest) := by
  have read := readScalar_int ends h
  obtain ⟨c, cs, same, first⟩ := exists_toString_int i
  rw [same] at read ⊢
  have other := ne_of_isDigit first
  rw [List.cons_append, readValue_scalar (other _ (by decide) rfl) (other _ (by decide) rfl)
    (other _ (by decide) rfl)]
  exact read

theorem readValue_text {s : String} (spells : Spells s.toList (spell s))
    (enough : (spelled spell (.text s)).length ≤ fuel) :
    readValue room fuel (spelled spell (.text s) ++ rest) = .ok (.text s, rest) := by
  simp only [spelled, List.length_cons, List.length_append, List.length_nil] at enough
  obtain ⟨steps, rfl⟩ : ∃ steps, fuel = steps + 1 :=
    Nat.exists_eq_add_one_of_ne_zero (by omega)
  have found : readText ('"' :: (spell s ++ '"' :: rest)) steps [] (spell s ++ '"' :: rest) =
      .ok (s, rest) := by
    rw [readText_spells spells (by omega), List.reverse_nil, List.nil_append, String.ofList_toList]
  simp [spelled, readValue, found, Except.map]

theorem follows_cons {c : Char} (h : c = ',' ∨ c = ']' ∨ c = '\x7d') (rest : List Char) :
    Follows (c :: rest) := by
  intro d hd
  cases hd
  exact h

/-- Reading a value takes a step. -/
theorem exists_steps {j : Json} (h : Faithful j) (enough : (spelled spell j).length ≤ fuel) :
    ∃ steps, fuel = steps + 1 := by
  obtain ⟨c, cs, same, -⟩ := exists_spelled spell h
  rw [same, List.length_cons] at enough
  exact Nat.exists_eq_add_one_of_ne_zero (by omega)

/-! ### Collections -/

/-- The value is read up to what follows it, in as many steps as its text is long. -/
def Reads (spell : String → List Char) (j : Json) : Prop :=
  ∀ room fuel rest, Follows rest → (spelled spell j).length ≤ room →
    (spelled spell j).length ≤ fuel →
    readValue room fuel (spelled spell j ++ rest) = .ok (j, rest)

/-- Behind the opening bracket the first member is read. -/
theorem readValue_bracket {j : Json} {js : List Json} (h : Faithful j) :
    readValue (room + 1) (fuel + 1) (spelled spell (.array (j :: js)) ++ rest) =
      readItems room fuel [] (commaed (spelledAll spell (j :: js)) ++ ']' :: rest) := by
  obtain ⟨c, cs, same, blank, other⟩ := exists_spelled spell h
  obtain ⟨back, more⟩ := exists_commaed (spelled spell j) (spelledAll spell js)
  rw [spelled, spelledAll, more, same]
  simp [readValue, skipSpace, blank, other]

/-- Behind a comma the next member is read. -/
theorem skipSpace_items {j : Json} (h : Faithful j) (js : List Json) (rest : List Char) :
    skipSpace (' ' :: (commaed (spelledAll spell (j :: js)) ++ rest)) =
      commaed (spelledAll spell (j :: js)) ++ rest := by
  obtain ⟨c, cs, same, blank, -⟩ := exists_spelled spell h
  obtain ⟨back, more⟩ := exists_commaed (spelled spell j) (spelledAll spell js)
  rw [spelledAll, more, same]
  simp [skipSpace, blank, show isSpace ' ' = true from rfl]

/-- The members of an array are read up to its closing bracket. -/
theorem readItems_spelled {js : List Json} : ∀ {j : Json} {fuel : Nat} (read : List Json),
    (∀ k ∈ j :: js, Faithful k ∧ Reads spell k) →
    (commaed (spelledAll spell (j :: js))).length ≤ room →
    (commaed (spelledAll spell (j :: js))).length < fuel →
    readItems room fuel read (commaed (spelledAll spell (j :: js)) ++ ']' :: rest) =
      .ok (.array (read.reverse ++ j :: js), rest) := by
  induction js with
  | nil =>
      intro j fuel read members small enough
      cases fuel with
      | zero => exact absurd enough (Nat.not_lt_zero _)
      | succ fuel =>
          simp only [spelledAll, commaed_singleton] at small enough ⊢
          have value := (members j (.head _)).2 room fuel (']' :: rest)
            (follows_cons (.inr (.inl rfl)) rest) small (Nat.le_of_lt_succ enough)
          simp [readItems, value, skipSpace]
          rfl
  | cons k ks ih =>
      intro j fuel read members small enough
      cases fuel with
      | zero => exact absurd enough (Nat.not_lt_zero _)
      | succ fuel =>
          have split : commaed (spelledAll spell (j :: k :: ks)) =
              spelled spell j ++ ',' :: ' ' :: commaed (spelledAll spell (k :: ks)) :=
            commaed_cons_cons _ _ _
          rw [split, List.length_append, List.length_cons, List.length_cons] at small enough
          have members' := fun i hi => members i (.tail _ hi)
          have value := (members j (.head _)).2 room fuel
            (',' :: ' ' :: (commaed (spelledAll spell (k :: ks)) ++ ']' :: rest))
            (follows_cons (.inl rfl) _) (by omega) (by omega)
          have next :
              skipSpace (' ' :: (commaed (spelledAll spell (k :: ks)) ++ ']' :: rest)) = _ :=
            skipSpace_items (members' k (.head _)).1 ks (']' :: rest)
          have items := ih (j :: read) members' (by omega) (by omega : _ < fuel)
          rw [split, List.append_assoc, List.cons_append, List.cons_append, readItems, value]
          simp only [List.reverse_cons, List.append_assoc, List.singleton_append] at items
          exact (congrArg (readItems room fuel (j :: read)) next).trans items

/-- Behind the opening brace the first name is read. -/
theorem readValue_brace {f : String × Json} {fs : List (String × Json)} :
    readValue (room + 1) (fuel + 1) (spelled spell (.object (f :: fs)) ++ rest) =
      readFields room fuel [] (commaed (spelledFields spell (f :: fs)) ++ '\x7d' :: rest) := by
  obtain ⟨back, more⟩ := exists_commaed (fielded (spell f.1) (spelled spell f.2))
    (spelledFields spell fs)
  rw [spelled, spelledFields, more]
  simp [fielded, readValue, skipSpace, isSpace]

/-- Behind a comma the next name is read. -/
theorem skipSpace_fields (f : String × Json) (fs : List (String × Json)) (rest : List Char) :
    skipSpace (' ' :: (commaed (spelledFields spell (f :: fs)) ++ rest)) =
      commaed (spelledFields spell (f :: fs)) ++ rest := by
  obtain ⟨back, more⟩ := exists_commaed (fielded (spell f.1) (spelled spell f.2))
    (spelledFields spell fs)
  rw [spelledFields, more]
  simp [fielded, skipSpace, isSpace]

/-- Behind the colon of a field its value is read. -/
theorem skipSpace_value {j : Json} (h : Faithful j) (rest : List Char) :
    skipSpace (' ' :: (spelled spell j ++ rest)) = spelled spell j ++ rest := by
  obtain ⟨c, cs, same, blank, -⟩ := exists_spelled spell h
  rw [same]
  simp [skipSpace, blank, show isSpace ' ' = true from rfl]

theorem setField_of_nodup {read : List (String × Json)} {name : String} {j : Json}
    {fs : List (String × Json)} (h : ((read ++ (name, j) :: fs).map (·.1)).Nodup) :
    setField name j read = read ++ [(name, j)] := by
  refine setField_of_notMem fun old => ?_
  rw [List.map_append, List.map_cons] at h
  exact List.disjoint_of_nodup_append h old (.head _)

/-- One field is read, and what follows it decides how reading goes on. -/
theorem readFields_fielded {name : String} {j : Json} {read : List (String × Json)}
    (spells : Spells name.toList (spell name)) (h : Faithful j) (value : Reads spell j)
    (ends : Follows rest) (small : (fielded (spell name) (spelled spell j)).length ≤ room)
    (enough : (fielded (spell name) (spelled spell j)).length ≤ fuel) :
    readFields room (fuel + 1) read (fielded (spell name) (spelled spell j) ++ rest) =
      match skipSpace rest with
      | '\x7d' :: more => .ok (.object (setField name j read), more)
      | ',' :: more => readFields room fuel (setField name j read) (skipSpace more)
      | rest => .error ⟨.comma, rest.length⟩ := by
  simp only [fielded, List.length_cons, List.length_append] at small enough
  have text : readText (fielded (spell name) (spelled spell j) ++ rest) fuel []
      (spell name ++ '"' :: (':' :: ' ' :: (spelled spell j ++ rest))) =
      .ok (name, ':' :: ' ' :: (spelled spell j ++ rest)) := by
    rw [readText_spells spells (by omega), List.reverse_nil, List.nil_append, String.ofList_toList]
  have found : readValue room fuel (skipSpace (' ' :: (spelled spell j ++ rest))) = .ok (j, rest) :=
    by rw [skipSpace_value h, value room fuel rest ends (by omega) (by omega)]
  have colon : skipSpace (':' :: ' ' :: (spelled spell j ++ rest)) = ':' :: _ := rfl
  simp only [fielded, List.cons_append, List.append_assoc] at text ⊢
  simp only [readFields, text, colon, found, bind, Except.bind]
  rfl

/-- The fields of an object are read up to its closing brace. -/
theorem readFields_spelled (spells : ∀ s, Spells s.toList (spell s))
    {fs : List (String × Json)} : ∀ {f : String × Json} {fuel : Nat} (read : List (String × Json)),
    ((read ++ f :: fs).map (·.1)).Nodup → (∀ g ∈ f :: fs, Faithful g.2 ∧ Reads spell g.2) →
    (commaed (spelledFields spell (f :: fs))).length ≤ room →
    (commaed (spelledFields spell (f :: fs))).length < fuel →
    readFields room fuel read (commaed (spelledFields spell (f :: fs)) ++ '\x7d' :: rest) =
      .ok (.object (read ++ f :: fs), rest) := by
  induction fs with
  | nil =>
      intro f fuel read names members small enough
      obtain ⟨faithful, value⟩ := members f (.head _)
      cases fuel with
      | zero => exact absurd enough (Nat.not_lt_zero _)
      | succ fuel =>
          simp only [spelledFields, commaed_singleton] at small enough ⊢
          rw [readFields_fielded (spells f.1) faithful value (follows_cons (.inr (.inr rfl)) rest)
            small (Nat.le_of_lt_succ enough), setField_of_nodup names]
          simp [skipSpace, isSpace]
  | cons g gs ih =>
      intro f fuel read names members small enough
      obtain ⟨faithful, value⟩ := members f (.head _)
      cases fuel with
      | zero => exact absurd enough (Nat.not_lt_zero _)
      | succ fuel =>
          have split : commaed (spelledFields spell (f :: g :: gs)) =
              fielded (spell f.1) (spelled spell f.2) ++
                ',' :: ' ' :: commaed (spelledFields spell (g :: gs)) :=
            commaed_cons_cons _ _ _
          rw [split, List.length_append, List.length_cons, List.length_cons] at small enough
          have fields := ih (read ++ [f]) (by simpa using names)
            (fun h hh => members h (.tail _ hh)) (by omega) (by omega : _ < fuel)
          have next :
              skipSpace (' ' :: (commaed (spelledFields spell (g :: gs)) ++ '\x7d' :: rest)) = _ :=
            skipSpace_fields g gs ('\x7d' :: rest)
          rw [split, List.append_assoc, List.cons_append, List.cons_append,
            readFields_fielded (spells f.1) faithful value (follows_cons (.inl rfl) _) (by omega)
              (by omega), setField_of_nodup names]
          simp only [List.append_assoc, List.singleton_append] at fields
          exact (congrArg (readFields room fuel (read ++ [f])) next).trans fields

/-! ### Whole texts -/

mutual

/-- Every value is read up to what follows it. -/
theorem reads_of_faithful (spells : ∀ s, Spells s.toList (spell s)) :
    ∀ j : Json, Faithful j → Reads spell j
  | .null, faithful, _, _, _, _, _, enough => by
      obtain ⟨fuel, rfl⟩ := exists_steps faithful enough
      rfl
  | .bool false, faithful, _, _, _, _, _, enough => by
      obtain ⟨fuel, rfl⟩ := exists_steps faithful enough
      rfl
  | .bool true, faithful, _, _, _, _, _, enough => by
      obtain ⟨fuel, rfl⟩ := exists_steps faithful enough
      rfl
  | .int i, faithful, _, _, _, ends, _, enough => by
      obtain ⟨fuel, rfl⟩ := exists_steps faithful enough
      exact readValue_int faithful ends
  | .float _, faithful, _, _, _, _, _, _ => faithful.elim
  | .text s, _, _, _, _, _, _, enough => readValue_text (spells s) enough
  | .array [], faithful, _, _, _, _, small, enough => by
      obtain ⟨fuel, rfl⟩ := exists_steps faithful enough
      obtain ⟨room, rfl⟩ := exists_steps faithful small
      rfl
  | .array (j :: js), faithful, _, _, rest, _, small, enough => by
      obtain ⟨fuel, rfl⟩ := exists_steps faithful enough
      obtain ⟨room, rfl⟩ := exists_steps faithful small
      have members := readsAll_of_faithful spells (j :: js) (faithful_array.1 faithful)
      simp only [spelled, List.length_cons, List.length_append, List.length_nil] at small enough
      rw [readValue_bracket (members j (.head _)).1,
        readItems_spelled [] members (by omega) (by omega), List.reverse_nil, List.nil_append]
  | .object [], faithful, _, _, _, _, small, enough => by
      obtain ⟨fuel, rfl⟩ := exists_steps faithful enough
      obtain ⟨room, rfl⟩ := exists_steps faithful small
      rfl
  | .object (f :: fs), faithful, _, _, _, _, small, enough => by
      obtain ⟨fuel, rfl⟩ := exists_steps faithful enough
      obtain ⟨room, rfl⟩ := exists_steps faithful small
      obtain ⟨names, values⟩ := faithful_object.1 faithful
      have members := readsFields_of_faithful spells (f :: fs) values
      simp only [spelled, List.length_cons, List.length_append, List.length_nil] at small enough
      rw [readValue_brace, readFields_spelled spells [] names members (by omega) (by omega),
        List.nil_append]

theorem readsAll_of_faithful (spells : ∀ s, Spells s.toList (spell s)) :
    ∀ js : List Json, AllFaithful js → ∀ j ∈ js, Faithful j ∧ Reads spell j
  | [], _, j, hj => absurd hj (List.not_mem_nil)
  | k :: ks, faithful, j, hj => by
      obtain ⟨first, others⟩ := allFaithful_cons.1 faithful
      cases hj with
      | head => exact ⟨first, reads_of_faithful spells k first⟩
      | tail _ hj => exact readsAll_of_faithful spells ks others j hj

theorem readsFields_of_faithful (spells : ∀ s, Spells s.toList (spell s)) :
    ∀ fs : List (String × Json), FieldsFaithful fs → ∀ f ∈ fs, Faithful f.2 ∧ Reads spell f.2
  | [], _, f, hf => absurd hf (List.not_mem_nil)
  | (name, j) :: gs, faithful, f, hf => by
      obtain ⟨first, others⟩ := fieldsFaithful_cons.1 faithful
      cases hf with
      | head => exact ⟨first, reads_of_faithful spells j first⟩
      | tail _ hf => exact readsFields_of_faithful spells gs others f hf

end

/-- A whole text is read as the value it spells. -/
theorem read_spelled (spells : ∀ s, Spells s.toList (spell s)) {j : Json} (h : Faithful j) :
    read (String.ofList (spelled spell j)) = .ok j := by
  have value := reads_of_faithful spells j h (spelled spell j).length
    ((spelled spell j).length + 1) [] (fun _ h => nomatch h) (Nat.le_refl _) (Nat.le_succ _)
  obtain ⟨c, cs, same, blank, -⟩ := exists_spelled spell h
  have start : skipSpace (spelled spell j) = spelled spell j := by
    rw [same]
    simp [skipSpace, blank]
  rw [List.append_nil] at value
  rw [read, String.length_ofList, String.toList_ofList, readChars, start, value]
  rfl

end Argumentation.Json
