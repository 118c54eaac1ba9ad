import Argumentation.Loading
import Argumentation.Proofs.Spelling

/-!
# Argumentation.Proofs.Intake

What comes of a text that is loaded, whatever reads it. It is a document that declares at least one
argument, or the text is rejected as a document or as a framework; and these are all the answers
that are meant for it. `Document.Escapes` says when there is another one: the reader gives up a text
that keeps to the rules of the format, or the fields of the document hold collections that lie too
deep inside each other. There are such texts (`impossibleDate`): a scalar that is spelled as a date
and is none keeps to the rules.
-/

namespace Argumentation

/-- The failure rejects what was handed over as a document or as a framework. -/
def Failure.Rejects (f : Failure) : Prop :=
  ∃ message, f = .rejection (.invalidDocument message) ∨ f = .rejection (.invalidFramework message)

namespace Document

variable {d : Document} {v : Value} {text : String} {limit : Int} {reader : Markup.Reader}

/-- The value has arguments, and they are not empty. -/
def Declares (v : Value) : Prop :=
  ∃ arguments, v.field? "arguments" = some arguments ∧ arguments.truthy = true

/-- The text is as long as a text may be that is read. -/
def Short (text : String) (limit : Int) : Prop := (text.toList.length : Int) ≤ limit

/-- Why a text neither gives a document nor is rejected. -/
inductive Escapes (reader : Markup.Reader) (text : String) (limit : Int) : Failure → Prop where
  /-- The text keeps to the rules of the format and still cannot be read. -/
  | unread {fault : Markup.Fault} (short : Short text limit)
      (unread : reader text.toList = .error fault) (kept : fault ≠ .malformed) :
      Escapes reader text limit (.scalar fault)
  /-- The check of the fields is given up at collections that lie too deep inside each other. -/
  | unchecked {v : Value} {issues : List Issue} (short : Short text limit)
      (read : reader text.toList = .ok v) (declares : Declares v)
      (checked : check v = .error issues) (deep : ∃ i ∈ issues, i.kind = .nesting) :
      Escapes reader text limit .tooDeep

/-- What comes of a text that is loaded. -/
structure Loads (reader : Markup.Reader) (text : String) (limit : Int) : Prop where
  /-- The exhibit is taken from the text where it has one. -/
  document : ∀ d, loadBy reader text limit = .ok d ↔ Short text limit ∧
    ∃ v d', reader text.toList = .ok v ∧ Declares v ∧ check v = .ok d' ∧
      d = d'.withExhibit (Exhibit.extract text)
  declares : ∀ d, loadBy reader text limit = .ok d → d.declarations ≠ []
  /-- What is told of a text that gives no document is a rejection, or the text escapes. -/
  escapes : ∀ f, (loadBy reader text limit).mapError LoadFault.failure = .error f ∧ ¬ f.Rejects ↔
    Escapes reader text limit f

/-- What is not empty declares something. -/
theorem declarationValues_ne_nil {raws : List Value} (truthy : v.truthy = true)
    (values : declarationValues v = some raws) : raws ≠ [] := by
  rintro rfl
  rw [declarationValues] at values
  rw [Value.truthy] at truthy
  split at values
  · next same =>
    cases values
    rw [same] at truthy
    exact nomatch truthy
  · next same =>
    cases values
    rw [same] at truthy
    exact nomatch truthy
  · next same =>
    rw [same, List.map_eq_nil_iff.1 (Option.some.inj values)] at truthy
    exact nomatch truthy
  · exact nomatch values

/-- A document declares something if its value does. -/
theorem declarations_ne_nil (declares : Declares v) (checked : check v = .ok d) :
    d.declarations ≠ [] := by
  obtain ⟨arguments, here, truthy⟩ := declares
  have declared := (fields_of_check checked).1 arguments here
  rw [checkArguments] at declared
  split at declared
  · exact nomatch declared
  · next raws values =>
    have length := (mapM_eq_ok_iff.1 (mapError_eq_ok_iff.1 declared)).length_eq
    intro nothing
    rw [nothing] at length
    exact declarationValues_ne_nil truthy values (List.length_eq_zero_iff.1 length)

/-! ### Values -/

/-- A value makes a document if it declares something and passes the checks of its fields. -/
theorem ofValue_eq_ok_iff : ofValue v = .ok d ↔ Declares v ∧ check v = .ok d := by
  rw [ofValue, Declares]
  split
  · next missing => simp [missing]
  · next arguments here =>
    split
    · next truthy => simp [here, truthy, ofFields]
    · next empty => simp [here, empty]

/-- A value that makes no document is rejected, or the check of its fields has been given up. -/
theorem rejects_or_of_ofValue {fault : LoadFault} (h : ofValue v = .error fault) :
    fault.failure.Rejects ∨ fault.failure = .tooDeep ∧ Declares v ∧
      ∃ issues, check v = .error issues ∧ ∃ i ∈ issues, i.kind = .nesting := by
  rw [ofValue] at h
  split at h
  · cases h
    exact .inl ⟨_, .inl rfl⟩
  · next arguments here =>
    split at h
    · next truthy =>
      obtain ⟨issues, checked, rfl⟩ := mapError_eq_error_iff.1 h
      rw [faultOf]
      split
      · next deep => exact .inr ⟨rfl, ⟨arguments, here, truthy⟩, issues, checked, by simpa using deep⟩
      · cases issues with
        | nil => exact .inl ⟨_, .inl rfl⟩
        | cons i issues => exact .inl ⟨_, .inl rfl⟩
    · cases h
      exact .inl ⟨_, .inr rfl⟩

theorem ofValue_eq_nesting {issues : List Issue} (declares : Declares v)
    (checked : check v = .error issues) (deep : ∃ i ∈ issues, i.kind = .nesting) :
    ofValue v = .error .nesting := by
  obtain ⟨arguments, here, truthy⟩ := declares
  have found : (issues.any fun i => i.kind = .nesting) = true := by simpa using deep
  rw [ofValue, here]
  dsimp only
  rw [if_pos truthy, ofFields, checked]
  show Except.error (faultOf issues) = _
  rw [faultOf, if_pos found]

/-! ### Texts -/

theorem loadBy_of_short (short : Short text limit) : loadBy reader text limit = (do
    let v ← (reader text.toList).mapError LoadFault.ofMarkup
    let d ← ofValue v
    return d.withExhibit (Exhibit.extract text)) := by
  rw [loadBy]
  exact if_neg (Int.not_lt.2 short)

theorem loadBy_of_not_short (long : ¬ Short text limit) :
    loadBy reader text limit = .error (.tooLong text.toList.length limit) := by
  rw [loadBy]
  exact if_pos (Int.not_le.1 long)

/-- A text gives a document if it is short enough, is read, and its value makes one. -/
theorem loadBy_eq_ok_iff : loadBy reader text limit = .ok d ↔ Short text limit ∧
    ∃ v d', reader text.toList = .ok v ∧ Declares v ∧ check v = .ok d' ∧
      d = d'.withExhibit (Exhibit.extract text) := by
  by_cases short : Short text limit
  · rw [loadBy_of_short short]
    simp only [bind_eq_ok_iff, mapError_eq_ok_iff, ofValue_eq_ok_iff, short, true_and]
    constructor
    · rintro ⟨v, read, d', ⟨declares, checked⟩, made⟩
      exact ⟨v, d', read, declares, checked, (Except.ok.inj made).symm⟩
    · rintro ⟨v, d', read, declares, checked, rfl⟩
      exact ⟨v, read, d', ⟨declares, checked⟩, rfl⟩
  · rw [loadBy_of_not_short short]
    simp [short]

/-- Only what breaks the rules of the format is told as a document that is refused. -/
theorem failure_ofMarkup {fault : Markup.Fault} (kept : fault ≠ .malformed) :
    (LoadFault.ofMarkup fault).failure = .scalar fault := by
  rw [LoadFault.ofMarkup.eq_def]
  split
  · exact absurd rfl kept
  · rfl

/-- A text that is not loaded is rejected, or it escapes. -/
theorem rejects_or_escapes {fault : LoadFault} (h : loadBy reader text limit = .error fault) :
    fault.failure.Rejects ∨ Escapes reader text limit fault.failure := by
  by_cases short : Short text limit
  swap
  · -- a text that is too long is not read at all
    rw [loadBy_of_not_short short] at h
    cases h
    exact .inl ⟨_, .inl rfl⟩
  rw [loadBy_of_short short] at h
  rcases bind_eq_error_iff.1 h with given_up | ⟨v, read, h⟩
  · obtain ⟨f, unread, rfl⟩ := mapError_eq_error_iff.1 given_up
    by_cases kept : f = .malformed
    · subst kept
      exact .inl ⟨_, .inl rfl⟩
    · rw [failure_ofMarkup kept]
      exact .inr (.unread short unread kept)
  · replace read := mapError_eq_ok_iff.1 read
    rcases bind_eq_error_iff.1 h with unmade | ⟨d, -, done⟩
    · rcases rejects_or_of_ofValue unmade with rejects | ⟨told, declares, issues, checked, deep⟩
      · exact .inl rejects
      · rw [told]
        exact .inr (.unchecked short read declares checked deep)
    · exact nomatch done

theorem Escapes.not_rejects {f : Failure} (h : Escapes reader text limit f) : ¬ f.Rejects := by
  rintro ⟨message, rfl | rfl⟩
  · exact nomatch h
  · exact nomatch h

/-- What escapes is told. -/
theorem Escapes.exists_fault {f : Failure} (h : Escapes reader text limit f) :
    ∃ fault, loadBy reader text limit = .error fault ∧ fault.failure = f := by
  cases h with
  | @unread fault short unread kept =>
      refine ⟨.ofMarkup fault, ?_, failure_ofMarkup kept⟩
      rw [loadBy_of_short short, unread]
      rfl
  | unchecked short read declares checked deep =>
      refine ⟨.nesting, ?_, rfl⟩
      rw [loadBy_of_short short, read]
      exact bind_eq_error_iff.2 (.inr ⟨_, rfl,
        bind_eq_error_iff.2 (.inl (ofValue_eq_nesting declares checked deep))⟩)

/-- **Every text gives a document or is rejected**, unless the reader gives it up although it keeps
to the rules of the format, or its fields lie too deep inside each other to be checked. -/
theorem loadBy_loads (reader : Markup.Reader) (text : String) (limit : Int) :
    Loads reader text limit where
  document _ := loadBy_eq_ok_iff
  declares d loaded := by
    obtain ⟨-, v, d', -, declares, checked, rfl⟩ := loadBy_eq_ok_iff.1 loaded
    exact (declarations_ne_nil declares checked : d'.declarations ≠ [])
  escapes f := by
    rw [mapError_eq_error_iff]
    constructor
    · rintro ⟨⟨fault, unloaded, rfl⟩, kept⟩
      exact (rejects_or_escapes unloaded).resolve_left kept
    · exact fun h => ⟨h.exists_fault, h.not_rejects⟩

/-- The only argument is spelled as a date in a month that does not exist. -/
def impossibleDate : String := "arguments: [2024-13-01]\n"

theorem impossibleDate_escapes : ∃ fault, load impossibleDate lengthLimit = .error fault ∧
    ¬ fault.failure.Rejects := by
  have scalar : (match load impossibleDate lengthLimit with
      | .error (.unread f) => some f
      | _ => none) = some (.calendar .month) := by decide +kernel
  split at scalar
  · next f loaded =>
    refine ⟨.unread f, loaded, ?_⟩
    rintro ⟨message, same | same⟩
    · exact nomatch same
    · exact nomatch same
  · exact nomatch scalar

end Document

end Argumentation
