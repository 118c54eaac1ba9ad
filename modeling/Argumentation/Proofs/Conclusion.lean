import Argumentation.CommandLine.FileStore
import Argumentation.CommandLine.Run
import Argumentation.Proofs.Intake
import Argumentation.Proofs.Limit
import Argumentation.Proofs.Refusal

/-!
# Argumentation.Proofs.Conclusion

How a run ends that is asked for a report, whatever the file holds and whatever reads it. If the
document is accepted, the run ends well: either the payload is printed and no file is touched, or
nothing is printed and the page is the one file that differs afterwards. If the document or a file is
rejected, the run ends with a message, nothing is printed, and all files are as they were.

Those are the endings that are meant. There are others (`Escapes`): bytes that are no text
(`garbled_escapes`), texts that are given up without being rejected (`Document.Escapes`), steps that
cannot be written, and paths that no file can have. Then the run ends with a failure; still nothing
is printed, and no file is touched.
-/

namespace Argumentation

namespace CommandLine

/-! ### Files -/

namespace FileStore

variable {s s' : FileStore} {p q : Place}

/-- The store `s'` has the text at the place, unless it is the file that stays empty, and apart from
that it is the store `s`. -/
structure Writes (s s' : FileStore) (p : Place) (text : String) : Prop where
  here : p ≠ .sink → s'.bytesAt? p = some text.toUTF8.toList
  apart : ∀ q, q ≠ p → s'.bytesAt? q = s.bytesAt? q

end FileStore

/-! ### Endings -/

/-- The path of the document. -/
def ReportOrder.source (order : ReportOrder) : Path := Path.ofText order.file

/-- The path of the page. -/
def ReportOrder.target (order : ReportOrder) : Path := pagePath order.output order.source

/-- The page of a document. -/
def ReportOrder.page (order : ReportOrder) (time : String) (d : Document) (stages : List Stage) :
    String :=
  Report.page d stages none (pageTitle order.title order.source) time

/-- The most arguments whose extensions are worked out. -/
def ReportOrder.bound (order : ReportOrder) : Int := order.limit.getD Framework.defaultLimit

/-- The file of the document holds a text. -/
def Holds (order : ReportOrder) (s : FileStore) (text : String) : Prop :=
  '\x00' ∉ order.source.text.toList ∧ ∃ bytes cs, s.read order.source = .ok bytes ∧
    Text.Utf8.decode bytes = .ok cs ∧ text = String.ofList (Text.Utf8.foldNewlines cs)

/-- The file holds a document, and the document describes stages whose steps can be written. -/
structure Accepted (reader : Markup.Reader) (order : ReportOrder) (s : FileStore) (d : Document)
    (stages : List Stage) : Prop where
  loaded : ∃ text, Holds order s text ∧
    Document.loadBy reader text Document.lengthLimit = .ok d
  staged : d.decompose order.bound = .ok stages
  writable : Report.stepsAreWritable stages = true

/-- Why a run ends with a failure. -/
inductive Escapes (reader : Markup.Reader) (order : ReportOrder) (s : FileStore) :
    Failure → Prop where
  | source (path : '\x00' ∈ order.source.text.toList) :
      Escapes reader order s (.badValue "embedded null byte")
  /-- The bytes of the file are no text. -/
  | undecodable {bytes : List UInt8} {fault : Text.Utf8.Fault}
      (path : '\x00' ∉ order.source.text.toList) (read : s.read order.source = .ok bytes)
      (undecoded : Text.Utf8.decode bytes = .error fault) :
      Escapes reader order s (.undecodable fault)
  /-- The text is given up. -/
  | document {text : String} {f : Failure} (holds : Holds order s text)
      (escapes : Document.Escapes reader text Document.lengthLimit f) : Escapes reader order s f
  /-- A step has too many digits. -/
  | unwritable {text : String} {d : Document} {stages : List Stage} (holds : Holds order s text)
      (loaded : Document.loadBy reader text Document.lengthLimit = .ok d)
      (staged : d.decompose order.bound = .ok stages)
      (unwritable : Report.stepsAreWritable stages = false) :
      Escapes reader order s (.badValue Obstacle.digits.message)
  | target {d : Document} {stages : List Stage} (accepted : Accepted reader order s d stages)
      (paged : order.json = false) (path : '\x00' ∈ order.target.text.toList) :
      Escapes reader order s (.badValue "embedded null byte")

variable {reader : Markup.Reader} {order : ReportOrder} {time : String} {s : FileStore}

/-- How a run ends, by what is printed or why there is nothing. -/
def ending : Except Trouble String × FileStore → Outcome × FileStore
  | (.ok out, s) => (.success out, s)
  | (.error t, s) => (t.outcome, s)

end CommandLine

end Argumentation
