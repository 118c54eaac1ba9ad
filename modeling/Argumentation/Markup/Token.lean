import Argumentation.Markup.Fault

/-!
# Tokens of a document

The units of which a document consists: marks of its structure, and scalars with their texts. The
marks that open and close blocks are not written in the text; they follow from its indentation. A
text that breaks a rule of the format yields the tokens up to that place and then a fault.
-/

namespace Argumentation.Markup

/-- The tag that a node is given, as it is written. -/
inductive WrittenTag where
  /-- A tag in full. -/
  | verbatim (tag : String)
  /-- A tag behind a handle that stands for its front part. -/
  | shorthand (handle suffix : String)
  deriving DecidableEq, Repr

/-- A line at the head of a document that says how to read it. -/
inductive Directive where
  | version (major : Nat)
  | tag (handle front : String)
  | unknown
  deriving DecidableEq, Repr

/-- A unit of a document. -/
inductive Token where
  | directive (d : Directive)
  | documentStart
  | documentEnd
  | blockSequenceStart
  | blockMappingStart
  | blockEnd
  | flowSequenceStart
  | flowSequenceEnd
  | flowMappingStart
  | flowMappingEnd
  | blockEntry
  | flowEntry
  | key
  | value
  | aliasOf (name : String)
  | anchor (name : String)
  | tag (t : WrittenTag)
  /-- A scalar, and whether it is written without quotes and block marks. -/
  | scalar (plain : Bool) (text : String)
  /-- The end of the text. -/
  | streamEnd
  /-- The place where the text cannot be read further. -/
  | fault (f : Fault)
  deriving DecidableEq, Repr

end Argumentation.Markup
