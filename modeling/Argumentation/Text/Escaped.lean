/-!
# Escaped text

How a text is written inside a page: the five characters with a meaning of their own in markup
become character references, so that no text can open or close an element or an attribute.
-/

namespace Argumentation.Text

/-- One character, safe between tags and between quotes. -/
def escapedChar : Char → List Char
  | '&' => "&amp;".toList
  | '<' => "&lt;".toList
  | '>' => "&gt;".toList
  | '"' => "&quot;".toList
  | '\x27' => "&#x27;".toList
  | c => [c]

/-- The text with its markup characters written as references. -/
def escaped (s : String) : String := String.ofList (s.toList.flatMap escapedChar)

end Argumentation.Text
