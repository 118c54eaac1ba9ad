import Argumentation.Json
import Argumentation.Text.Blank

/-!
# Messages of the service

What the service is asked and what it answers. The names of header fields are compared without
regard to case.
-/

namespace Argumentation.Service

/-- A request: method, path, header fields and body. -/
structure Request where
  method : String
  path : String
  headers : List (String × String)
  body : String

/-- Whether the character is blank and ASCII. Header fields are bytes, and no byte of any other
character is blank by itself and stands at the beginning of one. -/
def isBlankByte (c : Char) : Bool := c.toNat < 0x80 && Text.isBlank c

/-- The text of a header field without the blank bytes at its two ends. -/
def trimmed (cs : List Char) : List Char := Text.trimBoth isBlankByte cs

/-- A text in lower case, as far as it is ASCII. -/
def lowered (s : String) : String := String.ofList (s.toList.map Char.toLower)

/-- The value of a header field. -/
def Request.header? (r : Request) (name : String) : Option String :=
  (r.headers.find? fun h => lowered h.1 == name).map (·.2)

/-- The body of an answer. -/
inductive Body where
  | empty
  | json (j : Json)
  | html (s : String)
  | plain (s : String)

/-- The kind of a body, as header fields name it. -/
def Body.contentType? : Body → Option String
  | .empty => none
  | .json _ => some "application/json"
  | .html _ => some "text/html; charset=utf-8"
  | .plain _ => some "text/plain; charset=utf-8"

/-- An answer. -/
structure Response where
  status : Nat
  body : Body
  /-- The method that the path allows, where another one was used. -/
  allow : Option String
  /-- The pages that may read the answer. -/
  allowOrigin : Option String

/-- An answer for every page of the same origin. -/
def Response.plainly (status : Nat) (body : Body) : Response := ⟨status, body, none, none⟩

end Argumentation.Service
