import Argumentation.Value

/-!
# JSON values

The values that requests, answers and report payloads are made of. Whole numbers and doubles are
different kinds, and the fields of an object keep the order in which they were first written.
-/

namespace Argumentation

/-- A JSON value. -/
inductive Json where
  | null
  | bool (b : Bool)
  | int (i : Int)
  | float (x : Float)
  | text (s : String)
  | array (items : List Json)
  | object (fields : List (String × Json))
  deriving Inhabited

namespace Json

mutual

/-- The value that a JSON value denotes. -/
def toValue : Json → Value
  | .null => .null
  | .bool b => .bool b
  | .int i => .int i
  | .float x => .float x
  | .text s => .text s
  | .array items => .list (toValues items)
  | .object fields => .mapping (toEntries fields)

/-- The values of the members of an array. -/
def toValues : List Json → List Value
  | [] => []
  | j :: js => j.toValue :: toValues js

/-- The keys and values of the fields of an object. -/
def toEntries : List (String × Json) → List (Value × Value)
  | [] => []
  | (name, j) :: fs => (.text name, j.toValue) :: toEntries fs

end

/-- The fields with `value` at `name`: a name keeps its first place and takes the last value. -/
def setField (name : String) (value : Json) : List (String × Json) → List (String × Json)
  | [] => [(name, value)]
  | f :: fs => if f.1 = name then (name, value) :: fs else f :: setField name value fs

/-- The field of an object. -/
def field? (name : String) : Json → Option Json
  | .object fields => fields.lookup name
  | _ => none

/-- The field of an object, and `null` where there is none. -/
def field (name : String) (j : Json) : Json := (j.field? name).getD .null

/-- The members of an array. -/
def items : Json → List Json
  | .array js => js
  | _ => []

/-- An array of texts. -/
def texts (ss : List String) : Json := .array (ss.map .text)

/-- A natural number. -/
def nat (n : Nat) : Json := .int n

end Json

namespace Value

mutual

/-- The JSON value that denotes the value, where one does. -/
def toJson : Value → Json
  | .null => .null
  | .bool b => .bool b
  | .int i => .int i
  | .float x => .float x
  | .text s => .text s
  | .list items | .tuple items | .set items => .array (toJsons items)
  | .mapping entries => .object (toFields entries)
  | _ => .null

/-- The JSON values of the members of a sequence. -/
def toJsons : List Value → List Json
  | [] => []
  | v :: vs => v.toJson :: toJsons vs

/-- The fields of the entries of a mapping whose keys are texts. -/
def toFields : List (Value × Value) → List (String × Json)
  | [] => []
  | (.text name, v) :: es => (name, v.toJson) :: toFields es
  | (_, _) :: es => toFields es

end

end Value

end Argumentation
