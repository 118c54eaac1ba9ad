import Argumentation.Text.Blank

/-!
# Paths

The way to a file, as its parts. Empty parts and parts that stay where they are do not count, so
several texts can write one path; `Path.text` gives the shortest of them.
-/

namespace Argumentation

/-- A path: the slashes at which it starts, and its parts. -/
structure Path where
  root : String
  parts : List String
  deriving DecidableEq, Repr

namespace Path

/-- The slashes at which a path starts. Two of them may mean another root than one does, three or
more mean the same as one. -/
def rootOf (cs : List Char) : String :=
  match (cs.takeWhile (· = '/')).length with
  | 0 => ""
  | 2 => "//"
  | _ => "/"

/-- The path that a text writes. -/
def ofText (s : String) : Path :=
  let cs := s.toList
  let parts := (Text.splitAt '/' cs).filter fun part => !part.isEmpty && part != ['.']
  ⟨rootOf cs, parts.map String.ofList⟩

/-- Whether the path starts at a root. -/
def isAbsolute (p : Path) : Bool := !p.root.isEmpty

/-- The text of the path. -/
def text (p : Path) : String :=
  if p.parts.isEmpty && !p.isAbsolute then "." else p.root ++ "/".intercalate p.parts

/-- The last part of the path, which is empty if there is none. -/
def name (p : Path) : String := p.parts.getLast?.getD ""

/-- The path with another last part. -/
def withName (p : Path) (name : String) : Path := { p with parts := p.parts.dropLast ++ [name] }

end Path

end Argumentation
