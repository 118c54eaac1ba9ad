import Argumentation.CommandLine.Environment

/-!
# Files in memory

An environment whose files are held in memory. The store knows the files below and above the
directory in which the program runs, and those that are reached from the root. Directories are those
that files lie in, and the usual ones below the root; of the directories above nothing is known but
what was written there. One file takes everything that is written to it and stays empty.
-/

namespace Argumentation.CommandLine

/-- Where the way to a place starts. -/
inductive Start where
  /-- So many directories above the one in which the program runs. -/
  | above (n : Nat)
  | root
  deriving DecidableEq, Repr

/-- The start one directory up. There is nothing above the root. -/
def Start.up : Start → Start
  | .above n => .above (n + 1)
  | .root => .root

/-- A place in the store: from a start along the parts. -/
structure Place where
  start : Start
  parts : List String
  deriving DecidableEq, Repr

namespace Place

/-- The place below the directory in which the program runs. -/
def below (parts : List String) : Place := ⟨.above 0, parts⟩

/-- The place one part on. -/
def enter (p : Place) (part : String) : Place :=
  if part = ".." then
    if p.parts.isEmpty then ⟨p.start.up, []⟩ else { p with parts := p.parts.dropLast }
  else { p with parts := p.parts ++ [part] }

/-- The file that takes everything and stays empty. -/
def sink : Place := ⟨.root, ["dev", "null"]⟩

/-- The directories below the root. -/
def rootDirectories : List String :=
  ["bin", "dev", "etc", "home", "lib", "opt", "proc", "root", "run", "sbin", "srv", "sys", "tmp",
    "usr", "var"]

/-- Whether the place is known to be a directory, whatever files there are. -/
def isKnownDirectory (p : Place) : Bool :=
  match p.start, p.parts with
  | _, [] => true
  | .root, [part] => rootDirectories.contains part
  | _, _ => false

end Place

/-- The files of the store. -/
structure FileStore where
  files : List (Place × List UInt8)

namespace FileStore

/-- The most bytes of a part of a path. -/
def mostBytes : Nat := 255

/-- The most bytes of a path. -/
def mostPathBytes : Nat := 4095

/-- The bytes of the file at the place. -/
def bytesAt? (s : FileStore) (p : Place) : Option (List UInt8) :=
  if p = .sink then some [] else s.files.lookup p

/-- Whether there is a directory at the place. -/
def hasDirectory (s : FileStore) (p : Place) : Bool :=
  p.isKnownDirectory || s.files.any fun f =>
    f.1.start = p.start && p.parts.isPrefixOf f.1.parts && p.parts.length < f.1.parts.length

/-- The place that the parts lead to. Everything on the way has to be a directory. -/
def place (s : FileStore) (p : Place) : List String → Except FileFault Place
  | [] => .ok p
  | part :: parts =>
    if s.hasDirectory p then
      if mostBytes < part.utf8ByteSize then .error .nameTooLong
      else s.place (p.enter part) parts
    else if (s.bytesAt? p).isSome then .error .notDirectory
    else .error .missing

/-- The place that a path leads to. -/
def resolve (s : FileStore) (path : Path) : Except FileFault Place :=
  if mostPathBytes < path.text.utf8ByteSize then .error .nameTooLong
  else s.place ⟨if path.isAbsolute then .root else .above 0, []⟩ path.parts

/-- The bytes of the file at a path. -/
def read (s : FileStore) (path : Path) : Except FileFault (List UInt8) := do
  let p ← s.resolve path
  if s.hasDirectory p then throw .isDirectory
  match s.bytesAt? p with
  | some bytes => return bytes
  | none => throw .missing

/-- The store with other bytes at a place. -/
def put (s : FileStore) (p : Place) (bytes : List UInt8) : FileStore :=
  if p = .sink then s else ⟨(p, bytes) :: s.files.filter fun f => f.1 ≠ p⟩

/-- The store with a text at a path. -/
def write (s : FileStore) (path : Path) (text : String) : Except FileFault FileStore := do
  let p ← s.resolve path
  if s.hasDirectory p then throw .isDirectory
  return s.put p text.toUTF8.toList

/-- The files below the directory of the program that were not in an earlier store, or were not the
same there, by the text of their paths. -/
def changesSince (s earlier : FileStore) : List (String × List UInt8) :=
  (s.files.filter fun f => f.1.start = .above 0 && earlier.bytesAt? f.1 != some f.2).map fun f =>
    ("/".intercalate f.1.parts, f.2)

/-- The store as what surrounds the program, at a time that does not pass. -/
def environment (time : String) : Environment (StateM FileStore) where
  read path := do return (← get).read path
  write path text := do
    match (← get).write path text with
    | .ok s => set s; return .ok ()
    | .error fault => return .error fault
  time := return time

end FileStore

end Argumentation.CommandLine
