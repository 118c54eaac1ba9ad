import Argumentation.Path

/-!
# What surrounds the program

The program reads and writes files and looks at the clock, and it does so through an `Environment`
alone. An environment may be the machine that the program runs on, or a store of files in memory.
-/

namespace Argumentation.CommandLine

/-- Why a file is not read or written: the number of the fault, and the words for it. -/
structure FileFault where
  number : Nat
  reason : String
  deriving DecidableEq, Repr

namespace FileFault

/-- There is nothing at the path. -/
def missing : FileFault := ⟨2, "No such file or directory"⟩

/-- The path goes through a file. -/
def notDirectory : FileFault := ⟨20, "Not a directory"⟩

/-- There is a directory at the path. -/
def isDirectory : FileFault := ⟨21, "Is a directory"⟩

/-- The path or a part of it is too long. -/
def nameTooLong : FileFault := ⟨36, "File name too long"⟩

end FileFault

/-- Files and a clock. -/
structure Environment (m : Type → Type) where
  /-- The bytes of the file at a path. -/
  read : Path → m (Except FileFault (List UInt8))
  /-- Writes a text to the file at a path, which need not be there yet. -/
  write : Path → String → m (Except FileFault Unit)
  /-- The time in words. -/
  time : m String

end Argumentation.CommandLine
