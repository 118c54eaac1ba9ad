import Argumentation.CommandLine.Run
import Std.Time.DateTime

/-!
# The program

The program on a machine: its files are those of the machine, its clock is the machine's in universal
time. What a run prints goes to the two standard outputs, and its status is that of the process.
-/

namespace Argumentation.CommandLine

/-- The fault that an error of the machine stands for. -/
def FileFault.ofError : IO.Error → FileFault
  | .noFileOrDirectory _ _ _ => missing
  | .inappropriateType _ code reason => ⟨code.toNat, reason⟩
  | .permissionDenied _ code reason => ⟨code.toNat, reason⟩
  | .resourceExhausted _ code reason => ⟨code.toNat, reason⟩
  | .invalidArgument _ code reason => ⟨code.toNat, reason⟩
  | .alreadyExists _ code reason => ⟨code.toNat, reason⟩
  | .noSuchThing _ code reason => ⟨code.toNat, reason⟩
  | .otherError code reason => ⟨code.toNat, reason⟩
  | fault => ⟨5, toString fault⟩

/-- What a step on a file comes to. -/
def attempt {α : Type} (step : IO α) : IO (Except FileFault α) := do
  match ← step.toBaseIO with
  | .ok a => return .ok a
  | .error fault => return .error (.ofError fault)

/-- The machine that the program runs on. -/
def machine : Environment IO where
  read path := attempt (do return (← IO.FS.readBinFile path.text).toList)
  write path text := attempt (IO.FS.writeBinFile path.text text.toUTF8)
  time := do
    let now := Std.Time.DateTime.ofTimestamp (← Std.Time.Timestamp.now) .UTC
    let date : Date := ⟨now.year.toNat, now.month.val.toNat, now.day.val.toNat⟩
    return Report.stamp ⟨date, now.hour.val.toNat, now.minute.val.toNat, 0, 0, some 0⟩

end Argumentation.CommandLine

open Argumentation.CommandLine in
/-- Runs the program. The service itself is not part of it: its address is told to whoever is to
serve there. -/
def main (texts : List String) : IO UInt32 := do
  let outcome ← run machine texts
  IO.print outcome.out
  IO.eprint outcome.err
  for address in outcome.served do
    IO.eprintln ("serve at " ++ address.host ++ ":" ++ toString address.port)
  match outcome.exit with
  | .ok status => return .ofNat status
  | .error failure =>
    IO.eprintln failure.message
    return 1
