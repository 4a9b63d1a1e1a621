import Std.Time.DateTime.Timestamp
import TripRecorder.CommandLine.Program

/-!
# Command line

Serves the calls of the program with the files of the machine, prints what it has to say, and ends
with its code. There is no network: every collector is out of reach.

## Main definitions

* `main`
-/

namespace TripRecorder

/-- What is found under the name of a file. -/
def readFile (path : String) : IO TextFile := do
  try
    return TextFile.ofBytes (← IO.FS.readBinFile path).toList
  catch
    | .noFileOrDirectory _ _ _ => return .absent
    | _ => return .directory

/-- Writes a file. -/
def writeFile (path content : String) : IO (Except SettingsError Unit) := do
  try
    IO.FS.writeFile path content
    return .ok ()
  catch _ => return .error .io

/-- A number of two digits. -/
def twoDigits (n : Nat) : String := if n < 10 then s!"0{n}" else toString n

/-- The time of the day. -/
def timeOfDay : IO String := do
  let seconds := (← Std.Time.Timestamp.now).toSecondsSinceUnixEpoch.val.toNat % 86400
  return s!"{twoDigits (seconds / 3600)}:{twoDigits (seconds / 60 % 60)}:{twoDigits (seconds % 60)}"

/-- The answer of the machine to a call. -/
def answerCall : (c : ProgramCall) → IO (ProgramAnswer c)
  | .read path => readFile path
  | .write path content => writeFile path content
  | .exchange _ => return .failed 0 "no network"
  | .chance => return (← IO.getRandomBytes 16).toList
  | .clock => timeOfDay

/-- Runs a procedure of the program on the machine. -/
def runProcedure {α : Type} : Procedure ProgramAnswer α → IO α
  | .done a => return a
  | .call c next => do runProcedure (next (← answerCall c))

end TripRecorder

/-- Runs the program with the arguments of the command line. -/
def main (arguments : List String) : IO UInt32 := do
  let exit ← TripRecorder.runProcedure (TripRecorder.program arguments)
  for line in exit.lines do IO.println line
  match exit.error with
  | some text => IO.eprintln text
  | none => pure ()
  return UInt32.ofNat exit.code
