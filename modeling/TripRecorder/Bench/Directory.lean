import TripRecorder.CommandLine.Program

/-!
# A bench for the program

The program runs in a directory of its own, with nobody at the address of its collector.

## Main definitions

* `Directory` — the files of a directory
* `Directory.serve` — the answers to the program
* `Directory.runProgram` — a run of the program
-/

namespace TripRecorder

/-- The files of a directory, by their names. -/
structure Directory where
  files : List (String × TextFile)
deriving DecidableEq, Repr

namespace Directory

/-- The name of a file without steps that stay in the directory. -/
def plain (path : String) : String :=
  let parts := path.splitOn "/"
  match parts.filter fun part => part != "." with
  | [] => "."
  | others => "/".intercalate others

/-- What is found under a name. -/
def read (d : Directory) (path : String) : TextFile :=
  if plain path = "." then .directory else (d.files.lookup (plain path)).getD .absent

/-- The directory after a text was written to a file. There are no other directories in it. -/
def write (d : Directory) (path content : String) : Except SettingsError Unit × Directory :=
  let name := plain path
  if name = "." || name.contains '/' then (.error .io, d)
  else
    match (d.read path).write content with
    | .ok file => (.ok (), ⟨(name, file) :: d.files.filter fun f => f.1 != name⟩)
    | .error e => (.error e, d)

/-- The answers to the program. -/
def serve : (c : ProgramCall) → Directory → ProgramAnswer c × Directory
  | .read path, d => (d.read path, d)
  | .write path content, d => d.write path content
  | .exchange _, d => (.failed 0 "connection refused", d)
  | .chance, d => (List.replicate 16 0, d)
  | .clock, d => ("TIME", d)

/-- A run of the program. -/
def runProgram (d : Directory) (arguments : List String) : Exit × Directory :=
  (program arguments).run serve d

end Directory

end TripRecorder
