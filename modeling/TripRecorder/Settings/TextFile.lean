/-!
# Text files

## Main definitions

* `TextFile` — what is found under the name of a settings file
* `TextFile.write` — the same name after a text was written to it
-/

namespace TripRecorder

/-- What is found under the name of a settings file. -/
inductive TextFile where
  | absent
  | text (content : String)
  /-- A file whose bytes are no text. -/
  | garbled
  | directory
deriving DecidableEq, Repr

/-- Why a settings file cannot be used. -/
inductive SettingsError where
  /-- It cannot be read or written. -/
  | io
  /-- It does not hold what it should. -/
  | parse
deriving DecidableEq, Repr

/-- The name of an error. -/
def SettingsError.name : SettingsError → String
  | io => "Io"
  | parse => "Parse"

namespace TextFile

/-- A file of bytes, which are text if they are valid UTF-8. -/
def ofBytes (bytes : List UInt8) : TextFile :=
  match String.fromUTF8? ⟨bytes.toArray⟩ with
  | some content => text content
  | none => garbled

/-- The content, if the name stands for a text. -/
def content? : TextFile → Option String
  | text content => some content
  | _ => none

/-- The name after a text was written to it; a directory cannot be written to. -/
def write (content : String) : TextFile → Except SettingsError TextFile
  | directory => .error .io
  | _ => .ok (text content)

/-- Reads a file with a default for its absence. -/
def load {α : Type} (absentValue : α) (read? : String → Option α) :
    TextFile → Except SettingsError α
  | absent => .ok absentValue
  | text content =>
    match read? content with
    | some a => .ok a
    | none => .error .parse
  | garbled => .error .io
  | directory => .error .io

end TextFile

end TripRecorder
