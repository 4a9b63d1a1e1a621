import TripRecorder.Json.Value
import TripRecorder.Json.Printer
import TripRecorder.Settings.TextFile

/-!
# Preferences

Preferences are texts under keys. They live in memory or in a file that holds one JSON object and
is written anew with every change; members of the object that are no text are kept.

## Main definitions

* `MemoryPreferences`, `FilePreferences` — the two stores of preferences
* `FilePreferences.get?`, `FilePreferences.set` — reading and changing a text
* `FilePreferences.deviceId` — the identifier of the device, made up once
* `Preferences` — preferences of either kind
-/

namespace TripRecorder

/-- The key of the address measurements are sent to. -/
def endpointKey : String := "sync.endpoint"

/-- The key of the identifier of the device. -/
def deviceKey : String := "identifier.device"

/-- Puts a value under a key, in place of an earlier one. -/
def putText (values : List (String × String)) (key value : String) : List (String × String) :=
  (key, value) :: values.filter fun v => v.1 != key

/-- Preferences that are forgotten with the program. -/
structure MemoryPreferences where
  values : List (String × String)
deriving DecidableEq, Repr

namespace MemoryPreferences

/-- Preferences with some texts, later ones replacing earlier ones. -/
def ofList (values : List (String × String)) : MemoryPreferences :=
  ⟨values.foldl (fun done v => putText done v.1 v.2) []⟩

/-- The text under a key. -/
def get? (p : MemoryPreferences) (key : String) : Option String := p.values.lookup key

/-- A text put under a key. -/
def set (p : MemoryPreferences) (key value : String) : MemoryPreferences :=
  ⟨putText p.values key value⟩

/-- The identifier of the device, which is `fresh` if there is none yet. -/
def deviceId (p : MemoryPreferences) (fresh : String) : String × MemoryPreferences :=
  match p.get? deviceKey with
  | some id => (id, p)
  | none => (fresh, p.set deviceKey fresh)

end MemoryPreferences

/-- Preferences kept in a file. -/
structure FilePreferences where
  /-- The members of the object, sorted by name. -/
  members : List (String × Json)
  file : TextFile

namespace FilePreferences

/-- The members of a text that is one JSON object. -/
def members? (content : String) : Option (List (String × Json)) :=
  match Json.parse? content with
  | some (.object members) => some members
  | _ => none

/-- The preferences of a file; a missing file holds none. -/
def load (file : TextFile) : Except SettingsError FilePreferences :=
  (file.load [] members?).map fun members => ⟨members, file⟩

/-- The text under a key. Members that are no text are not found. -/
def get? (p : FilePreferences) (key : String) : Option String :=
  (p.members.lookup key).bind Json.text?

/-- The text of a file that holds the members. -/
def textOf (members : List (String × Json)) : String := Json.pretty (.object members)

/-- A text put under a key and written to the file. The value holds from now on, even if the file
cannot be written. -/
def set (p : FilePreferences) (key value : String) :
    Except SettingsError Unit × FilePreferences :=
  let members := Json.insertMember key (.string value) p.members
  match p.file.write (textOf members) with
  | .ok file => (.ok (), ⟨members, file⟩)
  | .error e => (.error e, ⟨members, p.file⟩)

/-- The identifier of the device, which is `fresh` if there is none yet and it can be saved. -/
def deviceId (p : FilePreferences) (fresh : String) :
    Except SettingsError String × FilePreferences :=
  match p.get? deviceKey with
  | some id => (.ok id, p)
  | none =>
    match p.set deviceKey fresh with
    | (.ok (), p) => (.ok fresh, p)
    | (.error e, p) => (.error e, p)

end FilePreferences

/-- Preferences of either kind. -/
inductive Preferences where
  | memory (p : MemoryPreferences)
  | file (p : FilePreferences)

namespace Preferences

/-- The text under a key. -/
def get? : Preferences → String → Option String
  | memory p, key => p.get? key
  | file p, key => p.get? key

/-- A text put under a key. -/
def set : Preferences → String → String → Except SettingsError Unit × Preferences
  | memory p, key, value => (.ok (), memory (p.set key value))
  | file p, key, value =>
    let (result, p) := p.set key value
    (result, file p)

/-- The identifier of the device, which is `fresh` if there is none yet and it can be saved. -/
def deviceId (fresh : String) : Preferences → Except SettingsError String × Preferences
  | memory p =>
    let (id, p) := p.deviceId fresh
    (.ok id, memory p)
  | file p =>
    let (result, p) := p.deviceId fresh
    (result, file p)

/-- The file of preferences that have one. -/
def file? : Preferences → Option TextFile
  | memory _ => none
  | file p => some p.file

/-- Preferences whose file was changed by someone else. -/
def withFile (place : TextFile) : Preferences → Preferences
  | memory p => memory p
  | file p => file { p with file := place }

end Preferences

end TripRecorder
