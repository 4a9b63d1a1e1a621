import TripRecorder.Capture.Error
import TripRecorder.CommandLine.Arguments
import TripRecorder.Hex
import TripRecorder.Settings.Config
import TripRecorder.Store.Image
import TripRecorder.Sync.Cycle

/-!
# The program

The program reads its configuration and its preferences, opens the store, and carries out one
command. Files, the collector, the clock and chance are calls that it makes.

## Main definitions

* `ProgramCall` — what the program asks for
* `Exit` — what it prints, and the code it ends with
* `program` — the procedure of an invocation
-/

namespace TripRecorder

/-- What the program asks for. -/
inductive ProgramCall where
  | read (path : String)
  | write (path content : String)
  | exchange (request : UploadRequest)
  /-- Sixteen bytes by chance. -/
  | chance
  /-- The time of the day. -/
  | clock

/-- The answers. -/
def ProgramAnswer : ProgramCall → Type
  | .read _ => TextFile
  | .write _ _ => Except SettingsError Unit
  | .exchange _ => Exchange
  | .chance => List UInt8
  | .clock => String

/-- How the program ends. -/
structure Exit where
  code : Nat
  /-- Lines for its user. -/
  lines : List String
  /-- Why it failed. -/
  error : Option String
deriving DecidableEq, Repr

namespace Exit

/-- The program did what it was to do. -/
def done (lines : List String) : Exit := ⟨0, lines, none⟩

/-- The program failed after some lines. -/
def failed (lines : List String) (error : String) : Exit := ⟨1, lines, some s!"Error: {error}"⟩

end Exit

/-- A part of the program that may fail with a text. -/
abbrev ProgramOr (α : Type) := ExceptT String (Procedure ProgramAnswer) α

namespace Program

/-! ### Calls -/

/-- A single call. -/
def ask (c : ProgramCall) : ProgramOr (ProgramAnswer c) := ExceptT.lift (Procedure.ask c)

/-- The name of a file in quotes. -/
def quoted (path : String) : String :=
  let escaped (c : Char) : List Char :=
    if c = '"' ∨ c = '\\' then ['\\', c]
    else if c = '\n' then ['\\', 'n']
    else if c = '\r' then ['\\', 'r']
    else if c = '\t' then ['\\', 't']
    else if c.toNat < 0x20 ∨ c.toNat = 0x7f then
      ['\\', 'u', '\x7b'] ++ Nat.toDigits 16 c.toNat ++ ['\x7d']
    else [c]
  String.ofList ('"' :: path.toList.flatMap escaped ++ ['"'])

/-- Writes a file, or fails with a text. -/
def write (path content refusal : String) : ProgramOr Unit := do
  match ← ask (.write path content) with
  | .ok () => return ()
  | .error _ => throw refusal

/-- The failure of a file that cannot be written. -/
def unwritable : String := "IO error: No such file or directory (os error 2)"

/-- Puts a preference and writes all of them. -/
def setPreference (path : String) (p : FilePreferences) (key value : String) :
    ProgramOr FilePreferences := do
  let p := (p.set key value).2
  write path (FilePreferences.textOf p.members) unwritable
  return p

/-- The store of a file, which is made if there is none or it is empty. -/
def openStore (path : String) (empty : Store) : ProgramOr Store := do
  let refusal := s!"Failed to open {quoted path}"
  match ← ask (.read path) with
  | .absent => create refusal
  | .text "" => create refusal
  | .text content =>
    match Store.ofImage? empty content with
    | some store => return store
    | none => throw refusal
  | _ => throw refusal
where
  create (refusal : String) : ProgramOr Store := do
    write path empty.image refusal
    return empty

/-! ### Commands -/

/-- A text with blanks before it up to a width. -/
def padLeft (width : Nat) (text : String) : String :=
  String.ofList (List.replicate (width - text.length) ' ') ++ text

/-- A text with blanks after it up to a width. -/
def padRight (width : Nat) (text : String) : String :=
  text ++ String.ofList (List.replicate (width - text.length) ' ')

/-- The line of a measurement with some locations. -/
def measurementLine (m : Measurement) (locations : Nat) : String :=
  "  " ++ padLeft 5 m.id.text ++ "  " ++ padRight 10 m.vehicle.name ++ " " ++
    padRight 9 m.status.name ++ " " ++ padLeft 7 (toString locations) ++ " locations"

/-- Lists all measurements. -/
def listed (store : Store) : Exit :=
  match store.all with
  | .error e => .failed [] e.message
  | .ok [] => .done ["No measurements"]
  | .ok measurements =>
    .done (measurements.map fun m => measurementLine m (store.count m.id .locations))

/-- Records no trip: one may be recorded already, and the program has no sensors of its own. -/
def captured (store : Store) : Exit :=
  match store.lastOpen with
  | some id =>
    .failed [] s!"Measurement {id.value} is still open; only one capture may run at a time"
  | none => .failed [] (CaptureError.capabilityUnavailable "no sensors").message

/-- What a cycle of the program works on. -/
structure CycleState where
  store : Store
  preferences : FilePreferences

/-- The answers of the program to a cycle. -/
def serveCycle (token : Option String) (chunkBytes : Nat) :
    (c : SyncCall) → CycleState → Procedure ProgramAnswer (SyncAnswer c × CycleState)
  | .token _ _, s => .done (match token with
    | some token => .granted token
    | none => .absent, s)
  | .preference key, s => .done (s.preferences.get? key, s)
  | .store c, s =>
    let (answer, store) := Store.serve c s.store
    .done (answer, { s with store := store })
  | .upload request, s => .call (.exchange request) fun exchange =>
    .done ((Upload.run chunkBytes request.body exchange).2, s)

/-- The report of a cycle at a time of the day. -/
def reported (time : String) (r : SyncReport) : Exit :=
  let line := s!"[{time}] Synced {r.synced.length} measurements " ++
    s!"({r.alreadyPresent.length} already on the collector)"
  match r.aborted with
  | none => .done [line]
  | some (id, e) =>
    let hint := if e.needsLogin then " (pass a valid --token)" else ""
    .failed [line] (s!"Sync stopped at measurement {id.value}: {e.message}" ++ hint)

/-- Sends finished measurements once. -/
def synced (config : AppConfig) (path : String) (s : CycleState) (account : String)
    (token : Option String) : ProgramOr Exit := do
  let cycle := syncCycle s.store.queryLimit config.sync.credentialTimeoutMs account
  let (result, s) ← ExceptT.lift
    (cycle.handle (serveCycle token config.sync.uploadChunkBytes) s)
  write path s.store.image unwritable
  match result with
  | .error e => throw e.message
  | .ok report => return reported (← ask .clock) report

/-- Carries out an invocation. -/
def run (i : Invocation) : ProgramOr Exit := do
  let config ← match AppConfig.load (← ask (.read i.config)) with
    | .ok config => pure config
    | .error _ => throw s!"Failed to load config {quoted i.config}"
  let preferences ← match FilePreferences.load (← ask (.read i.prefs)) with
    | .ok p => pure p
    | .error _ => throw s!"Failed to open preferences {quoted i.prefs}"
  let preferences ← match preferences.get? deviceKey with
    | some _ => pure preferences
    | none => setPreference i.prefs preferences deviceKey (Hex.encode (← ask .chance))
  let path := i.database.getD config.storage.databasePath
  let empty := Store.empty (preferences.get? deviceKey) config.storage.maxBatchOperations
    config.storage.queryLimit
  let store ← openStore path empty
  match i.command with
  | .list => return listed store
  | .capture _ _ _ _ => return captured store
  | .sync account token endpoint _ =>
    let preferences ← match endpoint with
      | some endpoint => setPreference i.prefs preferences endpointKey endpoint
      | none => pure preferences
    synced config path ⟨store, preferences⟩ account token

/-- The text for someone who asks for help. -/
def help : String :=
  "Usage: capture_sync [--config <FILE>] [--prefs <FILE>] [--database <FILE>] <capture|sync|list>"

end Program

/-- The program with some arguments. -/
def program (arguments : List String) : Procedure ProgramAnswer Exit :=
  match Invocation.parse arguments with
  | .error .usage => .done ⟨2, [], some Program.help⟩
  | .error .help => .done (.done [Program.help])
  | .ok i => (Program.run i).run.bind fun
    | .ok exit => .done exit
    | .error e => .done (.failed [] e)

end TripRecorder
