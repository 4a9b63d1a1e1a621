import TripRecorder.Measurement

/-!
# Arguments

Options of the program come before its command, and options of the command after it. An option that
takes a value takes the next argument, or what follows an equals sign. No option is given twice.

## Main definitions

* `Invocation`, `Command` — what the program is to do
* `Invocation.parse` — the invocation of some arguments
-/

namespace TripRecorder

/-- What the program is to do. -/
inductive Command where
  /-- Record a trip, for some seconds or until it is interrupted. -/
  | capture (vehicle : Vehicle) (seconds : Nat) (stream : Bool) (status : String)
  /-- Send finished measurements, once or again and again. -/
  | sync (account : String) (token endpoint : Option String) (watch : Bool)
  | list
deriving DecidableEq, Repr

/-- A command with the files it works on. -/
structure Invocation where
  config : String
  prefs : String
  /-- The file of the store, in place of the one of the configuration. -/
  database : Option String
  command : Command
deriving DecidableEq, Repr

/-- Why there is nothing to do. -/
inductive ArgumentsError where
  /-- The arguments cannot be understood. -/
  | usage
  /-- They ask for help. -/
  | help
deriving DecidableEq, Repr

/-- What follows the name of an option. -/
inductive OptionKind where
  | flag
  | text
  /-- A text that is not empty. -/
  | path
deriving DecidableEq, Repr

/-- Options with their values. -/
abbrev OptionValues := List (String × String)

namespace Arguments

/-- The name of an option and the value attached to it by an equals sign. -/
def splitAttached (argument : List Char) : String × Option String :=
  let value := argument.dropWhile fun c => c != '='
  (String.ofList (argument.takeWhile fun c => c != '='),
    match value with
    | [] => none
    | _ :: rest => some (String.ofList rest))

/-- An argument that can be a value although nothing attaches it: it does not look like an
option. -/
def isValue (argument : String) : Bool :=
  match argument.toList with
  | '-' :: _ :: _ => false
  | _ => true

/-- One more value of an option. -/
def addValue (kind : OptionKind) (name value : String) (done : OptionValues) :
    Except ArgumentsError OptionValues :=
  if (kind = .path ∧ value = "") ∨ (done.lookup name).isSome then .error .usage
  else .ok (done ++ [(name, value)])

/-- Takes options, those in `done` being taken already. Answers them with what follows the last one,
beginning with a word. After two hyphens nothing may follow. -/
def takeOptions (kinds : List (String × OptionKind)) (done : OptionValues) :
    List String → Except ArgumentsError (OptionValues × List String)
  | [] => .ok (done, [])
  | argument :: rest =>
    match argument.toList with
    | ['-', '-'] => if rest.isEmpty then .ok (done, []) else .error .usage
    | '-' :: '-' :: option =>
      let (name, attached) := splitAttached option
      if name = "help" then .error (if attached.isNone then .help else .usage)
      else
        match kinds.lookup name, attached with
        | none, _ => .error .usage
        | some .flag, some _ => .error .usage
        | some .flag, none =>
          (addValue .flag name "" done).bind fun done => takeOptions kinds done rest
        | some kind, some value =>
          (addValue kind name value done).bind fun done => takeOptions kinds done rest
        | some kind, none =>
          match rest with
          | [] => .error .usage
          | value :: rest =>
            if isValue value then
              (addValue kind name value done).bind fun done => takeOptions kinds done rest
            else .error .usage
    | ['-', 'h'] => .error .help
    | '-' :: _ :: _ => .error .usage
    | _ => .ok (done, argument :: rest)

/-- The options of the program. -/
def programOptions : List (String × OptionKind) :=
  [("config", .path), ("prefs", .path), ("database", .path)]

/-- The options of a command, by its name. -/
def commandOptions : List (String × List (String × OptionKind)) :=
  [("capture", [("vehicle", .text), ("seconds", .text), ("stream", .flag), ("status", .path)]),
    ("sync", [("account", .text), ("token", .text), ("endpoint", .text), ("watch", .flag)]),
    ("list", [])]

/-- The vehicle of a name in lower case. -/
def vehicle? (text : String) : Option Vehicle :=
  Vehicle.all.find? fun v => v.name.map Char.toLower == text

/-- Counts of seconds are below this bound. -/
def secondsBound : Nat := UInt64.size

/-- The number of seconds of a text, with or without a plus sign. -/
def seconds? (text : String) : Option Nat :=
  let digits := match text.toList with
    | '+' :: rest => rest
    | all => all
  if digits.isEmpty || !digits.all Char.isDigit then none
  else
    let n := digits.foldl (fun n c => 10 * n + (c.toNat - 48)) 0
    if n < secondsBound then some n else none

/-- A command with its options. -/
def commandOf (name : String) (values : OptionValues) : Except ArgumentsError Command :=
  match name with
  | "capture" =>
    match vehicle? ((values.lookup "vehicle").getD "bicycle"),
        seconds? ((values.lookup "seconds").getD "0") with
    | some vehicle, some seconds =>
      .ok (.capture vehicle seconds (values.lookup "stream").isSome
        ((values.lookup "status").getD "capture_status.json"))
    | _, _ => .error .usage
  | "sync" =>
    .ok (.sync ((values.lookup "account").getD "default") (values.lookup "token")
      (values.lookup "endpoint") (values.lookup "watch").isSome)
  | _ => .ok .list

end Arguments

open Arguments in
/-- The invocation of some arguments. -/
def Invocation.parse (arguments : List String) : Except ArgumentsError Invocation := do
  let (values, rest) ← takeOptions programOptions [] arguments
  match rest with
  | [] => throw .usage
  | "help" :: topics =>
    match topics with
    | [] => throw .help
    | [topic] =>
      throw (if topic = "help" ∨ (commandOptions.lookup topic).isSome then .help else .usage)
    | _ => throw .usage
  | name :: rest =>
    match commandOptions.lookup name with
    | none => throw .usage
    | some kinds =>
      let (own, left) ← takeOptions kinds [] rest
      if left.isEmpty then
        return ⟨(values.lookup "config").getD "capture_sync.json",
          (values.lookup "prefs").getD "capture_sync_prefs.json", values.lookup "database",
          ← commandOf name own⟩
      else throw .usage

end TripRecorder
