import TripRecorder.Measurement
import TripRecorder.Point
import TripRecorder.Json.Printer

/-!
# Messages to observers

## Main definitions

* `EventKind` — the kinds of messages with their names and codes
* `Message` — everything a recorder tells its observers
* `Message.line` — the JSON line of a message, which starts with its code
-/

namespace TripRecorder

open Json Record

/-- The kinds of messages. -/
inductive EventKind where
  | dataCaptured | locationCaptured | fixAcquired | fixLost
  | captureStarted | captureStopped | captureError
deriving DecidableEq, Repr

namespace EventKind

/-- All kinds in the order of their codes. -/
def all : List EventKind :=
  [dataCaptured, locationCaptured, fixAcquired, fixLost, captureStarted, captureStopped,
    captureError]

/-- The written name of a kind. -/
def name : EventKind → String
  | dataCaptured => "DataCaptured"
  | locationCaptured => "LocationCaptured"
  | fixAcquired => "FixAcquired"
  | fixLost => "FixLost"
  | captureStarted => "CaptureStarted"
  | captureStopped => "CaptureStopped"
  | captureError => "CaptureError"

/-- The code of a kind on a line. -/
def code : EventKind → Nat
  | dataCaptured => 1
  | locationCaptured => 2
  | fixAcquired => 3
  | fixLost => 4
  | captureStarted => 5
  | captureStopped => 6
  | captureError => 7

end EventKind

instance : Coded EventKind := ⟨caseOf? EventKind.all EventKind.name, fun k => .string k.name⟩

/-- A message to observers. -/
inductive Message where
  | data (batch : SampleBatch)
  | location (location : GeoLocation)
  | fixAcquired
  | fixLost
  | started (id : MeasurementId)
  | stopped (id : MeasurementId) (success : Bool)
  | error (reason : String)
deriving DecidableEq, Repr

namespace Message

/-- The kind of a message. -/
def kind : Message → EventKind
  | data _ => .dataCaptured
  | location _ => .locationCaptured
  | fixAcquired => .fixAcquired
  | fixLost => .fixLost
  | started _ => .captureStarted
  | stopped _ _ => .captureStopped
  | error _ => .captureError

/-- The value a message carries beside its kind. -/
def payload? : Message → Option Json
  | data batch => some (toJson batch)
  | location l => some (toJson l)
  | fixAcquired => none
  | fixLost => none
  | started id => some (.object [("measurement_id", toJson id)])
  | stopped id success =>
    some (.object [("measurement_id", toJson id), ("success", toJson success)])
  | error reason => some (.object [("reason", toJson reason)])

/-- The members of the JSON object of a message. -/
def members (m : Message) : List (String × Json) :=
  ("event", toJson m.kind) :: (m.payload?.map fun p => ("payload", p)).toList

/-- The JSON line of a message without its line break: the code comes before the other members. -/
def line (m : Message) : String :=
  compact (.object (("code", .nat m.kind.code) :: m.members))

/-! ### Reading -/

/-- The fields of a payload that has to be an object. -/
def objectFields? (names : List String) : Tree → Option (List (Option Tree))
  | .object members => ofObject? names members
  | _ => none

/-- The message of a kind with a payload. -/
def ofPayload? (kind : EventKind) (payload : Tree) : Option Message :=
  match kind with
  | .dataCaptured => (ofTree? payload).map data
  | .locationCaptured => (ofTree? payload).map location
  | .fixAcquired =>
    match payload with
    | .null => some fixAcquired
    | _ => none
  | .fixLost =>
    match payload with
    | .null => some fixLost
    | _ => none
  | .captureStarted => do
    match ← objectFields? ["measurement_id"] payload with
    | [id] => return started (← required MeasurementId id)
    | _ => none
  | .captureStopped => do
    match ← objectFields? ["measurement_id", "success"] payload with
    | [id, success] => return stopped (← required MeasurementId id) (← required Bool success)
    | _ => none
  | .captureError => do
    match ← objectFields? ["reason"] payload with
    | [reason] => return error (← required String reason)
    | _ => none

/-- The message of a kind whose payload may be missing. -/
def ofPayload (kind : EventKind) : Option Tree → Option Message
  | some payload => ofPayload? kind payload
  | none =>
    match kind with
    | .fixAcquired => some fixAcquired
    | .fixLost => some fixLost
    | _ => none

/-- Inside an object, values nest one level less deep. -/
def payloadDepth : Nat := Tree.depthLimit - 1

/-- A payload that comes before the kind is read without knowing what it should be, so all of it
has to be a proper value. -/
def readableFirst (members : List (String × Tree)) : Bool :=
  match members.filter fun m => m.1 == "event" || m.1 == "payload" with
  | ("payload", payload) :: _ => (Tree.value? payloadDepth payload).isSome
  | _ => true

/-- The message of a tree: an object with the kind and the payload in either order, or an array of
both. -/
def ofTree? : Tree → Option Message
  | .object members => do
    let members ← named? members
    let kind ← required EventKind (← field? members "event")
    let payload ← field? members "payload"
    if readableFirst members then ofPayload kind payload else none
  | .array [kind, payload] => do ofPayload? (← Coded.ofTree? kind) payload
  | _ => none

end Message

instance : Coded Message := ⟨Message.ofTree?, fun m => .object m.members⟩

end TripRecorder
