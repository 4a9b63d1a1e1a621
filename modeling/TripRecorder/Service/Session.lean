import TripRecorder.Capture.Error
import TripRecorder.Measurement

/-!
# Sessions

A session is the time in which one measurement is recorded, pauses included. It is prepared before
the sensors are attached and wound down after they are detached.

## Main definitions

* `SessionState` — the five states
* `Session` — a state and the measurement attached to it
* `Session.beginStart`, `Session.confirmStart`, `Session.abortStart`, `Session.pause`,
  `Session.resume`, `Session.beginStop`, `Session.finishStop` — the moves between them
* `SessionStats` — the counters of a session
-/

namespace TripRecorder

open Json Record

/-- The states of a session. -/
inductive SessionState where
  /-- No measurement is attached. -/
  | idle
  /-- A measurement is attached, the sensors are not. -/
  | starting
  /-- The sensors are attached. -/
  | running
  /-- The sensors are detached for a while. -/
  | paused
  /-- The last readings are stored. -/
  | stopping
deriving DecidableEq, Repr

namespace SessionState

/-- All states. -/
def all : List SessionState := [idle, starting, running, paused, stopping]

/-- The written name of a state. -/
def name : SessionState → String
  | idle => "Idle"
  | starting => "Starting"
  | running => "Running"
  | paused => "Paused"
  | stopping => "Stopping"

end SessionState

instance : Coded SessionState :=
  ⟨caseOf? SessionState.all SessionState.name, fun s => .string s.name⟩

/-- The counters of a session. -/
structure SessionStats where
  locationsCaptured : Nat
  samplesCaptured : Nat
  chunksDelivered : Nat
  /-- Locations and chunks of samples that could not be stored. -/
  persistenceFailures : Nat
  captureFailures : Nat
deriving DecidableEq, Repr

/-- The counters at the start of a session. -/
def SessionStats.zero : SessionStats := ⟨0, 0, 0, 0, 0⟩

instance : Coded SessionStats where
  ofTree? t := do
    match ← fields? ["locations_captured", "samples_captured", "chunks_delivered",
        "persistence_failures", "capture_failures"] t with
    | [locations, samples, chunks, unsaved, failures] =>
      return ⟨← required Nat locations, ← required Nat samples, ← required Nat chunks,
        ← required Nat unsaved, ← required Nat failures⟩
    | _ => none
  toJson s := .object [("locations_captured", toJson s.locationsCaptured),
    ("samples_captured", toJson s.samplesCaptured), ("chunks_delivered", toJson s.chunksDelivered),
    ("persistence_failures", toJson s.persistenceFailures),
    ("capture_failures", toJson s.captureFailures)]

/-- A state and the measurement attached to it. -/
structure Session where
  state : SessionState
  measurement : Option MeasurementId
deriving DecidableEq, Repr

namespace Session

/-- The session before the first start. -/
def idle : Session := ⟨.idle, none⟩

/-- A measurement is recorded and has to be finished. -/
def isActive (s : Session) : Bool := s.state = .running || s.state = .paused

/-- The error of a request that does not fit a state. -/
def refusal (action : String) (state : SessionState) : CaptureError :=
  .invalidState s!"cannot {action} while {state.name}"

/-- A request that moves a session on if it is in one of some states. -/
def move (s : Session) (action : String) (sources : List SessionState) (target : SessionState) :
    Except CaptureError (MeasurementId × Session) :=
  match s.measurement with
  | some id =>
    if s.state ∈ sources then .ok (id, { s with state := target })
    else .error (refusal action s.state)
  | none => .error (refusal action s.state)

/-- An idle session gets a measurement. -/
def beginStart (s : Session) (id : MeasurementId) : Except CaptureError Session :=
  if s.state = .idle then .ok ⟨.starting, some id⟩ else .error (refusal "start" s.state)

/-- The sensors are attached. -/
def confirmStart (s : Session) : Except CaptureError (MeasurementId × Session) :=
  s.move "confirm start" [.starting] .running

/-- The start came to nothing. -/
def abortStart (s : Session) : Session := if s.state = .starting then idle else s

/-- A running session pauses. -/
def pause (s : Session) : Except CaptureError (MeasurementId × Session) :=
  s.move "pause" [.running] .paused

/-- A paused session goes on. -/
def resume (s : Session) : Except CaptureError (MeasurementId × Session) :=
  s.move "resume" [.paused] .running

/-- A running or paused session is wound down. -/
def beginStop (s : Session) : Except CaptureError (MeasurementId × Session) :=
  s.move "stop" [.running, .paused] .stopping

/-- The measurement is finished. -/
def finishStop (s : Session) : Session := if s.state = .stopping then idle else s

end Session

end TripRecorder
