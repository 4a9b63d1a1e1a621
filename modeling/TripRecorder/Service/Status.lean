import TripRecorder.Service.Session
import TripRecorder.Json.Printer

/-!
# Status of the recorder

## Main definitions

* `ServiceStatus` — the answer of the recorder to a question for its state
* `StopReport` — the answer to a stop
* `Snapshot` — a status for display, with a time and an uptime
-/

namespace TripRecorder

open Json Record

/-- The state of the recorder. -/
structure ServiceStatus where
  state : SessionState
  measurement : Option MeasurementId
  stats : SessionStats
deriving DecidableEq, Repr

instance : Coded ServiceStatus where
  ofTree? t := do
    match ← fields? ["state", "measurement_id", "stats"] t with
    | [state, measurement, stats] =>
      return ⟨← required SessionState state, ← optional MeasurementId measurement,
        ← required SessionStats stats⟩
    | _ => none
  toJson s := .object [("state", toJson s.state), ("measurement_id", toJson s.measurement),
    ("stats", toJson s.stats)]

/-- What a completed stop reports. -/
structure StopReport where
  measurement : MeasurementId
  /-- The measurement was marked finished. -/
  success : Bool
  persistenceFailures : Nat
deriving DecidableEq, Repr

instance : Coded StopReport where
  ofTree? t := do
    match ← fields? ["measurement_id", "success", "persistence_failures"] t with
    | [measurement, success, failures] =>
      return ⟨← required MeasurementId measurement, ← required Bool success,
        ← required Nat failures⟩
    | _ => none
  toJson r := .object [("measurement_id", toJson r.measurement), ("success", toJson r.success),
    ("persistence_failures", toJson r.persistenceFailures)]

/-- A status for display. -/
structure Snapshot where
  timestamp : String
  uptimeSeconds : Nat
  status : ServiceStatus
deriving DecidableEq, Repr

namespace Snapshot

instance : Coded Snapshot where
  ofTree? t := do
    match ← fields? ["timestamp", "state", "measurement_id", "uptime_seconds",
        "locations_captured", "samples_captured", "chunks_delivered", "persistence_failures",
        "capture_failures"] t with
    | [timestamp, state, measurement, uptime, locations, samples, chunks, unsaved, failures] =>
      let timestamp ← required String timestamp
      let state ← required SessionState state
      let measurement ← optional MeasurementId measurement
      let uptime ← required Nat uptime
      let stats : SessionStats := ⟨← required Nat locations, ← required Nat samples,
        ← required Nat chunks, ← required Nat unsaved, ← required Nat failures⟩
      return ⟨timestamp, uptime, ⟨state, measurement, stats⟩⟩
    | _ => none
  toJson s :=
    let stats := s.status.stats
    .object [("timestamp", toJson s.timestamp), ("state", toJson s.status.state),
      ("measurement_id", toJson s.status.measurement), ("uptime_seconds", toJson s.uptimeSeconds),
      ("locations_captured", toJson stats.locationsCaptured),
      ("samples_captured", toJson stats.samplesCaptured),
      ("chunks_delivered", toJson stats.chunksDelivered),
      ("persistence_failures", toJson stats.persistenceFailures),
      ("capture_failures", toJson stats.captureFailures)]

/-- Nothing failed to be stored or captured. -/
def isHealthy (s : Snapshot) : Bool :=
  s.status.stats.persistenceFailures == 0 && s.status.stats.captureFailures == 0

/-- The text saved for a snapshot. -/
def text (s : Snapshot) : String := pretty (toJson s)

end Snapshot

end TripRecorder
