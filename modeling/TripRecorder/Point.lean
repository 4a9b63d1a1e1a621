import TripRecorder.Json.Record
import TripRecorder.Chunks

/-!
# Points

What a trip is made of: positions, and samples of sensors with three axes.

## Main definitions

* `GeoLocation` — a position with its speed and accuracy
* `SampleKind`, `Sample` — a reading of one of the sensors
* `SampleBatch` — samples sorted by kind
* `SampleBatch.chunks` — a batch cut into batches of bounded size
-/

namespace TripRecorder

open Json Record

/-- A position at a time. -/
structure GeoLocation where
  /-- Milliseconds since the epoch. -/
  timestamp : Int64
  lat : Double
  lon : Double
  /-- Metres per second. -/
  speed : Double
  /-- Metres. -/
  accuracy : Double
deriving DecidableEq, Repr

instance : Coded GeoLocation where
  ofTree? t := do
    match ← fields? ["timestamp_ms", "lat", "lon", "speed", "accuracy"] t with
    | [timestamp, lat, lon, speed, accuracy] =>
      return ⟨← required Int64 timestamp, ← required Double lat, ← required Double lon,
        ← required Double speed, ← required Double accuracy⟩
    | _ => none
  toJson l := .object [("timestamp_ms", toJson l.timestamp), ("lat", toJson l.lat),
    ("lon", toJson l.lon), ("speed", toJson l.speed), ("accuracy", toJson l.accuracy)]

/-- The sensors with three axes. -/
inductive SampleKind where
  | acceleration | rotation | direction
deriving DecidableEq, Repr

namespace SampleKind

/-- All kinds in the order in which they are written. -/
def all : List SampleKind := [acceleration, rotation, direction]

/-- The written name of a kind. -/
def name : SampleKind → String
  | acceleration => "acceleration"
  | rotation => "rotation"
  | direction => "direction"

end SampleKind

instance : Coded SampleKind := ⟨caseOf? SampleKind.all SampleKind.name, fun k => .string k.name⟩

/-- A reading of one sensor. -/
structure Sample where
  kind : SampleKind
  x : Double
  y : Double
  z : Double
  /-- Milliseconds since the epoch. -/
  timestamp : Int64
deriving DecidableEq, Repr

instance : Coded Sample where
  ofTree? t := do
    match ← fields? ["kind", "x", "y", "z", "timestamp_ms"] t with
    | [kind, x, y, z, timestamp] =>
      return ⟨← required SampleKind kind, ← required Double x, ← required Double y,
        ← required Double z, ← required Int64 timestamp⟩
    | _ => none
  toJson s := .object [("kind", toJson s.kind), ("x", toJson s.x), ("y", toJson s.y),
    ("z", toJson s.z), ("timestamp_ms", toJson s.timestamp)]

/-- Samples that were released together, sorted by kind. -/
structure SampleBatch where
  accelerations : List Sample
  rotations : List Sample
  directions : List Sample
deriving DecidableEq, Repr

instance : Coded SampleBatch where
  ofTree? t := do
    match ← fields? ["accelerations", "rotations", "directions"] t with
    | [accelerations, rotations, directions] =>
      return ⟨← required (List Sample) accelerations, ← required (List Sample) rotations,
        ← required (List Sample) directions⟩
    | _ => none
  toJson b := .object [("accelerations", toJson b.accelerations),
    ("rotations", toJson b.rotations), ("directions", toJson b.directions)]

namespace SampleBatch

/-- No samples. -/
def empty : SampleBatch := ⟨[], [], []⟩

/-- The samples of a kind. -/
def ofKind (b : SampleBatch) : SampleKind → List Sample
  | .acceleration => b.accelerations
  | .rotation => b.rotations
  | .direction => b.directions

/-- The samples of a list sorted by kind, in the order of the list. -/
def ofSamples (samples : List Sample) : SampleBatch where
  accelerations := samples.filter fun s => s.kind = .acceleration
  rotations := samples.filter fun s => s.kind = .rotation
  directions := samples.filter fun s => s.kind = .direction

/-- All samples: accelerations, then rotations, then directions. -/
def toList (b : SampleBatch) : List Sample := b.accelerations ++ b.rotations ++ b.directions

/-- The number of samples of all kinds. -/
def size (b : SampleBatch) : Nat :=
  b.accelerations.length + b.rotations.length + b.directions.length

/-- A batch cut into batches of at most `limit` samples, zero counting as one. A batch that is
small enough stays as it is; in the pieces of a larger one every sample is sorted by its kind
again. -/
def chunks (limit : Nat) (b : SampleBatch) : List SampleBatch :=
  if b.size = 0 then []
  else if b.size ≤ max limit 1 then [b]
  else (inChunks limit b.toList).map ofSamples

end SampleBatch

end TripRecorder
