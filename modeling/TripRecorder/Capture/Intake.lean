import TripRecorder.Capture.Error
import TripRecorder.Capture.Fix
import TripRecorder.Point

/-!
# The intake of a capture

The intake turns readings of sensors into events: a fix that changed, a position that was not seen
lately, a batch of samples that is large enough or old enough.

## Main definitions

* `Reading`, `CaptureEvent` — what comes in and what goes out
* `RecentPositions` — the positions that count as seen
* `Intake` — fix, recent positions, and buffered samples
* `Intake.handle`, `Intake.tick`, `Intake.flush`, `Intake.reset` — its moves
-/

namespace TripRecorder

/-- What sensors report. -/
inductive Reading where
  | fix (signal : FixSignal)
  | location (value : GeoLocation)
  | sample (value : Sample)
  /-- A source stopped working. -/
  | unavailable (source reason : String)
deriving DecidableEq, Repr

/-- What a capture emits. -/
inductive CaptureEvent where
  | location (value : GeoLocation)
  | data (batch : SampleBatch)
  | fixAcquired
  | fixLost
  | failed (error : CaptureError)
deriving DecidableEq, Repr

/-- The event of a fix that changed. -/
def CaptureEvent.ofSignal : FixSignal → CaptureEvent
  | .acquired => fixAcquired
  | .lost => fixLost

/-! ### Recent positions -/

/-- Two locations with one key are one position. -/
structure PositionKey where
  timestamp : Int64
  lat : Double
  lon : Double
deriving DecidableEq, Repr

/-- The key of a location. -/
def GeoLocation.key (l : GeoLocation) : PositionKey := ⟨l.timestamp, l.lat, l.lon⟩

/-- The positions that count as seen: an index for looking them up, and their order of arrival. -/
structure RecentPositions where
  index : List PositionKey
  /-- The oldest comes first. -/
  order : List PositionKey
deriving DecidableEq, Repr

namespace RecentPositions

/-- So many positions are remembered. -/
def capacity : Nat := 256

/-- No position was seen. -/
def none : RecentPositions := ⟨[], []⟩

/-- Forgets the oldest position if there are more than are remembered. -/
def trim (w : RecentPositions) : RecentPositions :=
  match w.order with
  | [] => w
  | oldest :: rest =>
    if capacity < w.order.length then ⟨w.index.erase oldest, rest⟩ else w

/-- The positions after one more, or nothing if it counts as seen. -/
def remember? (w : RecentPositions) (key : PositionKey) : Option RecentPositions :=
  if w.index.contains key then .none else some (trim ⟨key :: w.index, w.order ++ [key]⟩)

end RecentPositions

/-! ### Intake -/

/-- The state of a capture. -/
structure Intake where
  fix : FixState
  recent : RecentPositions
  /-- Samples that wait to be released. -/
  buffer : SampleBatch
  /-- So many samples are released at once. -/
  threshold : Nat
  /-- Samples are released at a tick this long after the last release. -/
  intervalMs : Nat
  lastFlush : Nat
deriving DecidableEq, Repr

/-- A batch with one more sample. -/
def SampleBatch.push (b : SampleBatch) (s : Sample) : SampleBatch :=
  match s.kind with
  | .acceleration => { b with accelerations := b.accelerations ++ [s] }
  | .rotation => { b with rotations := b.rotations ++ [s] }
  | .direction => { b with directions := b.directions ++ [s] }

namespace Intake

/-- A new intake. A threshold of zero counts as one. -/
def fresh (threshold intervalMs now : Nat) : Intake :=
  ⟨.noFix, RecentPositions.none, SampleBatch.empty, max threshold 1, intervalMs, now⟩

/-- Releases the buffered samples, if there are any. -/
def flush (i : Intake) (now : Nat) : Intake × List CaptureEvent :=
  ({ i with lastFlush := now, buffer := SampleBatch.empty },
    if i.buffer.size = 0 then [] else [.data i.buffer])

/-- Takes in a reading. -/
def handle (i : Intake) (now : Nat) : Reading → Intake × List CaptureEvent
  | .fix signal =>
    let (fix, change) := i.fix.after signal
    ({ i with fix := fix }, (change.map CaptureEvent.ofSignal).toList)
  | .location l =>
    match i.recent.remember? l.key with
    | some recent => ({ i with recent := recent }, [.location l])
    | none => (i, [])
  | .sample s =>
    let i := { i with buffer := i.buffer.push s }
    if i.threshold ≤ i.buffer.size then i.flush now else (i, [])
  | .unavailable source reason => (i, [.failed (.capabilityUnavailable s!"{source}: {reason}")])

/-- Releases the buffered samples if the last release is long enough ago. -/
def tick (i : Intake) (now : Nat) : Intake × List CaptureEvent :=
  if i.intervalMs ≤ now - i.lastFlush then i.flush now else (i, [])

/-- Forgets the fix and the recent positions. -/
def reset (i : Intake) : Intake := { i with fix := .noFix, recent := RecentPositions.none }

/-- Takes in readings one after another. -/
def handleAll (i : Intake) (now : Nat) : List Reading → Intake × List CaptureEvent
  | [] => (i, [])
  | r :: rest =>
    let (i, first) := i.handle now r
    let (i, others) := handleAll i now rest
    (i, first ++ others)

end Intake

end TripRecorder
