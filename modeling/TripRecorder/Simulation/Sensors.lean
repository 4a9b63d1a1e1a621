import TripRecorder.Capture.Fix
import TripRecorder.Point
import TripRecorder.Simulation.Config

/-!
# Simulated sensors

A device that swings, turns slowly in the field of the earth, and moves away from a start. Each
source reports in rounds, the first one at once and the others after one period each.

## Main definitions

* `SimulatedSource` — the sources of readings
* `SimulationConfig.motion`, `SimulationConfig.location`, `SimulationConfig.satelliteReport` — what
  they report in a round
* `SimulationConfig.fixSource` — the fix source of a simulated device
-/

namespace TripRecorder

/-- The sources of readings of a simulated device. -/
inductive SimulatedSource where
  | motion | position
deriving DecidableEq, Repr

namespace SimulatedSource

/-- All sources in the order in which they are attached. -/
def all : List SimulatedSource := [motion, position]

/-- The name of a source. -/
def name : SimulatedSource → String
  | motion => "motion-sensors"
  | position => "gps"

/-- Why a source cannot be attached a second time. -/
def attachedTwice : SimulatedSource → String
  | motion => "motion sensors already attached"
  | position => "gps already attached"

/-- Why a source cannot be attached where nothing can run in the background. -/
def withoutRuntime (s : SimulatedSource) : String := s.name ++ " needs a running tokio runtime"

end SimulatedSource

namespace Simulation

/-- Half a turn. -/
def pi : Float := 3.14159265358979323846

/-- A period in seconds. -/
def seconds (periodMs : Nat) : Float :=
  (periodMs / 1000).toFloat + (periodMs % 1000 * 1000000).toFloat / 1000000000.0

/-- A sample of machine numbers. -/
def sample (kind : SampleKind) (x y z : Float) (time : Int64) : Sample :=
  ⟨kind, .ofFloat x, .ofFloat y, .ofFloat z, time⟩

/-- The acceleration of a swing after some seconds, with the pull of the earth. -/
def acceleration (t : Float) (time : Int64) : Sample :=
  sample .acceleration ((t * 2.0 * pi).sin * 0.5) ((t * 2.0 * pi).cos * 0.3)
    (9.81 + (t * pi).sin * 0.1) time

/-- The rotation after some seconds. -/
def rotation (t : Float) (time : Int64) : Sample :=
  sample .rotation ((t * 0.5).sin * 0.05) ((t * 0.3).cos * 0.03) (t.sin * 0.1) time

/-- The field of the earth, seen from a device that turns slowly. -/
def direction (t : Float) (time : Int64) : Sample :=
  let heading := t * 0.1
  sample .direction (heading.cos * 20.0) (heading.sin * 20.0) (-43.0) time

end Simulation

namespace SimulationConfig

open Simulation

/-- The period of a source, at least one millisecond. -/
def period (c : SimulationConfig) : SimulatedSource → Nat
  | .motion => max c.sampleIntervalMs 1
  | .position => max c.gpsIntervalMs 1

/-- The samples of a round. -/
def motion (c : SimulationConfig) (round : Nat) (time : Int64) : List Sample :=
  let t := round.toFloat * seconds (c.period .motion)
  [acceleration t time] ++ (if c.gyroscope then [rotation t time] else []) ++ [direction t time]

/-- The location of a round. -/
def location (c : SimulationConfig) (round : Nat) (time : Int64) : GeoLocation :=
  let n := round.toFloat
  ⟨time, .ofFloat (c.startLat.toFloat + n * 0.00001), .ofFloat (c.startLon.toFloat + n * 0.00001),
    .ofFloat (10.0 + (n * 0.5).sin * 5.0), .ofFloat (5.0 + (n * 0.1).sin * 2.0)⟩

/-- The report of the satellites: three more are visible than are used. -/
def satelliteReport (c : SimulationConfig) : Option SatelliteStatus :=
  c.satellites.map fun n => ⟨n + 3, n⟩

/-- The fix source: the reports of satellites, or locations where there are none. -/
def fixSource (c : SimulationConfig) : FixSourceKind :=
  ((FixCandidate.select [⟨.satellite, c.satellites.isSome⟩, ⟨.location, true⟩]).map
    fun f => f.kind).getD .location

/-- What the fix source says when a location of a round has arrived. -/
def fixSignal (c : SimulationConfig) (minimum : UInt32) : FixSignal :=
  match c.satelliteReport with
  | some report => SatelliteWatcher.signal ⟨minimum⟩ report
  | none => .acquired

end SimulationConfig

end TripRecorder
