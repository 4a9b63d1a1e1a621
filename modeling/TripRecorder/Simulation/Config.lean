import TripRecorder.Json.Record

/-!
# Configuration of simulated sensors

## Main definitions

* `SimulationConfig`
-/

namespace TripRecorder

open Json Record

/-- What the simulated sensors report. -/
structure SimulationConfig where
  sampleIntervalMs : Nat
  gpsIntervalMs : Nat
  gyroscope : Bool
  /-- Satellites in each report; without a number there are no reports. -/
  satellites : Option UInt32
  startLat : Double
  startLon : Double
deriving DecidableEq, Repr

/-- The defaults: fifty samples a second, one position a second, seven satellites. -/
def SimulationConfig.standard : SimulationConfig :=
  ⟨20, 1000, true, some 7, Double.ofRatio false 510504 10000, Double.ofRatio false 137373 10000⟩

instance : Coded SimulationConfig where
  ofTree? t := do
    let d := SimulationConfig.standard
    match ← partialFields? ["sample_interval_ms", "gps_interval_ms", "gyroscope", "satellites",
        "start_lat", "start_lon"] t with
    | [sample, gps, gyroscope, satellites, lat, lon] =>
      return ⟨← defaulted d.sampleIntervalMs sample, ← defaulted d.gpsIntervalMs gps,
        ← defaulted d.gyroscope gyroscope, ← defaulted d.satellites satellites,
        ← defaulted d.startLat lat, ← defaulted d.startLon lon⟩
    | _ => none
  toJson c := .object [("sample_interval_ms", toJson c.sampleIntervalMs),
    ("gps_interval_ms", toJson c.gpsIntervalMs), ("gyroscope", toJson c.gyroscope),
    ("satellites", toJson c.satellites), ("start_lat", toJson c.startLat),
    ("start_lon", toJson c.startLon)]

end TripRecorder
