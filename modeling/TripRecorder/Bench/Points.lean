import TripRecorder.Store.Append

/-!
# Points for a bench

Long series of points, and stores with some measurements.

## Main definitions

* `LocationSeries`, `SampleSeries` — points at equal steps
* `Store.stock` — a store with one more measurement
-/

namespace TripRecorder

/-- Locations at equal steps. -/
structure LocationSeries where
  count : Nat
  time : Int64
  timeStep : Int64
  lat : Double
  latStep : Double
  lon : Double
  lonStep : Double
  speed : Double
  accuracy : Double
deriving DecidableEq, Repr

namespace LocationSeries

/-- A value after some steps, the product and the sum each rounded once. -/
def along (start step : Double) (i : Nat) : Double :=
  Double.ofFloat (start.toFloat + i.toFloat * step.toFloat)

/-- The locations of a series. -/
def toList (s : LocationSeries) : List GeoLocation :=
  (List.range s.count).map fun (i : Nat) =>
    ⟨s.time + Int64.ofNat i * s.timeStep, along s.lat s.latStep i, along s.lon s.lonStep i,
      s.speed, s.accuracy⟩

end LocationSeries

/-- Samples at equal steps, whose kinds take turns. -/
structure SampleSeries where
  count : Nat
  kinds : Array SampleKind
  x : Double
  time : Int64
  timeStep : Int64
deriving DecidableEq, Repr

/-- The samples of a series: the second component counts them, and the third is a half. -/
def SampleSeries.toList (s : SampleSeries) : List Sample :=
  (List.range s.count).map fun (i : Nat) =>
    ⟨(s.kinds[i % s.kinds.size]?).getD .acceleration, s.x, Double.ofNat i, Double.ofRatio false 1 2,
      s.time + Int64.ofNat i * s.timeStep⟩

/-- A store with one more measurement with some locations. -/
def Store.stock (s : Store) (vehicle : Vehicle) (status : MeasurementStatus) (locations : Nat) :
    Store :=
  match s.create vehicle with
  | (.ok id, s) =>
    let series : LocationSeries := ⟨locations, 0, 1, .zero, .zero, .zero, .zero, .zero, .zero⟩
    ((s.append id (series.toList.map .location)).2.setStatus id status).2
  | (.error _, s) => s

end TripRecorder
