import TripRecorder.Json.Record

/-!
# Measurements

A measurement is one recorded trip. It is open while points are added, finished once the
recording has ended, and synced once a collector has it. It only ever moves forward.

## Main definitions

* `MeasurementId`, `Vehicle`, `MeasurementStatus`, `Measurement`
* `MeasurementStatus.canBecome` — the order of the life cycle
-/

namespace TripRecorder

open Json Record

/-- The identifier of a measurement, given by the store. -/
structure MeasurementId where
  value : Nat
deriving DecidableEq, Repr, Inhabited

/-- The decimal text of an identifier. -/
def MeasurementId.text (id : MeasurementId) : String := toString id.value

instance : Coded MeasurementId :=
  ⟨fun t => (ofTree? t).map MeasurementId.mk, fun id => .nat id.value⟩

/-- What a trip was made with. -/
inductive Vehicle where
  | bicycle | car | motorbike | bus | train | walking | unknown
deriving DecidableEq, Repr

namespace Vehicle

/-- All vehicles. -/
def all : List Vehicle := [bicycle, car, motorbike, bus, train, walking, unknown]

/-- The written name of a vehicle. -/
def name : Vehicle → String
  | bicycle => "BICYCLE"
  | car => "CAR"
  | motorbike => "MOTORBIKE"
  | bus => "BUS"
  | train => "TRAIN"
  | walking => "WALKING"
  | unknown => "UNKNOWN"

/-- The vehicle of a written name, unknown for every other text. -/
def ofName (text : String) : Vehicle := (all.find? fun v => v.name == text).getD unknown

end Vehicle

instance : Coded Vehicle := ⟨caseOf? Vehicle.all Vehicle.name, fun v => .string v.name⟩

/-- Where a measurement stands in its life cycle. -/
inductive MeasurementStatus where
  | opened | finished | synced
deriving DecidableEq, Repr

namespace MeasurementStatus

/-- All statuses in the order of the life cycle. -/
def all : List MeasurementStatus := [opened, finished, synced]

/-- The written name of a status. -/
def name : MeasurementStatus → String
  | opened => "OPEN"
  | finished => "FINISHED"
  | synced => "SYNCED"

/-- The name of a status inside a sentence. -/
def title : MeasurementStatus → String
  | opened => "Open"
  | finished => "Finished"
  | synced => "Synced"

/-- The status of a written name. -/
def ofName? (text : String) : Option MeasurementStatus := all.find? fun s => s.name == text

/-- The position in the life cycle. -/
def rank : MeasurementStatus → Nat
  | opened => 0
  | finished => 1
  | synced => 2

/-- A measurement may keep its status or move forward. -/
def canBecome (current next : MeasurementStatus) : Bool := decide (current.rank ≤ next.rank)

end MeasurementStatus

instance : Coded MeasurementStatus :=
  ⟨caseOf? MeasurementStatus.all MeasurementStatus.name, fun s => .string s.name⟩

/-- One recorded trip without its points. -/
structure Measurement where
  id : MeasurementId
  vehicle : Vehicle
  status : MeasurementStatus
  /-- The device that recorded it. -/
  device : Option String
deriving DecidableEq, Repr

instance : Coded Measurement where
  ofTree? t := do
    match ← fields? ["id", "vehicle", "status", "device_id"] t with
    | [id, vehicle, status, device] =>
      return ⟨← required MeasurementId id, ← required Vehicle vehicle,
        ← required MeasurementStatus status, ← optional String device⟩
    | _ => none
  toJson m := .object [("id", toJson m.id), ("vehicle", toJson m.vehicle),
    ("status", toJson m.status), ("device_id", toJson m.device)]

end TripRecorder
