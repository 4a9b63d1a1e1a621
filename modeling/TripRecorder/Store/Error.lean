import TripRecorder.Measurement

/-!
# Store errors

## Main definitions

* `StoreError` — why the store refused
* `StoreError.name`, `StoreError.message` — its name and its text
-/

namespace TripRecorder

/-- Why the store refused. -/
inductive StoreError where
  /-- The database refused, for a reason of its own. -/
  | database (detail : String)
  | noSuchMeasurement (id : MeasurementId)
  /-- A measurement does not move back. -/
  | statusRegression (id : MeasurementId) (current target : MeasurementStatus)
  /-- A batch was refused after others were written. -/
  | partialWrite (id : MeasurementId) (batches points : Nat) (refusal : String)
  /-- Points are added to open measurements only. -/
  | notOpen (id : MeasurementId) (status : MeasurementStatus)
  /-- The status column holds a text that is no status. -/
  | corrupt (status : String)
deriving DecidableEq, Repr

namespace StoreError

/-- The name of an error. -/
def name : StoreError → String
  | database _ => "Database"
  | noSuchMeasurement _ => "NoSuchMeasurement"
  | statusRegression _ _ _ => "StatusRegression"
  | partialWrite _ _ _ _ => "PartialWrite"
  | notOpen _ _ => "NotOpen"
  | corrupt _ => "Corrupt"

/-- The text of an error. -/
def message : StoreError → String
  | database detail => s!"Database error: {detail}"
  | noSuchMeasurement id => s!"No measurement with identifier {id.value}"
  | statusRegression id current target =>
    s!"Measurement {id.value} cannot move from {current.title} to {target.title}"
  | partialWrite id batches points refusal =>
    s!"Write for measurement {id.value} failed after {batches} batches ({points} points): {refusal}"
  | notOpen id status =>
    s!"Measurement {id.value} is {status.title}; points can only be added while it is open"
  | corrupt status => s!"Corrupt row: unknown status {status}"

/-- The error says no more than that the database refused. -/
def isDatabase : StoreError → Bool
  | database _ => true
  | _ => false

end StoreError

end TripRecorder
