import TripRecorder.Store.Basic

/-!
# Adding points

Points are added in batches, each of them one transaction. The status of the measurement is looked
at once before the first batch.

## Main definitions

* `appendPoints` — the procedure that adds points to a measurement
* `Store.append` — its result when nothing else happens to the store
-/

namespace TripRecorder

/-- What was written. -/
structure AppendReport where
  /-- Transactions. -/
  batches : Nat
  points : Nat
deriving DecidableEq, Repr

/-- Writes batches one after another, `done` being written already, until one is refused. -/
def writeBatches (id : MeasurementId) (done : AppendReport) :
    List (List Point) → Procedure StoreAnswer (Except StoreError AppendReport)
  | [] => .done (.ok done)
  | batch :: rest => .call (.insert id batch) fun
    | .error refusal => .done (.error (.partialWrite id done.batches done.points refusal))
    | .ok () => writeBatches id ⟨done.batches + 1, done.points + batch.length⟩ rest

/-- Adds points to an open measurement in batches of at most `batchLimit`. No points need no
measurement. -/
def appendPoints (batchLimit : Nat) (id : MeasurementId) (points : List Point) :
    Procedure StoreAnswer (Except StoreError AppendReport) :=
  if points.isEmpty then .done (.ok ⟨0, 0⟩)
  else .call (.status id) fun
    | .error e => .done (.error e)
    | .ok status =>
      if status = .opened then writeBatches id ⟨0, 0⟩ (inChunks batchLimit points)
      else .done (.error (.notOpen id status))

/-- Adds points while nothing else happens to the store. -/
def Store.append (s : Store) (id : MeasurementId) (points : List Point) :
    Except StoreError AppendReport × Store :=
  (appendPoints s.batchLimit id points).run Store.serve s

end TripRecorder
