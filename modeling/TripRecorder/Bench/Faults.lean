import TripRecorder.Store.Basic

/-!
# Faults of a database

Faults that a bench puts into a store: rules by which the database refuses, and columns that hold
what no store wrote.

## Main definitions

* `Fault` — a fault, or the end of all rules
* `Store.damaged` — a store with a fault
-/

namespace TripRecorder

/-- A fault of a database. -/
inductive Fault where
  /-- Rows of a table with a time below a bound are refused. -/
  | rejectInsert (table : Table) (below : Int64) (message : String)
  /-- No row of a table can be removed. -/
  | rejectDelete (table : Table) (message : String)
  /-- No status can be changed. -/
  | rejectStatus (message : String)
  /-- No measurement can be created. -/
  | rejectCreate (message : String)
  /-- A status column holds some text. -/
  | statusText (id : MeasurementId) (text : String)
  /-- A vehicle column holds some text. -/
  | vehicleText (id : MeasurementId) (text : String)
  /-- A row of a table cannot be read. -/
  | badValue (table : Table) (number : Nat)
  /-- The database refuses nothing by rule any more. -/
  | clear
deriving DecidableEq, Repr

namespace Store

/-- A store with other rules. -/
def ruled (s : Store) (f : Rules → Rules) : Store := { s with rules := f s.rules }

/-- A store with a fault. Of two rules for one row the later one answers. -/
def damaged (s : Store) : Fault → Store
  | .rejectInsert table below message => s.ruled fun r =>
    { r with insert := fun p =>
        if p.table = table ∧ p.timestamp < below then some message else r.insert p }
  | .rejectDelete table message => s.ruled fun r =>
    { r with delete := fun t => if t = table then some message else r.delete t }
  | .rejectStatus message => s.ruled fun r => { r with setStatus := some message }
  | .rejectCreate message => s.ruled fun r => { r with create := some message }
  | .statusText id text => s.changeEntry id fun e => { e with status := StatusColumn.ofText text }
  | .vehicleText id text => s.changeEntry id fun e => { e with vehicle := Vehicle.ofName text }
  | .badValue table number =>
    { s with ledger := s.ledger.map fun r =>
        if r.point.table = table ∧ r.number = number then { r with readable := false } else r }
  | .clear => s.ruled fun _ => Rules.none

end Store

end TripRecorder
