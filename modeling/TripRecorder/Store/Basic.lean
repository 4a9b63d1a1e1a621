import TripRecorder.Point
import TripRecorder.Store.Error
import TripRecorder.Procedure

/-!
# The store

The store keeps measurements and a ledger of their points. The ledger is one sequence of rows;
every row belongs to one of four tables and is numbered within it. Each operation here happens at
once: nothing comes between reading and writing.

## Main definitions

* `Table`, `Point`, `Row` — the tables and what their rows hold
* `Point.kept`, `Point.StoredAs` — what the columns of a table make of a point
* `Rules` — what the database refuses
* `Store` — measurements and points
* `Store.create`, `Store.setStatus`, `Store.insert`, `Store.clean` — changes
* `Store.load`, `Store.all`, `Store.page`, `Store.count`, `Store.syncable` — questions
* `StoreCall`, `Store.serve` — the operations as calls of a procedure
-/

namespace TripRecorder

/-- The tables of points. -/
inductive Table where
  | locations
  | samples (kind : SampleKind)
deriving DecidableEq, Repr

namespace Table

/-- All tables in the order in which they are written and emptied. -/
def all : List Table :=
  [locations, samples .acceleration, samples .rotation, samples .direction]

/-- The name of a table. -/
def name : Table → String
  | locations => "geo_location"
  | samples kind => kind.name

/-- The table of a name. -/
def ofName? (text : String) : Option Table := all.find? fun t => t.name == text

end Table

/-- What a row holds. -/
inductive Point where
  | location (value : GeoLocation)
  | sample (value : Sample)
deriving DecidableEq, Repr

namespace Point

/-- The table a point belongs to. -/
def table : Point → Table
  | location _ => .locations
  | sample s => .samples s.kind

/-- The time of a point. -/
def timestamp : Point → Int64
  | location l => l.timestamp
  | sample s => s.timestamp

/-- The columns of a point with their values. -/
def columns : Point → List (String × Double)
  | location l => [("lat", l.lat), ("lon", l.lon), ("speed", l.speed), ("accuracy", l.accuracy)]
  | sample s => [("x", s.x), ("y", s.y), ("z", s.z)]

/-- The first column whose value is not a number: none can be stored. -/
def missingColumn? (p : Point) : Option String :=
  (p.columns.find? fun c => c.2.isNaN).map fun c => c.1

/-- The point as the columns keep it. -/
def kept : Point → Point
  | location l =>
    location { l with lat := l.lat.kept, lon := l.lon.kept, speed := l.speed.kept,
                      accuracy := l.accuracy.kept }
  | sample s => sample { s with x := s.x.kept, y := s.y.kept, z := s.z.kept }

/-- A point is stored as another one: the same, unless zeros have lost their signs. -/
def StoredAs : Point → Point → Prop
  | location l, location k =>
    k.timestamp = l.timestamp ∧ l.lat.StoredAs k.lat ∧ l.lon.StoredAs k.lon ∧
      l.speed.StoredAs k.speed ∧ l.accuracy.StoredAs k.accuracy
  | sample s, sample r =>
    r.kind = s.kind ∧ r.timestamp = s.timestamp ∧
      s.x.StoredAs r.x ∧ s.y.StoredAs r.y ∧ s.z.StoredAs r.z
  | _, _ => False

theorem storedAs_kept (p : Point) : p.StoredAs p.kept := by
  cases p with
  | location l =>
    exact ⟨rfl, l.lat.storedAs_kept, l.lon.storedAs_kept, l.speed.storedAs_kept,
      l.accuracy.storedAs_kept⟩
  | sample s => exact ⟨rfl, rfl, s.x.storedAs_kept, s.y.storedAs_kept, s.z.storedAs_kept⟩

end Point

/-- A stored point. -/
structure Row where
  owner : MeasurementId
  /-- Its number within its table. Numbers are not used twice. -/
  number : Nat
  point : Point
  /-- It can be read back. -/
  readable : Bool
deriving DecidableEq, Repr

/-- The text in a status column. -/
inductive StatusColumn where
  | known (status : MeasurementStatus)
  | unknown (text : String)
deriving DecidableEq, Repr

/-- The column of a text. -/
def StatusColumn.ofText (text : String) : StatusColumn :=
  match MeasurementStatus.ofName? text with
  | some status => known status
  | none => unknown text

/-- A stored measurement. -/
structure Entry where
  id : MeasurementId
  vehicle : Vehicle
  status : StatusColumn
  device : Option String
deriving DecidableEq, Repr

/-- What the database refuses, each time with the text it answers. -/
structure Rules where
  insert : Point → Option String
  delete : Table → Option String
  setStatus : Option String
  create : Option String

/-- A database that refuses nothing by rule. -/
def Rules.none : Rules := ⟨fun _ => .none, fun _ => .none, .none, .none⟩

/-- The highest number given out in each table. -/
structure Counters where
  locations : Nat
  accelerations : Nat
  rotations : Nat
  directions : Nat
deriving DecidableEq, Repr

namespace Counters

/-- The highest number given out in a table. -/
def get (c : Counters) : Table → Nat
  | .locations => c.locations
  | .samples .acceleration => c.accelerations
  | .samples .rotation => c.rotations
  | .samples .direction => c.directions

/-- One more number given out in a table. -/
def increment (c : Counters) : Table → Counters
  | .locations => { c with locations := c.locations + 1 }
  | .samples .acceleration => { c with accelerations := c.accelerations + 1 }
  | .samples .rotation => { c with rotations := c.rotations + 1 }
  | .samples .direction => { c with directions := c.directions + 1 }

end Counters

/-- Measurements and their points. -/
structure Store where
  /-- The device recorded with new measurements. -/
  device : Option String
  /-- The most rows one transaction writes, at least one. -/
  batchLimit : Nat
  /-- The most rows one page holds, at least one. -/
  queryLimit : Nat
  /-- The measurements in the order of their identifiers. -/
  entries : List Entry
  /-- The points in the order of their insertion. -/
  ledger : Array Row
  counters : Counters
  rules : Rules

namespace Store

/-- A store without measurements. Limits of zero count as one. -/
def empty (device : Option String) (batchLimit queryLimit : Nat) : Store where
  device := device
  batchLimit := max batchLimit 1
  queryLimit := max queryLimit 1
  entries := []
  ledger := #[]
  counters := ⟨0, 0, 0, 0⟩
  rules := Rules.none

/-- The same content opened with other limits and for another device. -/
def reopen (s : Store) (device : Option String) (batchLimit queryLimit : Nat) : Store :=
  { s with device := device, batchLimit := max batchLimit 1, queryLimit := max queryLimit 1 }

/-! ### Measurements -/

/-- The measurement with an identifier. -/
def entry? (s : Store) (id : MeasurementId) : Option Entry := s.entries.find? fun e => e.id = id

/-- A measurement as it is loaded. -/
def ofEntry (e : Entry) : Except StoreError Measurement :=
  match e.status with
  | .known status => .ok ⟨e.id, e.vehicle, status, e.device⟩
  | .unknown text => .error (.corrupt text)

/-- The identifier after the highest one. -/
def nextId (s : Store) : MeasurementId :=
  ⟨(s.entries.map fun e => e.id.value).foldl max 0 + 1⟩

/-- A new open measurement. -/
def create (s : Store) (vehicle : Vehicle) : Except StoreError MeasurementId × Store :=
  match s.rules.create with
  | some refusal => (.error (.database refusal), s)
  | none =>
    let e : Entry := ⟨s.nextId, vehicle, .known .opened, s.device⟩
    (.ok e.id, { s with entries := s.entries ++ [e] })

/-- The measurement with an identifier. -/
def load (s : Store) (id : MeasurementId) : Except StoreError Measurement :=
  match s.entry? id with
  | some e => ofEntry e
  | none => .error (.noSuchMeasurement id)

/-- All measurements in the order of their identifiers. -/
def all (s : Store) : Except StoreError (List Measurement) := s.entries.mapM ofEntry

/-- The highest open measurement. -/
def lastOpen (s : Store) : Option MeasurementId :=
  (s.entries.reverse.find? fun e => e.status = .known .opened).map fun e => e.id

/-- The status of a measurement. -/
def status (s : Store) (id : MeasurementId) : Except StoreError MeasurementStatus :=
  (s.load id).map fun m => m.status

/-- Measurements that are finished and not yet with the collector, in the order of their
identifiers. -/
def syncable (s : Store) : List MeasurementId :=
  (s.entries.filter fun e => e.status = .known .finished).map fun e => e.id

/-- A change of the measurement with an identifier. -/
def changeEntry (s : Store) (id : MeasurementId) (f : Entry → Entry) : Store :=
  { s with entries := s.entries.map fun e => if e.id = id then f e else e }

/-- Moves a measurement to a status. The status it has already is no change. -/
def setStatus (s : Store) (id : MeasurementId) (target : MeasurementStatus) :
    Except StoreError Unit × Store :=
  match s.status id with
  | .error e => (.error e, s)
  | .ok current =>
    if current.canBecome target then
      if current = target then (.ok (), s)
      else
        match s.rules.setStatus with
        | some refusal => (.error (.database refusal), s)
        | none => (.ok (), s.changeEntry id fun e => { e with status := .known target })
    else (.error (.statusRegression id current target), s)

/-! ### Points -/

/-- Why the database refuses a point: a rule of its own, or a value that is not a number. -/
def refusal? (s : Store) (p : Point) : Option String :=
  match s.rules.insert p with
  | some refusal => some refusal
  | none =>
    p.missingColumn?.map fun column => s!"NOT NULL constraint failed: {p.table.name}.{column}"

/-- One point more in the ledger. -/
def push (s : Store) (id : MeasurementId) (p : Point) : Store :=
  { s with
    ledger := s.ledger.push ⟨id, s.counters.get p.table + 1, p.kept, true⟩
    counters := s.counters.increment p.table }

/-- Adds points in one transaction: all of them, or none if one is refused. -/
def insert (s : Store) (id : MeasurementId) (points : List Point) : Except String Unit × Store :=
  match points.findSome? s.refusal? with
  | some refusal => (.error refusal, s)
  | none => (.ok (), points.foldl (fun s p => s.push id p) s)

/-- The rows of a measurement in a table, in the order of their insertion. -/
def rowsOf (s : Store) (id : MeasurementId) (table : Table) : List Row :=
  s.ledger.toList.filter fun r => r.owner = id && r.point.table = table

/-- The rows of a measurement in a table by time, those of one time in the order of their
insertion. -/
def rowsByTime (s : Store) (id : MeasurementId) (table : Table) : List Row :=
  (s.rowsOf id table).mergeSort fun a b => decide (a.point.timestamp ≤ b.point.timestamp)

/-- Sizes and offsets from here on count as negative. -/
def signBound : Nat := 0x8000000000000000

/-- The window of a list at an offset. A negative offset is none, a negative limit is no limit. -/
def window {α : Type} (offset limit : Nat) (xs : List α) : List α :=
  let rest := if offset < signBound then xs.drop offset else xs
  if limit < signBound then rest.take limit else rest

/-- A page of the points of a measurement in a table, by time. -/
def page (s : Store) (id : MeasurementId) (table : Table) (offset limit : Nat) :
    Except StoreError (List Point) :=
  let rows := window offset (min limit s.queryLimit) (s.rowsByTime id table)
  if rows.all fun r => r.readable then .ok (rows.map fun r => r.point)
  else .error (.database "unreadable value")

/-- The number of points of a measurement in a table. -/
def count (s : Store) (id : MeasurementId) (table : Table) : Nat := (s.rowsOf id table).length

/-- Removes all points of a measurement, or none if a table that holds some refuses. Answers how
many were removed. -/
def clean (s : Store) (id : MeasurementId) : Except StoreError Nat × Store :=
  let refused := Table.all.findSome? fun t =>
    if (s.rowsOf id t).isEmpty then none else s.rules.delete t
  match refused with
  | some refusal => (.error (.database refusal), s)
  | none =>
    let left := s.ledger.filter fun r => !decide (r.owner = id)
    (.ok (s.ledger.size - left.size), { s with ledger := left })

end Store

/-! ### Calls -/

/-- The operations of a store that happen at once. -/
inductive StoreCall where
  | create (vehicle : Vehicle)
  | load (id : MeasurementId)
  | all
  | lastOpen
  | status (id : MeasurementId)
  | setStatus (id : MeasurementId) (target : MeasurementStatus)
  | syncable
  | insert (id : MeasurementId) (points : List Point)
  | page (id : MeasurementId) (table : Table) (offset limit : Nat)
  | count (id : MeasurementId) (table : Table)
  | clean (id : MeasurementId)

/-- The answers of a store. -/
def StoreAnswer : StoreCall → Type
  | .create _ => Except StoreError MeasurementId
  | .load _ => Except StoreError Measurement
  | .all => Except StoreError (List Measurement)
  | .lastOpen => Except StoreError (Option MeasurementId)
  | .status _ => Except StoreError MeasurementStatus
  | .setStatus _ _ => Except StoreError Unit
  | .syncable => Except StoreError (List MeasurementId)
  | .insert _ _ => Except String Unit
  | .page _ _ _ _ => Except StoreError (List Point)
  | .count _ _ => Except StoreError Nat
  | .clean _ => Except StoreError Nat

/-- A store that serves a call. -/
def Store.serve : (c : StoreCall) → Store → StoreAnswer c × Store
  | .create vehicle, s => s.create vehicle
  | .load id, s => (s.load id, s)
  | .all, s => (s.all, s)
  | .lastOpen, s => (.ok s.lastOpen, s)
  | .status id, s => (s.status id, s)
  | .setStatus id target, s => s.setStatus id target
  | .syncable, s => (.ok s.syncable, s)
  | .insert id points, s => s.insert id points
  | .page id table offset limit, s => (s.page id table offset limit, s)
  | .count id table, s => (.ok (s.count id table), s)
  | .clean id, s => s.clean id

end TripRecorder
