import TripRecorder.Json.Value
import TripRecorder.Json.Printer
import TripRecorder.Store.Basic

/-!
# Store files

The content of a store as the text of a file: a line that names the format, and one JSON array with
the measurements, the rows and the highest numbers given out. Components of points are written as
the words they are, so that nothing is rounded.

## Main definitions

* `Store.image` — the text of a store
* `Store.ofImage?` — the store of a text
-/

namespace TripRecorder

namespace Store

/-- The first line of a store file. -/
def imageHeader : String := "trip recorder store 1"

/-- The text of a status column. -/
def statusText : StatusColumn → String
  | .known status => status.name
  | .unknown text => text

/-- A measurement in a store file. -/
def entryJson (e : Entry) : Json :=
  .array [.nat e.id.value, .string e.vehicle.name, .string (statusText e.status),
    .option .string e.device]

/-- A row in a store file. -/
def rowJson (r : Row) : Json :=
  .array ([.nat r.owner.value, .nat r.number, .string r.point.table.name, .bool r.readable,
    .integer r.point.timestamp.toInt] ++ r.point.columns.map fun c => .nat c.2.bits.toNat)

/-- The text of a store. -/
def image (s : Store) : String :=
  let counters := Table.all.map fun t => Json.nat (s.counters.get t)
  imageHeader ++ "\n" ++ (Json.array [.array (s.entries.map entryJson),
    .array (s.ledger.toList.map rowJson), .array counters]).compact

/-- The measurement of a store file. -/
def entryOfJson? : Json → Option Entry
  | .array [.integer id, .string vehicle, .string status, device] =>
    some ⟨⟨id.toNat⟩, Vehicle.ofName vehicle, StatusColumn.ofText status, device.text?⟩
  | _ => none

/-- The words of components. -/
def words? : List Json → Option (List Double)
  | [] => some []
  | .integer i :: rest => (words? rest).map fun ws => ⟨UInt64.ofNat i.toNat⟩ :: ws
  | _ => none

/-- The point of a table at a time with some components. -/
def pointOf? (table : Table) (time : Int64) (components : List Double) : Option Point :=
  match table, components with
  | .locations, [lat, lon, speed, accuracy] => some (.location ⟨time, lat, lon, speed, accuracy⟩)
  | .samples kind, [x, y, z] => some (.sample ⟨kind, x, y, z, time⟩)
  | _, _ => none

/-- The row of a store file. -/
def rowOfJson? : Json → Option Row
  | .array (.integer owner :: .integer number :: .string table :: .bool readable :: .integer time ::
      components) => do
    let point ← pointOf? (← Table.ofName? table) (Int64.ofInt time) (← words? components)
    return ⟨⟨owner.toNat⟩, number.toNat, point, readable⟩
  | _ => none

/-- The highest numbers given out. -/
def countersOfJson? : Json → Option Counters
  | .array [.integer l, .integer a, .integer r, .integer d] =>
    some ⟨l.toNat, a.toNat, r.toNat, d.toNat⟩
  | _ => none

/-- A store with the content of a text, if the text is that of a store. -/
def ofImage? (empty : Store) (text : String) : Option Store :=
  match text.splitOn "\n" with
  | header :: rest =>
    if header = imageHeader then
      match Json.parse? ("\n".intercalate rest) with
      | some (.array [.array entries, .array rows, counters]) => do
        return { empty with entries := ← entries.mapM entryOfJson?
                            ledger := (← rows.mapM rowOfJson?).toArray
                            counters := ← countersOfJson? counters }
      | _ => none
    else none
  | [] => none

end Store

end TripRecorder
