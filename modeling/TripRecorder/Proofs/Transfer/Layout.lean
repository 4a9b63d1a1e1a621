import TripRecorder.Transfer.Layout

/-!
# The size of a transferred measurement

A record has as many bytes as the layout says, so that the counts of its rows give the size of a
measurement.

## Main definitions

* `Transfer.size` — the bytes of a measurement, by the counts of its tables

## Main results

* `Point.length_record` — the size of a record
* `Transfer.size_eq` — the size of a measurement, by its locations and samples
* `Transfer.length_image` — an image has this size
-/

namespace TripRecorder

@[simp] theorem length_bigEndian (width n : Nat) : (bigEndian width n).length = width := by
  induction width generalizing n with
  | zero => rfl
  | succ width ih => rw [bigEndian, List.length_append, ih, List.length_singleton]

/-- A record has the size of the records of its table. -/
theorem Point.length_record (p : Point) : p.record.length = Transfer.recordBytes p.table := by
  cases p <;>
    simp [Point.record, Point.fields, Point.table, timestampBytes, Double.bytes, int32Bytes,
      Transfer.recordBytes, Transfer.locationBytes, Transfer.sampleBytes]

namespace Transfer

/-- The bytes of some tables with so many rows each. -/
def tablesSize (count : Table → Nat) : List Table → Nat
  | [] => 0
  | t :: rest => 4 + count t * recordBytes t + tablesSize count rest

theorem tablesSize_congr {count count' : Table → Nat} {tables : List Table}
    (h : ∀ t ∈ tables, count' t = count t) : tablesSize count' tables = tablesSize count tables := by
  induction tables with
  | nil => rfl
  | cons t rest ih =>
    obtain ⟨ht, hrest⟩ := List.forall_mem_cons.mp h
    rw [tablesSize, tablesSize, ht, ih hrest]

/-- The bytes of a measurement with so many rows in each table. -/
def size (count : Table → Nat) : Nat := 2 + tablesSize count Table.all

theorem size_eq (count : Table → Nat) :
    size count = 18 + 36 * count .locations +
      32 * (count (.samples .acceleration) + count (.samples .rotation) +
        count (.samples .direction)) := by
  simp only [size, tablesSize, Table.all, recordBytes, locationBytes, sampleBytes]
  omega

/-- A table takes a count, and a record for each of its points. -/
theorem length_sectionBytes {points : List Point} {t : Table} (h : ∀ p ∈ points, p.table = t) :
    (sectionBytes points).length = 4 + points.length * recordBytes t := by
  have hrecords : (points.flatMap Point.record).length = points.length * recordBytes t := by
    induction points with
    | nil => simp
    | cons p rest ih =>
      obtain ⟨hp, hrest⟩ := List.forall_mem_cons.mp h
      rw [List.flatMap_cons, List.length_append, p.length_record, hp, ih hrest, List.length_cons,
        Nat.succ_mul, Nat.add_comm]
  rw [sectionBytes, List.length_append, countField, length_bigEndian, hrecords]

theorem length_sections {points : Table → List Point} (h : ∀ t, ∀ p ∈ points t, p.table = t)
    (tables : List Table) : (tables.flatMap fun t => sectionBytes (points t)).length =
      tablesSize (fun t => (points t).length) tables := by
  induction tables with
  | nil => rfl
  | cons t rest ih =>
    rw [List.flatMap_cons, List.length_append, length_sectionBytes (h t), ih, tablesSize]

/-- An image is as long as its counts say. -/
theorem length_image {points : Table → List Point} (h : ∀ t, ∀ p ∈ points t, p.table = t) :
    (image points).length = size fun t => (points t).length := by
  rw [image, List.length_append, length_sections h, versionField, length_bigEndian, size]

end Transfer

end TripRecorder
