import TripRecorder.Proofs.Transfer.Layout

/-!
# The transfer format

The format by itself, whoever writes it: a version, and for each of four tables the number of its
rows and one record for each of them. Every word has its most significant byte first. What the
serializer writes for a number, for a point and for the tables of a measurement is of this format.

## Main definitions

* `Wire.word` — a word of some bytes
* `Wire.tables`, `Wire.Row` — the tables in their order, and the rows that each can have
* `Wire.time`, `Wire.record` — the time of a row, and its record

## Main results

* `bigEndian_eq_word`, `Point.record_eq`, `Transfer.image_eq` — what is written is of the format
* `Wire.length_record` — the bytes of a record
-/

namespace TripRecorder

namespace Wire

/-- The bytes of a number in a word, from the most significant one to the least. -/
def word (width n : Nat) : List UInt8 :=
  (List.range width).map fun place => UInt8.ofNat (n >>> (8 * (width - 1 - place)))

/-- The tables in the order of the format. -/
def tables : List Table :=
  [.locations, .samples .acceleration, .samples .rotation, .samples .direction]

/-- A point can be a row of a table. -/
def Row : Table → Point → Prop
  | .locations, .location _ => True
  | .samples kind, .sample s => s.kind = kind
  | _, _ => False

/-- The time of a row. -/
def time : Point → Int64
  | .location l => l.timestamp
  | .sample s => s.timestamp

/-- The record of a row. Floating-point numbers are written bit by bit, and the accuracy of a
location is written in centimetres, as an integer of 32 bits. -/
def record : Point → List UInt8
  | .location l =>
    word 8 l.timestamp.toUInt64.toNat ++ word 8 l.lat.bits.toNat ++ word 8 l.lon.bits.toNat ++
      word 8 l.speed.bits.toNat ++ word 4 (Int32.ofInt l.accuracy.centi).toUInt32.toNat
  | .sample s =>
    word 8 s.timestamp.toUInt64.toNat ++ word 8 s.x.bits.toNat ++ word 8 s.y.bits.toNat ++
      word 8 s.z.bits.toNat

@[simp] theorem length_word (width n : Nat) : (word width n).length = width := by
  rw [word, List.length_map, List.length_range]

/-- The record of a location has 36 bytes, and that of a sample 32. -/
theorem length_record {t : Table} {p : Point} (h : Row t p) :
    (record p).length = if t = .locations then 36 else 32 := by
  cases t <;> cases p <;> first | exact h.elim | simp [record]

end Wire

/-- Words are written byte by byte. -/
theorem bigEndian_eq_word (width n : Nat) : bigEndian width n = Wire.word width n := by
  induction width generalizing n with
  | zero => rfl
  | succ width ih =>
    have hplace (place : Nat) (h : place ∈ List.range width) :
        UInt8.ofNat ((n / 256) >>> (8 * (width - 1 - place))) =
          UInt8.ofNat (n >>> (8 * (width + 1 - 1 - place))) := by
      have hlt := List.mem_range.mp h
      have hshift : 8 * (width + 1 - 1 - place) = 8 + 8 * (width - 1 - place) := by omega
      rw [hshift, Nat.shiftRight_add, Nat.shiftRight_eq_div_pow n 8]
    rw [bigEndian, ih, Wire.word, Wire.word, List.range_succ, List.map_append,
      List.map_congr_left hplace]
    simp

/-- An integer of 32 bits is written as the number with the same bits. -/
theorem int32Bytes_eq (i : Int) :
    int32Bytes i = Wire.word 4 (Int32.ofInt i).toUInt32.toNat := by
  have hbits : (Int32.ofInt i).toUInt32.toNat = (i % UInt32.size).toNat :=
    BitVec.toNat_ofInt i
  rw [int32Bytes, bigEndian_eq_word, hbits]

/-- A point is written as its record. -/
theorem Point.record_eq : Point.record = Wire.record := by
  funext p
  cases p <;>
    simp [Point.record, Point.fields, Wire.record, timestampBytes, Double.bytes,
      bigEndian_eq_word, int32Bytes_eq]

theorem Point.timestamp_eq (p : Point) : p.timestamp = Wire.time p := by
  cases p <;> rfl

/-- A point is a row of its table. -/
theorem Point.row_table (p : Point) : Wire.Row p.table p := by
  cases p <;> trivial

namespace Transfer

theorem versionField_eq : versionField = Wire.word 2 1 := bigEndian_eq_word 2 1

theorem countField_eq (n : Nat) : countField n = Wire.word 4 n := bigEndian_eq_word 4 n

/-- A measurement is written as its tables, each with the number of its rows and their records. -/
theorem image_eq (points : Table → List Point) :
    image points = Wire.word 2 1 ++ Wire.tables.flatMap fun t =>
      Wire.word 4 (points t).length ++ (points t).flatMap Wire.record := by
  have hsection (t : Table) : sectionBytes (points t) =
      Wire.word 4 (points t).length ++ (points t).flatMap Wire.record := by
    rw [sectionBytes, countField_eq, Point.record_eq]
  rw [image, versionField_eq, funext hsection]
  rfl

end Transfer

end TripRecorder
