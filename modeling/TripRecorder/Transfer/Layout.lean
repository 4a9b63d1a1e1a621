import TripRecorder.Store.Basic

/-!
# The transfer layout

A measurement is transferred as a version, and for each table a count followed by one record for
each row. All words have their most significant byte first.

## Main definitions

* `bigEndian` — a word of a fixed number of bytes
* `Point.fields` — the fields of a record
* `Transfer.sectionBytes`, `Transfer.image` — the bytes of a table, and of a measurement
-/

namespace TripRecorder

/-- The low bytes of a number, the most significant of them first. -/
def bigEndian : Nat → Nat → List UInt8
  | 0, _ => []
  | width + 1, n => bigEndian width (n / 256) ++ [UInt8.ofNat n]

namespace Double

/-- The eight bytes of a floating-point word. -/
def bytes (x : Double) : List UInt8 := bigEndian 8 x.bits.toNat

end Double

/-- The eight bytes of a time. -/
def timestampBytes (t : Int64) : List UInt8 := bigEndian 8 t.toUInt64.toNat

/-- The four bytes of an integer of 32 bits. -/
def int32Bytes (i : Int) : List UInt8 := bigEndian 4 (i % UInt32.size).toNat

/-- The fields of a record: the accuracy of a location is written in centimetres. -/
def Point.fields : Point → List (List UInt8)
  | .location l =>
    [timestampBytes l.timestamp, l.lat.bytes, l.lon.bytes, l.speed.bytes,
      int32Bytes l.accuracy.centi]
  | .sample s => [timestampBytes s.timestamp, s.x.bytes, s.y.bytes, s.z.bytes]

/-- The bytes of a record. -/
def Point.record (p : Point) : List UInt8 := p.fields.flatten

namespace Transfer

/-- The version of the layout. -/
def version : Nat := 1

/-- The bytes of a record of a location. -/
def locationBytes : Nat := 36

/-- The bytes of a record of a sample. -/
def sampleBytes : Nat := 32

/-- The bytes of a record of a table. -/
def recordBytes : Table → Nat
  | .locations => locationBytes
  | .samples _ => sampleBytes

/-- Counts are below this bound. -/
def countBound : Nat := UInt32.size

/-- The field of the version. -/
def versionField : List UInt8 := bigEndian 2 version

/-- The field of a count. -/
def countField (n : Nat) : List UInt8 := bigEndian 4 n

/-- The bytes of a table with some points. -/
def sectionBytes (points : List Point) : List UInt8 :=
  countField points.length ++ points.flatMap Point.record

/-- The bytes of a measurement whose tables hold some points. -/
def image (points : Table → List Point) : List UInt8 :=
  versionField ++ Table.all.flatMap fun t => sectionBytes (points t)

end Transfer

end TripRecorder
