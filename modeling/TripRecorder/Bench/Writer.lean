import TripRecorder.Transfer.Serializer

/-!
# A bench for serializing

A writer with limited room, before one of whose writes the measurement may be emptied.

## Main definitions

* `LimitedWriter` — a store and a writer
* `LimitedWriter.put` — a field that is written in as many pieces as there is room
* `LimitedWriter.run` — the result of serializing a measurement
-/

namespace TripRecorder

/-- A store and a writer with limited room. -/
structure LimitedWriter where
  store : Store
  /-- The measurement that is serialized. -/
  measurement : MeasurementId
  /-- The bytes it still takes. Without a limit it takes all. -/
  room : Option Nat
  /-- The write before which the measurement is emptied. -/
  cleanAt : Option Nat
  /-- The pieces written, the last one first. -/
  pieces : List (List UInt8)
  /-- Writes so far. -/
  writes : Nat
  /-- How many rows were removed each time the measurement was emptied. -/
  cleaned : List Nat

namespace LimitedWriter

/-- A writer before the first write. -/
def fresh (store : Store) (measurement : MeasurementId) (room cleanAt : Option Nat) :
    LimitedWriter :=
  ⟨store, measurement, room, cleanAt, [], 0, []⟩

/-- The bytes written. -/
def bytes (w : LimitedWriter) : List UInt8 := w.pieces.reverse.flatten

/-- A write begins. -/
def begin (w : LimitedWriter) : LimitedWriter :=
  let w := { w with writes := w.writes + 1 }
  if w.cleanAt = some w.writes then
    let (removed, store) := w.store.clean w.measurement
    { w with store := store, cleaned := w.cleaned ++ removed.toOption.toList }
  else w

/-- One write takes as many bytes as there is room for. Answers the others. -/
def write (w : LimitedWriter) (field : List UInt8) : List UInt8 × LimitedWriter :=
  let w := w.begin
  match w.room with
  | none => ([], { w with pieces := field :: w.pieces })
  | some room =>
    (field.drop room,
      { w with pieces := field.take room :: w.pieces, room := some (room - field.length) })

/-- Why a field cannot be written. -/
def noRoom : String := "failed to write whole buffer"

/-- Writes a field. What a first write leaves over is offered once more, and then there is no room
for any of it. -/
def put (w : LimitedWriter) (field : List UInt8) : Except String Unit × LimitedWriter :=
  match w.write field with
  | ([], w) => (.ok (), w)
  | (rest, w) =>
    if rest.length < field.length then (.error noRoom, (w.write rest).2) else (.error noRoom, w)

/-- The answers to a serializer. -/
def serve : (c : TransferCall) → LimitedWriter → TransferAnswer c × LimitedWriter
  | .store c, w =>
    let (answer, store) := Store.serve c w.store
    (answer, { w with store := store })
  | .write field, w => w.put field

/-- The result of serializing the measurement. -/
def run (w : LimitedWriter) (pageSize : Nat) : Except SerializeError Nat × LimitedWriter :=
  (serialize pageSize w.measurement).run serve w

end LimitedWriter

end TripRecorder
