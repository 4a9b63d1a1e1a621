import TripRecorder.Transfer.Layout

/-!
# Serializing a stored measurement

The serializer asks the store for the count of a table, writes it, and reads the rows page by page.
Others may change the store between two of its calls. It never writes more rows than it counted,
and fails if it finds fewer.

## Main definitions

* `TransferCall` — what the serializer asks for: calls of the store, and fields to be written
* `SerializeError` — why it failed
* `serialize` — the procedure that writes a measurement and answers the number of bytes
* `collectBytes` — the same procedure with the fields written to memory
-/

namespace TripRecorder

/-- What a serializer asks for. -/
inductive TransferCall where
  | store (c : StoreCall)
  /-- Write one field. -/
  | write (field : List UInt8)

/-- The answers: a failed write has a text. -/
def TransferAnswer : TransferCall → Type
  | .store c => StoreAnswer c
  | .write _ => Except String Unit

/-- Why a measurement was not serialized. -/
inductive SerializeError where
  | storage (error : StoreError)
  | io (detail : String)
  /-- A table had fewer rows than were counted. -/
  | inconsistent (id : MeasurementId) (table : Table) (expected read : Nat)
deriving DecidableEq, Repr

namespace SerializeError

/-- The name of an error. -/
def name : SerializeError → String
  | storage _ => "Storage"
  | io _ => "Io"
  | inconsistent _ _ _ _ => "Inconsistent"

/-- The text of an error. -/
def message : SerializeError → String
  | storage error => s!"Storage error: {error.message}"
  | io detail => s!"IO error: {detail}"
  | inconsistent id table expected read =>
    s!"Measurement {id.value} changed while serializing: expected {expected} {table.name} rows, " ++
      s!"read {read}"

end SerializeError

/-- A procedure of a serializer that may fail. -/
abbrev Serializing (α : Type) := ExceptT SerializeError (Procedure TransferAnswer) α

/-- Writes one field. -/
def writeField (field : List UInt8) : Serializing Unit :=
  ExceptT.mk (.call (.write field) fun
    | .ok () => .done (.ok ())
    | .error detail => .done (.error (.io detail)))

/-- Writes fields one after another. -/
def writeFields : List (List UInt8) → Serializing Unit
  | [] => pure ()
  | field :: rest => do
    writeField field
    writeFields rest

/-- The number of rows of a table. -/
def askCount (id : MeasurementId) (table : Table) : Serializing Nat :=
  ExceptT.mk (.call (.store (.count id table)) fun
    | .ok n => .done (.ok n)
    | .error e => .done (.error (.storage e)))

/-- Reads and writes the rows of a table from one on, until as many as counted are written or a
page is empty. Answers the number of rows written. -/
def writePages (id : MeasurementId) (table : Table) (pageSize expected read : Nat) :
    Serializing Nat :=
  if _unfinished : read < expected then
    ExceptT.mk (.call (.store (.page id table read (min pageSize (expected - read)))) fun
      | .error e => .done (.error (.storage e))
      | .ok [] => .done (.ok read)
      | .ok (p :: rest) => ExceptT.run do
        writeFields ((p :: rest).flatMap Point.fields)
        writePages id table pageSize expected (read + (rest.length + 1)))
  else pure read
termination_by expected - read
decreasing_by omega

/-- Writes a table: its count, and then its rows. Answers the number of bytes. -/
def writeTable (id : MeasurementId) (pageSize : Nat) (table : Table) : Serializing Nat := do
  let expected ← askCount id table
  if Transfer.countBound ≤ expected then
    throw (.io s!"{expected} points do not fit the u32 count field")
  writeField (Transfer.countField expected)
  let read ← writePages id table pageSize expected 0
  if read = expected then return 4 + expected * Transfer.recordBytes table
  else throw (.inconsistent id table expected read)

/-- Writes tables one after another. Answers the number of bytes. -/
def writeTables (id : MeasurementId) (pageSize : Nat) : List Table → Serializing Nat
  | [] => pure 0
  | table :: rest => do
    let first ← writeTable id pageSize table
    let others ← writeTables id pageSize rest
    return first + others

/-- Writes a measurement with pages of at most `pageSize` rows, zero counting as one. Answers the
number of bytes written. -/
def serialize (pageSize : Nat) (id : MeasurementId) :
    Procedure TransferAnswer (Except SerializeError Nat) :=
  ExceptT.run do
    writeField Transfer.versionField
    let others ← writeTables id (max pageSize 1) Table.all
    return 2 + others

/-- A procedure of a serializer whose fields are written to memory, after those written already.
Answers its result and all bytes. -/
def collectBytes {α : Type} (written : List (List UInt8)) :
    Procedure TransferAnswer α → Procedure StoreAnswer (α × List UInt8)
  | .done a => .done (a, written.reverse.flatten)
  | .call (.store c) next => .call c fun answer => collectBytes written (next answer)
  | .call (.write field) next => collectBytes (field :: written) (next (.ok ()))

/-- The bytes of a measurement while nothing else happens to the store. -/
def Store.serialized (s : Store) (pageSize : Nat) (id : MeasurementId) :
    Except SerializeError (List UInt8) :=
  match ((collectBytes [] (serialize pageSize id)).run Store.serve s).1 with
  | (.ok _, bytes) => .ok bytes
  | (.error e, _) => .error e

end TripRecorder
