import TripRecorder.Sync.Response

/-!
# Uploads

A body is sent in pieces. The fraction sent before is reported with each piece that is taken, and
one when the measurement is with the collector.

## Main definitions

* `UploadRequest` — a measurement ready to be sent
* `UploadRequest.address`, `UploadRequest.headers` — where it goes, and what is said about it
* `SyncProgress` — how far the upload of a measurement has come
* `Upload.pieces`, `Upload.fractions` — the pieces of a body and the fractions reported with them
* `Exchange`, `Upload.run` — what came of a request, and its report
-/

namespace TripRecorder

open Json Record

/-- A measurement ready to be sent. -/
structure UploadRequest where
  endpoint : String
  token : String
  device : String
  id : MeasurementId
  body : List UInt8
deriving DecidableEq, Repr

/-- The header with the identifier of the device. -/
def deviceHeader : String := "X-Device-Id"

/-- The header with the identifier of the measurement. -/
def measurementHeader : String := "X-Measurement-Id"

namespace UploadRequest

/-- The address of the measurements of a collector: slashes at the end of the endpoint count as
one. -/
def address (r : UploadRequest) : String :=
  String.ofList (r.endpoint.toList.reverse.dropWhile (· == '/')).reverse ++ "/measurements"

/-- What is said about the body. -/
def headers (r : UploadRequest) : List (String × String) :=
  [("Authorization", "Bearer " ++ r.token), (deviceHeader, r.device),
    (measurementHeader, r.id.text), ("Content-Type", "application/octet-stream")]

end UploadRequest

/-- How far the upload of a measurement has come. -/
structure SyncProgress where
  id : MeasurementId
  fraction : Double
deriving DecidableEq, Repr

instance : Coded SyncProgress where
  ofTree? t := do
    match ← fields? ["measurement_id", "fraction"] t with
    | [id, fraction] => return ⟨← required MeasurementId id, ← required Double fraction⟩
    | _ => none
  toJson p := .object [("measurement_id", toJson p.id), ("fraction", toJson p.fraction)]

/-- What came of a request. -/
inductive Exchange where
  /-- The connection failed after the collector had taken so many pieces of the body. -/
  | failed (pieces : Nat) (detail : String)
  /-- The collector took the whole body and answered. -/
  | answered (status : Nat) (text : String)
deriving DecidableEq, Repr

namespace Upload

/-- The pieces of a body. -/
def pieces (chunkBytes : Nat) (body : List UInt8) : List (List UInt8) := inChunks chunkBytes body

/-- The fractions reported with pieces, of a body of which some bytes were sent before. -/
def fractionsFrom (total sent : Nat) : List (List UInt8) → List Double
  | [] => []
  | piece :: rest =>
    (Double.ofNat sent).div (Double.ofNat total) ::
      fractionsFrom total (sent + piece.length) rest

/-- The fractions reported with the first pieces of a body. -/
def fractionsOf (count chunkBytes : Nat) (body : List UInt8) : List Double :=
  fractionsFrom (max body.length 1) 0 ((pieces chunkBytes body).take count)

/-- The fractions reported with all pieces of a body. -/
def fractions (chunkBytes : Nat) (body : List UInt8) : List Double :=
  fractionsFrom (max body.length 1) 0 (pieces chunkBytes body)

/-- The fraction of a body that is with the collector. -/
def complete : Double := Double.ofNat 1

/-- What an exchange means for the measurement. -/
def outcome : Exchange → Except SyncError Outcome
  | .failed _ detail => .error (.remoteUnreachable detail)
  | .answered status text => Response.judge status text

/-- The fractions reported for a body in an exchange, and what it means for the measurement. -/
def run (chunkBytes : Nat) (body : List UInt8) (exchange : Exchange) :
    List Double × Except SyncError Outcome :=
  let sent :=
    match exchange with
    | .failed taken _ => fractionsOf taken chunkBytes body
    | .answered _ _ => fractions chunkBytes body
  match outcome exchange with
  | .ok o => (sent ++ [complete], .ok o)
  | .error e => (sent, .error e)

end Upload

end TripRecorder
