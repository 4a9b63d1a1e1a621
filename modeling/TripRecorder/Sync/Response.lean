import TripRecorder.Sync.Error
import TripRecorder.Json.Value
import TripRecorder.Json.Printer

/-!
# Answers of a collector

The status alone decides whether a measurement is delivered: 201 for a new one, 409 for one the
collector has already.

## Main definitions

* `Response.parse` — a status with a body that is JSON, or none
* `Response.outcome` — what it means for the measurement
-/

namespace TripRecorder

/-- The measurement is with the collector. -/
inductive Outcome where
  | created
  /-- It was there before. -/
  | alreadyPresent
deriving DecidableEq, Repr

/-- The written name of an outcome. -/
def Outcome.name : Outcome → String
  | created => "Created"
  | alreadyPresent => "AlreadyPresent"

/-- A status with its body, if the body is JSON. -/
structure Response where
  status : Nat
  body : Option Json

namespace Response

/-- A status whose body need not be JSON. -/
def toleratesText (status : Nat) : Bool := (200 ≤ status && status ≤ 299) || status = 409

/-- The response of a status and a text. -/
def parse (status : Nat) (text : String) : Except SyncError Response :=
  match Json.parse? text with
  | some body => .ok ⟨status, some body⟩
  | none =>
    if toleratesText status then .ok ⟨status, none⟩
    else if status = 400 then .error (.badRequest text)
    else if status = 401 then .error (.unauthorized text)
    else .error (.malformedResponse status text)

/-- The reason a body gives: the text of its message, or of its error where it has no message, and
otherwise all of it. -/
def reason (r : Response) : String :=
  match r.body with
  | none => ""
  | some body =>
    let given := (body.get? "message").orElse fun _ => body.get? "error"
    (given.bind Json.text?).getD body.compact

/-- What a response means for the measurement. -/
def outcome (r : Response) : Except SyncError Outcome :=
  if r.status = 201 then .ok .created
  else if r.status = 409 then .ok .alreadyPresent
  else if r.status = 400 then .error (.badRequest r.reason)
  else if r.status = 401 then .error (.unauthorized r.reason)
  else .error (.requestRejected r.status r.reason)

/-- What a status and a text mean for the measurement. -/
def judge (status : Nat) (text : String) : Except SyncError Outcome := do
  (← parse status text).outcome

end Response

end TripRecorder
