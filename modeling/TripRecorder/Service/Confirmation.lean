import TripRecorder.Service.Status

/-!
# Confirmations of a stop

Whoever asks for a stop gets a confirmation, which fires once when the stop is done. It can be
given up before; the stop happens all the same.

## Main definitions

* `Confirmation` — the result of a stop, and whether anyone still waits for it
* `Confirmation.fire`, `Confirmation.cancel`, `Confirmation.wait?`
-/

namespace TripRecorder

/-- A confirmation of a stop. -/
structure Confirmation where
  result : Option (Except CaptureError StopReport)
  cancelled : Bool

namespace Confirmation

/-- A confirmation that has not fired. -/
def pending : Confirmation := ⟨none, false⟩

/-- The stop is done. Answers whether anyone was told: only the first result is kept, and none
after the confirmation was given up. -/
def fire (c : Confirmation) (result : Except CaptureError StopReport) : Confirmation × Bool :=
  if c.cancelled || c.result.isSome then (c, false) else ({ c with result := some result }, true)

/-- Nobody waits any more. Answers whether this is the first time. -/
def cancel (c : Confirmation) : Confirmation × Bool :=
  if c.cancelled then (c, false) else ({ c with cancelled := true }, true)

/-- The answer of waiting, if there is one already. -/
def wait? (c : Confirmation) : Option (Except CaptureError StopReport) :=
  if c.cancelled then some (.error (.invalidState "stop confirmation was cancelled")) else c.result

end Confirmation

end TripRecorder
