/-!
# Capture errors

## Main definitions

* `CaptureError` — why a capture or a request to the recorder failed
* `CaptureError.message` — its text
-/

namespace TripRecorder

/-- Why a capture or a request to the recorder failed. -/
inductive CaptureError where
  /-- The measurement cannot be recorded into. -/
  | setup (detail : String)
  /-- A sensor is missing or refuses to work. -/
  | capabilityUnavailable (detail : String)
  /-- The request does not fit the state. -/
  | invalidState (detail : String)
  /-- No answer came within this many milliseconds. -/
  | timeout (ms : Nat)
  /-- The recorder has ended. -/
  | serviceGone
  /-- The store failed. -/
  | storage (detail : String)
deriving DecidableEq, Repr

namespace CaptureError

/-- The name of an error. -/
def name : CaptureError → String
  | setup _ => "Setup"
  | capabilityUnavailable _ => "CapabilityUnavailable"
  | invalidState _ => "InvalidState"
  | timeout _ => "Timeout"
  | serviceGone => "ServiceGone"
  | storage _ => "Storage"

/-- The text of an error. -/
def message : CaptureError → String
  | setup detail => s!"Setup failed: {detail}"
  | capabilityUnavailable detail => s!"Capability unavailable: {detail}"
  | invalidState detail => s!"Invalid capture state: {detail}"
  | timeout ms => s!"Timed out after {ms} ms waiting for the capture service"
  | serviceGone => "Capture service is not running"
  | storage detail => s!"Storage error: {detail}"

end CaptureError

end TripRecorder
