import TripRecorder.Capture.Error
import TripRecorder.Procedure

/-!
# Attaching sensors

The fix source is attached first, then the sources of readings in their order. If one refuses, the
earlier ones are detached again.

## Main definitions

* `HardwareCall` — what is asked of the hardware
* `attachSensors` — attaches everything or nothing
* `detachSensors` — detaches everything
-/

namespace TripRecorder

/-- What is asked of the hardware. -/
inductive HardwareCall where
  /-- Prepare a fix source. -/
  | provideFix
  /-- Prepare the sources of readings, and say how many there are. -/
  | provideSources
  | attachFix
  | attachSource (index : Nat)
  | detachFix
  | detachSource (index : Nat)
deriving DecidableEq, Repr

/-- The answers. -/
def HardwareAnswer : HardwareCall → Type
  | .provideFix => Except CaptureError Unit
  | .provideSources => Except CaptureError Nat
  | .attachFix => Except CaptureError Unit
  | .attachSource _ => Except CaptureError Unit
  | .detachFix => Unit
  | .detachSource _ => Unit

/-- Detaches sources in the order of a list. -/
def detachSources (indices : List Nat) : Procedure HardwareAnswer Unit :=
  match indices with
  | [] => .done ()
  | index :: rest => .call (.detachSource index) fun () => detachSources rest

/-- Detaches the first sources and then the fix source. -/
def detachSensors (sources : Nat) : Procedure HardwareAnswer Unit :=
  (detachSources (List.range sources)).bind fun () => .call .detachFix fun () => .done ()

/-- Attaches sources, those with a smaller index being attached already. -/
def attachSources (attached : Nat) : Nat → Procedure HardwareAnswer (Except CaptureError Unit)
  | 0 => .done (.ok ())
  | left + 1 => .call (.attachSource attached) fun
    | .ok () => attachSources (attached + 1) left
    | .error e => (detachSensors attached).bind fun () => .done (.error e)

/-- Attaches the fix source and all sources of readings, or nothing. -/
def attachSensors (sources : Nat) : Procedure HardwareAnswer (Except CaptureError Unit) :=
  .call .attachFix fun
    | .error e => .done (.error e)
    | .ok () => attachSources 0 sources

end TripRecorder
