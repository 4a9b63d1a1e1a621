import TripRecorder.Capture.Attachment
import TripRecorder.Capture.Intake

/-!
# Scripted sensors

Sensors whose failures are set in advance. A source that is attached has a sink, through which the
bench injects readings.

## Main definitions

* `ScriptedSensors` — the script, the sinks, and how often sources were detached
* `ScriptedSensors.serve` — the answers to calls of the hardware
* `Injection` — readings that come in through one sink
-/

namespace TripRecorder

/-- Failures of sensors, each with its reason. -/
structure SensorScript where
  fix : Option String
  fixAttach : Option String
  sources : Option String
  /-- The source that cannot be attached. -/
  attach : Option (Nat × String)
deriving DecidableEq, Repr

/-- Sensors that work. -/
def SensorScript.works : SensorScript := ⟨none, none, none, none⟩

/-- Scripted sensors. -/
structure ScriptedSensors where
  count : Nat
  /-- Sources keep their sinks when they are detached. -/
  sticky : Bool
  script : SensorScript
  /-- The attachment that is being made, or was made last. -/
  attachment : Nat
  /-- Sources with a sink, and the attachment it belongs to. -/
  sinks : List (Nat × Nat)
  /-- The attachment the sink of the fix source belongs to. -/
  fixSink : Option Nat
  detached : Nat
  fixDetached : Nat
deriving DecidableEq, Repr

namespace ScriptedSensors

/-- Sensors before the first attachment. -/
def fresh (count : Nat) (sticky : Bool) (script : SensorScript) : ScriptedSensors :=
  ⟨count, sticky, script, 0, [], none, 0, 0⟩

/-- The answer of a part that fails for a reason, if it does. -/
def failing {α : Type} (reason : Option String) (value : α) : Except CaptureError α :=
  match reason with
  | some reason => .error (.capabilityUnavailable reason)
  | none => .ok value

/-- The answers of the sensors. -/
def serve : (c : HardwareCall) → ScriptedSensors → HardwareAnswer c × ScriptedSensors
  | .provideFix, s => (failing s.script.fix (), { s with attachment := s.attachment + 1 })
  | .provideSources, s => (failing s.script.sources s.count, s)
  | .attachFix, s =>
    match s.script.fixAttach with
    | some reason => (.error (.capabilityUnavailable reason), s)
    | none => (.ok (), { s with fixSink := some s.attachment })
  | .attachSource index, s =>
    match s.script.attach.filter fun f => f.1 == index with
    | some f => (.error (.capabilityUnavailable f.2), s)
    | none =>
      let others := s.sinks.filter fun k => k.1 != index
      (.ok (), { s with sinks := others ++ [(index, s.attachment)] })
  | .detachFix, s =>
    ((), { s with fixDetached := s.fixDetached + 1
                  fixSink := if s.sticky then s.fixSink else none })
  | .detachSource index, s =>
    ((), { s with detached := s.detached + 1
                  sinks := if s.sticky then s.sinks else s.sinks.filter fun k => k.1 != index })

/-- All sinks vanish. -/
def dropSinks (s : ScriptedSensors) : ScriptedSensors := { s with sinks := [], fixSink := none }

end ScriptedSensors

/-- Readings that come in through one sink. -/
inductive Injection where
  | readings (values : List Reading)
  | signals (values : List FixSignal)
  /-- The source reports that it stopped working. -/
  | unavailable (reason : String)
deriving DecidableEq, Repr

namespace Injection

/-- The name of a source. -/
def sourceName (index : Nat) : String := s!"s{index}"

/-- The readings of an injection through a source. -/
def toReadings (source : Nat) : Injection → List Reading
  | readings values => values
  | signals values => values.map .fix
  | unavailable reason => [.unavailable (sourceName source) reason]

/-- The attachment an injection through a source goes to. -/
def target (sensors : ScriptedSensors) (source : Nat) : Injection → Option Nat
  | signals _ => sensors.fixSink
  | _ => sensors.sinks.lookup source

end Injection

end TripRecorder
