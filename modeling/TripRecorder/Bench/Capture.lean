import TripRecorder.Bench.Sensors
import TripRecorder.Capture.Pump
import TripRecorder.Settings.Config

/-!
# A bench for captures

One capture with scripted sensors, under a clock that moves only on demand.

## Main definitions

* `CaptureBench` — a capture on the bench
* `CaptureBench.start` — attaches the sensors
* `CaptureStep`, `CaptureBench.step` — what can be done with it
-/

namespace TripRecorder

/-- A capture on the bench. -/
structure CaptureBench where
  sensors : ScriptedSensors
  pump : Pump
  /-- It was closed by request. -/
  closed : Bool
  now : Nat
deriving DecidableEq, Repr

/-- What can be done with a capture. -/
inductive CaptureStep where
  | inject (source : Nat) (what : List Injection)
  | advance (ms : Nat)
  | dropSinks
  | close
deriving DecidableEq, Repr

/-- Readings that came in, and readings that did not. -/
structure InjectCount where
  accepted : Nat
  refused : Nat
deriving DecidableEq, Repr

/-- Injects readings into a pump through sinks of which those of one attachment lead to it. -/
def injectAll (sensors : ScriptedSensors) (attachment : Nat) (source : Nat) (pump : Pump)
    (what : List Injection) : Pump × InjectCount :=
  what.foldl (fun (pump, count) injection =>
    let values := injection.toReadings source
    let (next, taken) :=
      if injection.target sensors source = some attachment then pump.offer values
      else (pump, false)
    if taken then (next, { count with accepted := count.accepted + values.length })
    else (pump, { count with refused := count.refused + values.length })) (pump, ⟨0, 0⟩)

namespace CaptureBench

/-- Attaches the sensors and starts a capture. Answers the sensors as well if that fails. -/
def start (config : CaptureConfig) (sensors : ScriptedSensors) :
    Except (CaptureError × ScriptedSensors) CaptureBench :=
  match (attachSensors sensors.count).run ScriptedSensors.serve sensors with
  | (.error e, sensors) => .error (e, sensors)
  | (.ok (), sensors) =>
    .ok ⟨sensors, Pump.start config.flushThreshold config.flushIntervalMs 0, false, 0⟩

/-- What a step answers. -/
structure Outcome where
  /-- What was injected, where a step injects. -/
  count : Option InjectCount
  events : List CaptureEvent
deriving DecidableEq, Repr

/-- A step, after which all readings that wait are taken in unless they are held back. -/
def step (b : CaptureBench) (hold : Bool) (s : CaptureStep) : CaptureBench × Outcome :=
  let (b, count, first) : CaptureBench × Option InjectCount × List CaptureEvent :=
    match s with
    | .inject source what =>
      let (pump, count) := injectAll b.sensors b.sensors.attachment source b.pump what
      ({ b with pump := pump }, some count, [])
    | .advance ms =>
      let (pump, events) := b.pump.advance b.now ms
      ({ b with pump := pump, now := b.now + ms }, none, events)
    | .dropSinks =>
      let (pump, events) := b.pump.close b.now
      ({ b with pump := pump, sensors := b.sensors.dropSinks }, none, events)
    | .close =>
      if b.closed then (b, none, [])
      else
        let ((), sensors) := (detachSensors b.sensors.count).run ScriptedSensors.serve b.sensors
        let (pump, events) := b.pump.close b.now
        ({ b with pump := pump, sensors := sensors, closed := true }, none, events)
  if hold then (b, ⟨count, first⟩)
  else
    let (pump, others) := b.pump.settle b.now
    ({ b with pump := pump }, ⟨count, first ++ others⟩)

/-- The stream of events has ended. -/
def ended (b : CaptureBench) : Bool := !b.pump.isRunning

end CaptureBench

end TripRecorder
