import TripRecorder.Capture.Attachment
import TripRecorder.Capture.Pump
import TripRecorder.Delivery.Registry
import TripRecorder.Service.Status
import TripRecorder.Store.Append

/-!
# The recorder

The recorder owns the session, the capture and the way into the store. It handles one request or one
event of the capture at a time. Every record is stored first and then told to the observers.

## Main definitions

* `RecorderCall` — what the recorder asks for
* `Recorder` — its state
* `Recorder.start`, `Recorder.pause`, `Recorder.resume`, `Recorder.stop`, `Recorder.shutDown` — the
  requests
* `Recorder.handle` — an event of the capture
* `Recorder.offer`, `Recorder.settle`, `Recorder.advance` — the capture between requests
-/

namespace TripRecorder

/-- What the recorder asks for. -/
inductive RecorderCall where
  | store (c : StoreCall)
  | hardware (c : HardwareCall)
  /-- Keep the device awake. -/
  | acquire
  /-- Let the device sleep. -/
  | release
  /-- Tell the observers. -/
  | deliver (message : Message)

/-- The answers. -/
def RecorderAnswer : RecorderCall → Type
  | .store c => StoreAnswer c
  | .hardware c => HardwareAnswer c
  | .acquire => Unit
  | .release => Unit
  | .deliver _ => Nat

/-- A procedure of the recorder. -/
abbrev Recording (α : Type) := Procedure RecorderAnswer α

/-- A procedure of the recorder that may refuse. -/
abbrev RecordingOr (α : Type) := ExceptT CaptureError (Procedure RecorderAnswer) α

/-- How a recorder works. -/
structure RecorderConfig where
  chunkSize : Nat
  flushThreshold : Nat
  flushIntervalMs : Nat
  /-- The most points the store writes at once. -/
  batchLimit : Nat
deriving DecidableEq, Repr

/-- A capture held by the recorder. -/
structure HeldCapture where
  /-- The number of sources attached beside the fix source. -/
  sources : Nat
  pump : Pump
  /-- Events that are not handled yet. -/
  events : List CaptureEvent
deriving DecidableEq, Repr

/-- The state of the recorder. -/
structure Recorder where
  config : RecorderConfig
  session : Session
  stats : SessionStats
  capture : Option HeldCapture
deriving DecidableEq, Repr

namespace Recorder

/-- A recorder before the first request. -/
def fresh (config : RecorderConfig) : Recorder := ⟨config, Session.idle, SessionStats.zero, none⟩

/-- The answer to a question for the state. -/
def status (r : Recorder) : ServiceStatus := ⟨r.session.state, r.session.measurement, r.stats⟩

/-! ### Calls -/

/-- Tells the observers. -/
def tell (message : Message) : Recording Unit := .call (.deliver message) fun _ => .done ()

/-- Adds points to the store. Answers whether all were stored. -/
def save (batchLimit : Nat) (id : MeasurementId) (points : List Point) : Recording Bool :=
  ((appendPoints batchLimit id points).mapCalls RecorderCall.store fun _ answer => answer).bind
    fun
    | .ok _ => .done true
    | .error _ => .done false

/-- A procedure of the hardware. -/
def onHardware {α : Type} (p : Procedure HardwareAnswer α) : Recording α :=
  p.mapCalls RecorderCall.hardware fun _ answer => answer

/-- Refuses a measurement that is not open. -/
def ensureOpen (id : MeasurementId) : RecordingOr Unit :=
  ExceptT.mk (.call (.store (.load id)) fun
    | .error e => .done (.error (.setup e.message))
    | .ok m =>
      if m.status = .opened then .done (.ok ())
      else .done (.error (.setup s!"measurement {id.value} is {m.status.name}")))

/-- Attaches all sensors. Answers the number of sources beside the fix source. -/
def attach : RecordingOr Nat :=
  ExceptT.mk (.call (.hardware .provideFix) fun
    | .error e => .done (.error e)
    | .ok () => .call (.hardware .provideSources) fun
      | .error e => .done (.error e)
      | .ok sources => (onHardware (attachSensors sources)).bind fun
        | .error e => .done (.error e)
        | .ok () => .done (.ok sources))

/-- The capture of sensors that were attached now. -/
def newCapture (config : RecorderConfig) (sources now : Nat) : HeldCapture :=
  ⟨sources, Pump.start config.flushThreshold config.flushIntervalMs now, []⟩

/-! ### Events -/

/-- One failure to store something more, if it was not stored. -/
def countUnsaved (stats : SessionStats) (saved : Bool) : SessionStats :=
  if saved then stats else { stats with persistenceFailures := stats.persistenceFailures + 1 }

/-- A location is stored and told. -/
def handleLocation (config : RecorderConfig) (id : MeasurementId) (stats : SessionStats)
    (l : GeoLocation) : Recording SessionStats :=
  (save config.batchLimit id [.location l]).bind fun saved =>
    (tell (.location l)).bind fun () =>
      .done (countUnsaved { stats with locationsCaptured := stats.locationsCaptured + 1 } saved)

/-- Chunks of samples are stored and told one after another. -/
def handleChunks (config : RecorderConfig) (id : MeasurementId) (stats : SessionStats) :
    List SampleBatch → Recording SessionStats
  | [] => .done stats
  | chunk :: rest =>
    (save config.batchLimit id (chunk.toList.map .sample)).bind fun saved =>
      (tell (.data chunk)).bind fun () =>
        let counted : SessionStats :=
          { stats with samplesCaptured := stats.samplesCaptured + chunk.size
                       chunksDelivered := stats.chunksDelivered + 1 }
        handleChunks config id (countUnsaved counted saved) rest

/-- The counters after an event of a capture into a measurement. -/
def handleFor (config : RecorderConfig) (id : MeasurementId) (stats : SessionStats) :
    CaptureEvent → Recording SessionStats
  | .location l => handleLocation config id stats l
  | .data batch => handleChunks config id stats (batch.chunks config.chunkSize)
  | .fixAcquired => (tell .fixAcquired).bind fun () => .done stats
  | .fixLost => (tell .fixLost).bind fun () => .done stats
  | .failed e => (tell (.error e.message)).bind fun () =>
    .done { stats with captureFailures := stats.captureFailures + 1 }

/-- Handles an event of the capture. Outside a session it is dropped. -/
def handle (r : Recorder) (event : CaptureEvent) : Recording Recorder :=
  match r.session.measurement with
  | none => .done r
  | some id => (handleFor r.config id r.stats event).bind fun stats =>
    .done { r with stats := stats }

/-- Handles events one after another. -/
def handleAll (r : Recorder) : List CaptureEvent → Recording Recorder
  | [] => .done r
  | event :: rest => (r.handle event).bind fun r => r.handleAll rest

/-- Detaches all sensors and handles every event the capture still emits. -/
def detach (r : Recorder) (now : Nat) : Recording Recorder :=
  match r.capture with
  | none => .done r
  | some c => (onHardware (detachSensors c.sources)).bind fun () =>
    { r with capture := none }.handleAll (c.events ++ (c.pump.close now).2)

/-! ### Requests -/

/-- Starts recording into an open measurement. A start that fails changes nothing. -/
def start (r : Recorder) (id : MeasurementId) (now : Nat) :
    Recording (Except CaptureError Unit × Recorder) :=
  match r.session.beginStart id with
  | .error e => .done (.error e, r)
  | .ok session =>
    let attached : RecordingOr Nat := do
      ensureOpen id
      attach
    attached.run.bind fun
      | .error e => .done (.error e, { r with session := session.abortStart })
      | .ok sources => .call .acquire fun () =>
        let r : Recorder := { r with session := session
                                     stats := SessionStats.zero
                                     capture := some (newCapture r.config sources now) }
        match r.session.confirmStart with
        | .error e => .done (.error e, r)
        | .ok (_, session) =>
          (tell (.started id)).bind fun () => .done (.ok (), { r with session := session })

/-- Detaches the sensors for a while. -/
def pause (r : Recorder) (now : Nat) : Recording (Except CaptureError Unit × Recorder) :=
  match r.session.pause with
  | .error e => .done (.error e, r)
  | .ok (_, session) => ({ r with session := session }.detach now).bind fun r =>
    .call .release fun () => .done (.ok (), r)

/-- Attaches the sensors again. -/
def resume (r : Recorder) (now : Nat) : Recording (Except CaptureError Unit × Recorder) :=
  match r.session.resume with
  | .error e => .done (.error e, r)
  | .ok (id, session) =>
    let attached : RecordingOr Nat := do
      ensureOpen id
      attach
    attached.run.bind fun
      | .error e => .done (.error e, r)
      | .ok sources => .call .acquire fun () =>
        .done (.ok (), { r with session := session
                                capture := some (newCapture r.config sources now) })

/-- Stops recording and finishes the measurement. -/
def stop (r : Recorder) (now : Nat) : Recording (Except CaptureError StopReport × Recorder) :=
  match r.session.beginStop with
  | .error e => .done (.error e, r)
  | .ok (id, session) => ({ r with session := session }.detach now).bind fun r =>
    .call .release fun () => .call (.store (.setStatus id .finished)) fun answer =>
      let success := answer.isOk
      let r : Recorder := { r with session := r.session.finishStop }
      (tell (.stopped id success)).bind fun () =>
        .done (.ok ⟨id, success, r.stats.persistenceFailures⟩, r)

/-- Stops recording if there is anything to stop. -/
def shutDown (r : Recorder) (now : Nat) : Recording Recorder :=
  if r.session.isActive then (r.stop now).bind fun (_, r) => .done r else .done r

/-! ### The capture between requests -/

/-- Readings arrive. Answers whether they were taken. -/
def offer (r : Recorder) (readings : List Reading) : Recorder × Bool :=
  match r.capture with
  | none => (r, false)
  | some c =>
    let (pump, taken) := c.pump.offer readings
    ({ r with capture := some { c with pump := pump } }, taken)

/-- A move of the pump, whose events wait to be handled. -/
def onPump (r : Recorder) (move : Pump → Pump × List CaptureEvent) : Recorder :=
  match r.capture with
  | none => r
  | some c =>
    let (pump, events) := move c.pump
    { r with capture := some { c with pump := pump, events := c.events ++ events } }

/-- The pump takes in all readings that wait. -/
def settle (r : Recorder) (now : Nat) : Recorder := r.onPump fun p => p.settle now

/-- Time passes for the pump. -/
def advance (r : Recorder) (now ms : Nat) : Recorder := r.onPump fun p => p.advance now ms

/-- All sinks of the capture have vanished: the pump ends by itself. -/
def starve (r : Recorder) (now : Nat) : Recorder := r.onPump fun p => p.close now

/-- Handles all events that wait. -/
def handlePending (r : Recorder) : Recording Recorder :=
  match r.capture with
  | none => .done r
  | some c => { r with capture := some { c with events := [] } }.handleAll c.events

end Recorder

end TripRecorder
