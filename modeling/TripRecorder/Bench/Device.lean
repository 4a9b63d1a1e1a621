import TripRecorder.Bench.Capture
import TripRecorder.Bench.Collector
import TripRecorder.Bench.Delivery
import TripRecorder.Service.Confirmation
import TripRecorder.Service.Recorder
import TripRecorder.Sync.Scheduler

/-!
# A bench for a whole device

One store with a recorder, its sensors and observers, and with a scheduler of sync cycles, under a
clock that moves only on demand.

## Main definitions

* `DeviceBench` — the device
* `DeviceBench.settle`, `DeviceBench.pass` — what is due is done, and time passes
* `DeviceBench.start`, `DeviceBench.stop`, … — requests to the recorder
* `DeviceBench.runCycle`, `DeviceBench.schedule`, `DeviceBench.endSchedule` — sync cycles
* `DeviceBench.finishStep`, `DeviceBench.collect` — what happens after a step, and what it left
-/

namespace TripRecorder

/-- A recorder that takes requests. -/
structure BenchService where
  recorder : Recorder
  /-- How long its callers wait for an answer. -/
  timeoutMs : Nat
  /-- Requests can be made through a handle. -/
  reachable : Bool
  /-- It takes requests. -/
  alive : Bool

/-- A cycle that waits for its token. -/
structure WaitingCycle where
  /-- When the wait is over. -/
  due : Nat
  /-- The provider it asked. -/
  credentials : Credentials

/-- A scheduler with what its cycles need. -/
structure Schedule where
  scheduler : Scheduler
  ticker : Option Ticker
  account : String
  timeoutMs : Nat
  /-- The provider of its cycles, where it is not the one of the device. -/
  credentials : Option Credentials
  cycle : Option WaitingCycle

/-- A device. -/
structure DeviceBench where
  now : Nat
  sync : SyncBench
  delivery : DeliveryBench
  sensors : ScriptedSensors
  /-- The device counts how often it is kept awake. -/
  counts : Bool
  /-- How often it is kept awake more than it is let go. -/
  held : Int
  service : Option BenchService
  /-- Confirmations that nobody has taken yet are kept, each in its place. -/
  confirmations : List (Option Confirmation)
  plan : Option Schedule
  /-- Mailboxes that are emptied on demand only. -/
  manual : List String

namespace DeviceBench

/-- A device without a recorder. -/
def fresh (sync : SyncBench) : DeviceBench where
  now := 0
  sync := sync
  delivery := DeliveryBench.empty
  sensors := ScriptedSensors.fresh 0 false SensorScript.works
  counts := true
  held := 0
  service := none
  confirmations := []
  plan := none
  manual := []

/-- A device with another store. -/
def withStore (b : DeviceBench) (store : Store) : DeviceBench :=
  { b with sync := { b.sync with store := store } }

/-- The device is kept awake more or less often. -/
def hold (b : DeviceBench) (change : Int) : DeviceBench :=
  if b.counts then { b with held := b.held + change } else b

/-- The answers to the recorder. -/
def serve : (c : RecorderCall) → DeviceBench → RecorderAnswer c × DeviceBench
  | .store c, b =>
    let (answer, store) := Store.serve c b.sync.store
    (answer, b.withStore store)
  | .hardware c, b =>
    let (answer, sensors) := ScriptedSensors.serve c b.sensors
    (answer, { b with sensors := sensors })
  | .acquire, b => ((), b.hold 1)
  | .release, b => ((), b.hold (-1))
  | .deliver message, b =>
    let ((accepted, _), delivery) := b.delivery.deliver message
    (accepted, { b with delivery := delivery })

/-- The recorder in a later state. -/
def putRecorder (b : DeviceBench) (r : Recorder) : DeviceBench :=
  { b with service := b.service.map fun s => { s with recorder := r } }

/-- A move of the recorder alone. -/
def move (b : DeviceBench) (p : Recorder → Recording Recorder) : DeviceBench :=
  match b.service with
  | some s =>
    let (r, b) := (p s.recorder).run serve b
    b.putRecorder r
  | none => b

/-! ### Time -/

/-- The pump of the capture notices what is due, and the recorder handles its events. -/
def settleCapture (b : DeviceBench) : DeviceBench :=
  b.move fun r => (r.advance b.now 0).handlePending

/-- The scheduler starts a cycle. -/
def startCycle (b : DeviceBench) (plan : Schedule) (scheduler : Scheduler)
    (ticker : Option Ticker) : DeviceBench :=
  let credentials := plan.credentials.getD b.sync.credentials
  let cycle : WaitingCycle := ⟨b.now + credentials.waitMs plan.timeoutMs, credentials⟩
  { b with plan := some { plan with scheduler := scheduler, ticker := ticker,
                                    cycle := some cycle } }

/-- The cycle of the scheduler has its answer from the provider, and runs to its end. -/
def finishCycle (b : DeviceBench) (plan : Schedule) (cycle : WaitingCycle) : DeviceBench :=
  let (_, sync) := b.sync.cycle cycle.credentials plan.timeoutMs plan.account
  { b with sync := sync
           plan := some { plan with scheduler := plan.scheduler.complete, cycle := none } }

/-- What the scheduler does next at this time, if there is anything. -/
def stepSchedule (b : DeviceBench) (plan : Schedule) : Option DeviceBench :=
  match plan.cycle with
  | some cycle => if cycle.due ≤ b.now then some (b.finishCycle plan cycle) else none
  | none =>
    match plan.scheduler.end? with
    | some scheduler => some { b with plan := some { plan with scheduler := scheduler } }
    | none =>
      match plan.ticker.filter fun t => t.isDue b.now, plan.scheduler.start? .tick with
      | some ticker, some scheduler =>
        some (b.startCycle plan scheduler (some (ticker.fire b.now)))
      | _, _ =>
        match plan.scheduler.start? .trigger with
        | some scheduler => some (b.startCycle plan scheduler plan.ticker)
        | none => none

/-- The scheduler does what it can at this time. The fuel bounds its steps. -/
def settleSchedule : Nat → DeviceBench → DeviceBench
  | 0, b => b
  | fuel + 1, b =>
    match b.plan.bind b.stepSchedule with
    | some b => settleSchedule fuel b
    | none => b

/-- More steps than a scheduler takes at one time: two for each tick that is due or late, and for
each trigger it keeps, and one for its end. -/
def scheduleFuel (b : DeviceBench) : Nat :=
  match b.plan with
  | some plan =>
    let ticks := match plan.ticker with
      | some t => b.now + 1 - t.due
      | none => 0
    2 * (ticks + plan.scheduler.kept) + 4
  | none => 0

/-- Everything that can happen at this time happens. -/
def settle (b : DeviceBench) : DeviceBench :=
  let b := b.settleCapture
  settleSchedule b.scheduleFuel b

/-- When the pump is due. -/
def captureDue? (b : DeviceBench) : Option Nat := do
  let capture ← (← b.service).recorder.capture
  return (← capture.pump.ticker).due

/-- When the scheduler is due: at the end of its cycle, or at its next tick. -/
def scheduleDue? (b : DeviceBench) : Option Nat := do
  let plan ← b.plan
  match plan.cycle with
  | some cycle => return cycle.due
  | none => if plan.scheduler.phase = .waiting then return (← plan.ticker).due else none

/-- The next time at which something is due. -/
def nextDue? (b : DeviceBench) : Option Nat :=
  match b.captureDue?, b.scheduleDue? with
  | some s, some t => some (min s t)
  | some s, none => some s
  | none, due => due

/-- Time passes until some time, and everything that is due happens when it is due. The fuel bounds
the number of times at which something is. -/
def passUntil (time : Nat) : Nat → DeviceBench → DeviceBench
  | 0, b => { b with now := max b.now time }
  | fuel + 1, b =>
    match b.nextDue? with
    | some due =>
      if due ≤ time then passUntil time fuel { b with now := max b.now due }.settle
      else { b with now := max b.now time }
    | none => { b with now := max b.now time }

/-- Time passes. -/
def pass (b : DeviceBench) (ms : Nat) : DeviceBench :=
  passUntil (b.now + ms) (ms + 1) b.settle

/-! ### Requests -/

/-- A request that changes the device and is answered, unless its caller does not wait. Without a
handle there is no answer. -/
def request {α : Type} (b : DeviceBench) (timeoutMs : Nat)
    (r : BenchService → Except CaptureError α × DeviceBench) :
    Option (Except CaptureError α) × DeviceBench :=
  match b.service with
  | none => (none, b)
  | some s =>
    if !s.reachable then (none, b)
    else if !s.alive then (some (.error .serviceGone), b)
    else
      let (answer, b) := r s
      (some (if timeoutMs = 0 then .error (.timeout 0) else answer), b)

/-- A request to the recorder. -/
def requestRecorder {α : Type} (b : DeviceBench) (timeoutMs : Nat)
    (p : Recorder → Recording (Except CaptureError α × Recorder)) :
    Option (Except CaptureError α) × DeviceBench :=
  b.request timeoutMs fun s =>
    let ((answer, r), b) := (p s.recorder).run serve b
    (answer, b.putRecorder r)

/-- How long callers wait who do not say so. -/
def timeoutMs (b : DeviceBench) : Nat := (b.service.map fun s => s.timeoutMs).getD 0

/-- Starts recording into a measurement. -/
def start (b : DeviceBench) (id : MeasurementId) :
    Option (Except CaptureError Unit) × DeviceBench :=
  b.requestRecorder b.timeoutMs fun r => r.start id b.now

/-- Pauses recording. -/
def pause (b : DeviceBench) (withinMs : Option Nat) :
    Option (Except CaptureError Unit) × DeviceBench :=
  b.requestRecorder (withinMs.getD b.timeoutMs) fun r => r.pause b.now

/-- Goes on recording. -/
def resume (b : DeviceBench) (withinMs : Option Nat) :
    Option (Except CaptureError Unit) × DeviceBench :=
  b.requestRecorder (withinMs.getD b.timeoutMs) fun r => r.resume b.now

/-- Asks for the state of the recorder. -/
def ping (b : DeviceBench) (withinMs : Nat) :
    Option (Except CaptureError ServiceStatus) × DeviceBench :=
  b.request withinMs fun s => (.ok s.recorder.status, b)

/-- Adds an observer to the bench and registers it. A mailbox takes the place of an earlier one with
its name, out of which nobody will take messages any more. -/
def register (b : DeviceBench) (name id : String) (state : ObserverState) (manual : Bool) :
    Option (Except CaptureError Bool) × DeviceBench :=
  b.request b.timeoutMs fun _ =>
    let delivery := match state with
      | .mailbox _ => (b.delivery.disconnect name).2
      | _ => b.delivery
    let (result, delivery) := (delivery.add name id state).register name
    let others := b.manual.filter fun n => n != name
    (.ok (result.getD false),
      { b with delivery := delivery, manual := if manual then name :: others else others })

/-- Removes an observer. -/
def unregister (b : DeviceBench) (id : String) : Option (Except CaptureError Bool) × DeviceBench :=
  b.request b.timeoutMs fun _ =>
    let (result, delivery) := b.delivery.unregister id
    (.ok result, { b with delivery := delivery })

/-- The recorder stops what it does and takes no more requests. -/
def quit (b : DeviceBench) : DeviceBench :=
  let b := b.move fun r => r.shutDown b.now
  { b with service := b.service.map fun s => { s with alive := false } }

/-- Shuts the recorder down. -/
def shutDown (b : DeviceBench) : Option (Except CaptureError Unit) × DeviceBench :=
  b.request b.timeoutMs fun _ => (.ok (), b.quit)

/-- All handles of the recorder are dropped, and it ends. -/
def dropHandles (b : DeviceBench) : DeviceBench :=
  let b := match b.service with
    | some s => if s.alive then b.quit else b
    | none => b
  { b with service := b.service.map fun s => { s with reachable := false } }

/-- A new recorder with new sensors and no observers takes the place of an earlier one. -/
def spawn (b : DeviceBench) (config : CaptureConfig) (counts : Bool) (sensors : ScriptedSensors) :
    DeviceBench :=
  let b := b.dropHandles
  let recorder := Recorder.fresh
    ⟨config.chunkSize, config.flushThreshold, config.flushIntervalMs, b.sync.store.batchLimit⟩
  { b with delivery := { b.delivery with registry := Registry.empty }
           sensors := sensors
           counts := counts
           held := 0
           service := some ⟨recorder, config.pauseResumeTimeoutMs, true, true⟩ }

/-! ### Stops -/

/-- What someone does with the confirmation of a stop. -/
inductive StopMode where
  /-- Wait for it, at most for some time. -/
  | wait (withinMs : Option Nat)
  /-- Give it up twice before the stop is done, and then wait. -/
  | cancelTwice
  /-- Give it up when the stop is done, and then wait. -/
  | cancelAfter
  | drop
  /-- Keep it for later. -/
  | keep

/-- What comes of a stop. -/
inductive StopAnswer where
  | waited (result : Except CaptureError StopReport)
  /-- Whether each giving up was the first one, and what waiting answered. -/
  | cancelled (first : List Bool) (result : Except CaptureError StopReport)
  | dropped
  /-- The place of a confirmation that was kept. -/
  | kept (place : Nat)

/-- The answer of waiting for a confirmation that is not fired any more. -/
def awaited (c : Confirmation) : Except CaptureError StopReport :=
  c.wait?.getD (.error .serviceGone)

/-- Stops recording and fires a confirmation. -/
def stopInto (b : DeviceBench) (c : Confirmation) :
    Option (Except CaptureError Confirmation) × DeviceBench :=
  b.request 1 fun s =>
    let ((result, r), b) := (s.recorder.stop b.now).run serve b
    (.ok (c.fire result).1, b.putRecorder r)

/-- Stops recording. -/
def stop (b : DeviceBench) (mode : StopMode) :
    Option (Except CaptureError StopAnswer) × DeviceBench :=
  let answered (b : DeviceBench) (f : Confirmation → StopAnswer) :
      Option (Except CaptureError StopAnswer) × DeviceBench :=
    let (c, b) := b.stopInto .pending
    (c.map fun c => c.map f, b)
  match mode with
  | .wait withinMs => answered b fun c =>
    .waited (if withinMs = some 0 then .error (.timeout 0) else awaited c)
  | .cancelTwice =>
    let (c, first) := Confirmation.pending.cancel
    let (c, second) := c.cancel
    let (fired, b) := b.stopInto c
    (fired.map fun c => c.map fun c => .cancelled [first, second] (awaited c), b)
  | .cancelAfter => answered b fun c =>
    let (c, first) := c.cancel
    .cancelled [first] (awaited c)
  | .drop => answered b fun _ => .dropped
  | .keep =>
    match b.stopInto .pending with
    | (some (.ok c), b) =>
      (some (.ok (.kept b.confirmations.length)),
        { b with confirmations := b.confirmations ++ [some c] })
    | (some (.error e), b) => (some (.error e), b)
    | (none, b) => (none, b)

/-- Waits for the confirmation in some place, which is taken. -/
def await (b : DeviceBench) (place : Nat) : Option (Except CaptureError StopReport) × DeviceBench :=
  match (b.confirmations[place]?).join with
  | some c => (some (awaited c), { b with confirmations := b.confirmations.set place none })
  | none => (none, b)

/-! ### Sensors -/

/-- Readings come in through a source. -/
def inject (b : DeviceBench) (source : Nat) (what : List Injection) : InjectCount × DeviceBench :=
  match b.service.bind fun s => s.recorder.capture.map fun c => (s.recorder, c) with
  | some (r, c) =>
    let (pump, count) := injectAll b.sensors b.sensors.attachment source c.pump what
    (count, b.putRecorder { r with capture := some { c with pump := pump } })
  | none =>
    let refused := (what.flatMap fun i => i.toReadings source).length
    (⟨0, refused⟩, b)

/-- All sinks vanish, and with them the capture ends. -/
def dropSinks (b : DeviceBench) : DeviceBench :=
  let b := match b.service with
    | some s => b.putRecorder (s.recorder.starve b.now)
    | none => b
  { b with sensors := b.sensors.dropSinks }

/-! ### Sync -/

/-- Runs a cycle with some credentials, or with those of the device. -/
def runCycle (b : DeviceBench) (credentials : Option Credentials) (timeoutMs : Nat)
    (account : String) : Except SyncError SyncReport × DeviceBench :=
  let credentials := credentials.getD b.sync.credentials
  let b := b.pass (credentials.waitMs timeoutMs)
  let (result, sync) := b.sync.cycle credentials timeoutMs account
  (result, { b with sync := sync })

/-- Runs a scheduler from now on. -/
def schedule (b : DeviceBench) (intervalMs : Nat) (credentials : Option Credentials)
    (timeoutMs : Nat) (account : String) : DeviceBench :=
  let scheduler := if intervalMs = 0 then Scheduler.dead else Scheduler.fresh
  { b with plan := some ⟨scheduler, Ticker.start? intervalMs b.now, account, timeoutMs,
                         credentials, none⟩ }

/-- Triggers the scheduler some times. Answers whether there is one. -/
def trigger (b : DeviceBench) (times : Nat) : Bool × DeviceBench :=
  match b.plan with
  | some plan =>
    let scheduler := (List.range times).foldl (fun s _ => s.trigger) plan.scheduler
    (true, { b with plan := some { plan with scheduler := scheduler } })
  | none => (false, b)

/-- Ends the scheduler when the cycle that runs has come to its end. Answers how many cycles it
started. -/
def endSchedule (b : DeviceBench) : Option Nat × DeviceBench :=
  match b.plan with
  | some plan =>
    let left := match plan.cycle with
      | some cycle => cycle.due - b.now
      | none => 0
    let stopping : Schedule := { plan with scheduler := plan.scheduler.requestStop }
    let b := { b with plan := some stopping }.pass left
    ((b.plan.map fun p => p.scheduler.cycles), { b with plan := none })
  | none => (none, b)

/-! ### Steps -/

/-- What happens after a step: everything that can, unless it is held back, and with a scheduler a
millisecond passes. -/
def finishStep (b : DeviceBench) (held : Bool) : DeviceBench :=
  if b.plan.isSome then b.pass 1 else if held then b else b.settle

/-- What a step left behind. -/
structure Traces where
  /-- The messages in each mailbox. -/
  messages : List (String × List Message)
  uploads : List UploadRequest
  progress : List SyncProgress

/-- Takes what a step left behind. -/
def collect (b : DeviceBench) : Traces × DeviceBench :=
  let names := (b.delivery.observers.map fun o => o.name).eraseDups.filter fun n =>
    !b.manual.contains n
  let (messages, delivery) := names.foldl (fun (found, delivery) name =>
    match delivery.drain name with
    | (some (m :: ms), delivery) => (found ++ [(name, m :: ms)], delivery)
    | _ => (found, delivery)) (([] : List (String × List Message)), b.delivery)
  (⟨messages, b.sync.uploads, b.sync.progress⟩,
    { b with delivery := delivery, sync := { b.sync with uploads := [], progress := [] } })

end DeviceBench

end TripRecorder
