import TripRecorder.Capture.Intake
import TripRecorder.Ticker

/-!
# The pump of a capture

Readings are queued as they arrive. The pump takes them in one at a time and between them notices
ticks. When it is closed it still takes in what is queued, and releases what is buffered.

## Main definitions

* `Pump` — an intake with its queue and its ticker
* `Pump.offer` — a reading arrives
* `Pump.step`, `Pump.settle`, `Pump.tick`, `Pump.close` — the moves of a pump
* `Pump.advance` — the ticks of a span of time
-/

namespace TripRecorder

/-- A pump. -/
structure Pump where
  intake : Intake
  /-- Readings that wait to be taken in, in the order of their arrival. -/
  queue : List Reading
  /-- The ticker, while the pump runs. -/
  ticker : Option Ticker
deriving DecidableEq, Repr

namespace Pump

/-- A pump that starts now. Without a flush interval there is no ticker, and it does not run. -/
def start (threshold intervalMs now : Nat) : Pump :=
  ⟨Intake.fresh threshold intervalMs now, [], Ticker.start? intervalMs now⟩

/-- It takes in readings. -/
def isRunning (p : Pump) : Bool := p.ticker.isSome

/-- Readings arrive, and are refused if the pump does not run. -/
def offer (p : Pump) (readings : List Reading) : Pump × Bool :=
  if p.isRunning then ({ p with queue := p.queue ++ readings }, true) else (p, false)

/-- Takes in the reading that waits longest. -/
def step (p : Pump) (now : Nat) : Pump × List CaptureEvent :=
  match p.isRunning, p.queue with
  | true, r :: rest =>
    let (intake, events) := p.intake.handle now r
    ({ p with intake := intake, queue := rest }, events)
  | _, _ => (p, [])

/-- Takes in all readings that wait. -/
def settle (p : Pump) (now : Nat) : Pump × List CaptureEvent :=
  if p.isRunning then
    let (intake, events) := p.intake.handleAll now p.queue
    ({ p with intake := intake, queue := [] }, events)
  else (p, [])

/-- Notices a tick that is due. -/
def tick (p : Pump) (now : Nat) : Pump × List CaptureEvent :=
  match p.ticker with
  | some t =>
    if t.isDue now then
      let (intake, events) := p.intake.tick now
      ({ p with intake := intake, ticker := some (t.fire now) }, events)
    else (p, [])
  | none => (p, [])

/-- Takes in what waits, releases what is buffered, and ends. -/
def close (p : Pump) (now : Nat) : Pump × List CaptureEvent :=
  if p.isRunning then
    let (intake, events) := p.intake.handleAll now p.queue
    let (intake, last) := intake.flush now
    (⟨intake.reset, [], none⟩, events ++ last)
  else (p, [])

/-- Notices the ticks that are due until a time, each when it is due. The fuel bounds their
number. -/
def ticksUntil (time : Nat) : Nat → Pump → Pump × List CaptureEvent
  | 0, p => (p, [])
  | fuel + 1, p =>
    match p.ticker with
    | some t =>
      if t.due ≤ time then
        let (p, first) := p.tick t.due
        let (p, others) := ticksUntil time fuel p
        (p, first ++ others)
      else (p, [])
    | none => (p, [])

/-- Time passes: what waits is taken in, and then the ticks until the new time are noticed. -/
def advance (p : Pump) (now ms : Nat) : Pump × List CaptureEvent :=
  let (p, first) := p.settle now
  let fuel := match p.ticker with
    | some t => (now + ms - t.due) / t.period + 1
    | none => 0
  let (p, others) := ticksUntil (now + ms) fuel p
  (p, first ++ others)

end Pump

end TripRecorder
