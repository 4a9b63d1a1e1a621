import TripRecorder.Capture.Pump
import TripRecorder.Simulation.Sensors

/-!
# A bench for simulated sensors

The rounds of simulated sensors in a span of time, reported into one capture.

## Main definitions

* `SimulationBench` — a capture and what became of its sources
* `SimulationBench.run` — the rounds, and then the end of the capture
-/

namespace TripRecorder

/-- How the sensors are attached. -/
structure SimulationSetup where
  config : SimulationConfig
  flushThreshold : Nat
  flushIntervalMs : Nat
  /-- The reports of satellites that someone keeps, at most so many. -/
  feedCapacity : Nat
  /-- The fix source of the device reports as well, and needs so many satellites. -/
  fixMinimum : Option UInt32
deriving DecidableEq, Repr

/-- A capture of simulated sensors. -/
structure SimulationBench where
  now : Nat
  pump : Pump
  /-- Sources that found nobody listening. -/
  stopped : List SimulatedSource
  feed : List SatelliteStatus
  /-- Events of the capture, the last ones first. -/
  events : List (List CaptureEvent)
deriving DecidableEq, Repr

namespace SimulationBench

/-- The readings of a round. -/
def readings (s : SimulationSetup) (source : SimulatedSource) (round : Nat) (time : Int64) :
    List Reading :=
  match source with
  | .motion => (s.config.motion round time).map .sample
  | .position =>
    .location (s.config.location round time) ::
      (s.fixMinimum.map fun m => Reading.fix (s.config.fixSignal m)).toList

/-- The feed of satellites after a round. A full feed drops the report. -/
def report (s : SimulationSetup) (source : SimulatedSource) (feed : List SatelliteStatus) :
    List SatelliteStatus :=
  if source = .position ∧ feed.length < s.feedCapacity then
    feed ++ s.config.satelliteReport.toList
  else feed

/-- One round of a source at its time. A source stops when it finds nobody listening, which can be
so from its second round on. -/
def step (s : SimulationSetup) (b : SimulationBench) (source : SimulatedSource) (round : Nat) :
    SimulationBench :=
  if source ∈ b.stopped then b
  else
    let time := round * s.config.period source
    let (pump, before) := b.pump.advance b.now (time - b.now)
    let (pump, taken) := pump.offer (readings s source round (Int64.ofNat time))
    let (pump, events) := pump.settle time
    { now := time
      pump := pump
      stopped := if taken || round = 0 then b.stopped else source :: b.stopped
      feed := report s source b.feed
      events := events :: before :: b.events }

/-- The rounds of all sources until some time, in the order of their times. -/
def rounds (s : SimulationSetup) (ms : Nat) : List (SimulatedSource × Nat) :=
  let all := SimulatedSource.all.flatMap fun source =>
    (List.range (ms / s.config.period source + 1)).map fun (k : Nat) => (source, k)
  all.mergeSort fun a b =>
    decide (a.2 * s.config.period a.1 ≤ b.2 * s.config.period b.1)

/-- All rounds until some time, and the end of the capture. -/
def run (s : SimulationSetup) (ms : Nat) : SimulationBench :=
  let pump := Pump.start s.flushThreshold s.flushIntervalMs 0
  let b := (rounds s ms).foldl (fun b r => step s b r.1 r.2) ⟨0, pump, [], [], []⟩
  let (pump, before) := b.pump.advance b.now (ms - b.now)
  let (pump, last) := pump.close ms
  { b with now := ms, pump := pump, events := last :: before :: b.events }

/-- The events in their order. -/
def captured (b : SimulationBench) : List CaptureEvent := b.events.reverse.flatten

/-- The locations captured. -/
def locations (b : SimulationBench) : List GeoLocation := b.captured.filterMap fun
  | .location l => some l
  | _ => none

/-- The samples of a kind captured. -/
def samples (b : SimulationBench) (kind : SampleKind) : List Sample := b.captured.flatMap fun
  | .data batch => batch.toList.filter fun s => s.kind = kind
  | _ => []

end SimulationBench

end TripRecorder
