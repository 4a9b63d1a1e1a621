import TripRecorder.Json.Record

/-!
# Position fixes

Whether a position can be determined is signalled by one source: satellites, or locations that keep
arriving. A signal that changes nothing is dropped.

## Main definitions

* `FixSignal`, `FixState`, `FixState.after` — the tracker that reports changes only
* `SatelliteWatcher`, `LocationWatcher` — signals from satellite reports and from locations
* `FixCandidate`, `FixCandidate.select` — the first source that works on a device
-/

namespace TripRecorder

open Json Record

/-- What a fix source can say. -/
inductive FixSignal where
  | acquired | lost
deriving DecidableEq, Repr

/-- Whether a position can be determined. -/
inductive FixState where
  | noFix | fixed
deriving DecidableEq, Repr

namespace FixState

/-- All states. -/
def all : List FixState := [noFix, fixed]

/-- The written name of a state. -/
def name : FixState → String
  | noFix => "NoFix"
  | fixed => "Fix"

/-- The state a signal asserts. -/
def ofSignal : FixSignal → FixState
  | .acquired => fixed
  | .lost => noFix

/-- The state after a signal, and the signal if it changed the state. -/
def after (state : FixState) (signal : FixSignal) : FixState × Option FixSignal :=
  if state = ofSignal signal then (state, none) else (ofSignal signal, some signal)

end FixState

instance : Coded FixState := ⟨caseOf? FixState.all FixState.name, fun s => .string s.name⟩

/-! ### Sources -/

/-- A report of a satellite receiver. -/
structure SatelliteStatus where
  visible : UInt32
  /-- Satellites that contribute to the position. -/
  used : UInt32
deriving DecidableEq, Repr

instance : Coded SatelliteStatus where
  ofTree? t := do
    match ← fields? ["visible", "used_in_fix"] t with
    | [visible, used] => return ⟨← required UInt32 visible, ← required UInt32 used⟩
    | _ => none
  toJson s := .object [("visible", toJson s.visible), ("used_in_fix", toJson s.used)]

/-- What happens to a watcher: its feed has something to say, or it ends. -/
inductive WatchEvent (Report : Type) where
  /-- The feed reports. -/
  | report (value : Report)
  /-- The feed was silent for the length of a timeout. -/
  | silence
  /-- The source is detached, or its feed has ended. -/
  | ended
deriving DecidableEq, Repr

/-- A source that has a fix while enough satellites contribute to the position. -/
structure SatelliteWatcher where
  minimum : UInt32
deriving DecidableEq, Repr

namespace SatelliteWatcher

/-- The signal of a report. -/
def signal (w : SatelliteWatcher) (status : SatelliteStatus) : FixSignal :=
  if w.minimum ≤ status.used then .acquired else .lost

/-- The watcher after an event, if it goes on, and the signal it passed on. A watcher ends when
nobody listens to its signal. -/
def step (w : SatelliteWatcher) (listening : Bool) :
    WatchEvent SatelliteStatus → Option SatelliteWatcher × Option FixSignal
  | .report status => if listening then (some w, some (w.signal status)) else (none, none)
  | .silence => (some w, none)
  | .ended => (none, none)

end SatelliteWatcher

/-- A source that has a fix while locations keep arriving. -/
structure LocationWatcher where
  /-- A location arrived since the last silence. -/
  hasFix : Bool
deriving DecidableEq, Repr

namespace LocationWatcher

/-- The watcher of a new attachment. -/
def fresh : LocationWatcher := ⟨false⟩

/-- The watcher after an event, if it goes on, and the signal it passed on: every location is
signalled, and the first silence after one. -/
def step (w : LocationWatcher) (listening : Bool) :
    WatchEvent Unit → Option LocationWatcher × Option FixSignal
  | .report () => if listening then (some ⟨true⟩, some .acquired) else (none, none)
  | .silence =>
    if w.hasFix then if listening then (some ⟨false⟩, some .lost) else (none, none)
    else (some ⟨false⟩, none)
  | .ended => (none, none)

end LocationWatcher

/-- The ways of observing a fix. -/
inductive FixSourceKind where
  | satellite | location
deriving DecidableEq, Repr

namespace FixSourceKind

/-- The name of a source of this kind. -/
def name : FixSourceKind → String
  | satellite => "satellite-status"
  | location => "location-timeout"

/-- Why a source of this kind cannot be attached a second time. -/
def attachedTwice : FixSourceKind → String
  | satellite => "satellite fix source already attached"
  | location => "location fix source already attached"

/-- Why a source of this kind cannot be attached without a feed. -/
def withoutFeed : FixSourceKind → String
  | satellite => "no satellite status feed"
  | location => "no location feed"

end FixSourceKind

/-- A fix source a device may have. -/
structure FixCandidate where
  kind : FixSourceKind
  /-- The device feeds it. -/
  hasFeed : Bool
deriving DecidableEq, Repr

/-- The first candidate that works on the device. -/
def FixCandidate.select (candidates : List FixCandidate) : Option FixCandidate :=
  candidates.find? fun c => c.hasFeed

end TripRecorder
