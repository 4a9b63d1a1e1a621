import TripRecorder.Capture.Error
import TripRecorder.Capture.Fix

/-!
# A bench for fix sources

One fix source is attached and detached for some rounds and reports into one capture, which keeps
its fix from round to round.

## Main definitions

* `FixBench`, `FixRound` — the source under test, and what its feed says in a round
* `FixBench.run` — the events of the rounds
-/

namespace TripRecorder

/-- The source under test. -/
structure FixBench where
  kind : FixSourceKind
  hasFeed : Bool
  minimum : UInt32
  /-- The capture still listens. -/
  listening : Bool
deriving DecidableEq, Repr

/-- What the feed says while the source is attached. -/
structure FixRound where
  statuses : List SatelliteStatus
  /-- Locations that arrive. -/
  readings : Nat
  /-- After the last location the feed falls silent. -/
  silence : Bool
  /-- The source is attached a second time. -/
  twice : Bool
deriving DecidableEq, Repr

/-- What came of a round. -/
structure FixRoundResult where
  attach : Except CaptureError Unit
  again : Option (Except CaptureError Unit)
  changes : List FixSignal

namespace FixBench

/-- The signals a watcher passes on for the events of its feed. -/
def signals {ω ρ : Type} (step : ω → WatchEvent ρ → Option ω × Option FixSignal) :
    Option ω → List (WatchEvent ρ) → List FixSignal
  | none, _ => []
  | some _, [] => []
  | some w, e :: rest =>
    let (next, signal) := step w e
    signal.toList ++ signals step next rest

/-- The changes of a fix that some signals make. -/
def changes (state : FixState) : List FixSignal → FixState × List FixSignal
  | [] => (state, [])
  | s :: rest =>
    let (state, change) := state.after s
    let (state, others) := changes state rest
    (state, change.toList ++ others)

/-- The signals of a round. -/
def roundSignals (b : FixBench) (round : FixRound) : List FixSignal :=
  match b.kind with
  | .satellite =>
    signals (fun (w : SatelliteWatcher) => w.step b.listening) (some ⟨b.minimum⟩)
      (round.statuses.map .report)
  | .location =>
    signals (fun (w : LocationWatcher) => w.step b.listening) (some LocationWatcher.fresh)
      (List.replicate round.readings (.report ()) ++ if round.silence then [.silence] else [])

/-- Why a source without a feed cannot be attached. -/
def missingFeed (b : FixBench) : CaptureError := .capabilityUnavailable b.kind.withoutFeed

/-- One round, starting with a fix. -/
def runRound (b : FixBench) (state : FixState) (round : FixRound) : FixState × FixRoundResult :=
  if b.hasFeed then
    let (state, changed) := changes state (b.roundSignals round)
    let again := if round.twice then some (.error (.invalidState b.kind.attachedTwice)) else none
    (state, ⟨.ok (), again, changed⟩)
  else
    let refused : Except CaptureError Unit := .error b.missingFeed
    (state, ⟨refused, if round.twice then some refused else none, []⟩)

/-- The rounds, one after another. -/
def runFrom (b : FixBench) (state : FixState) : List FixRound → List FixRoundResult
  | [] => []
  | round :: rest =>
    let (state, result) := b.runRound state round
    result :: b.runFrom state rest

/-- The rounds on a new capture. -/
def run (b : FixBench) (rounds : List FixRound) : List FixRoundResult := b.runFrom .noFix rounds

end FixBench

end TripRecorder
