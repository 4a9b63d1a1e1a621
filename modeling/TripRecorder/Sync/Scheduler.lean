import TripRecorder.Ticker

/-!
# Scheduling cycles

A scheduler runs a cycle at every tick and at every trigger, one at a time. Triggers that come while
a cycle runs are kept as one. While it waits, a first trigger wakes it, and one more is kept.

## Main definitions

* `Scheduler` — what it is doing, the triggers it keeps, and the cycles it has started
* `Scheduler.trigger`, `Scheduler.start`, `Scheduler.complete`, `Scheduler.stop` — its moves
-/

namespace TripRecorder

/-- What a scheduler is doing. -/
inductive SchedulerPhase where
  | waiting
  /-- A cycle runs. -/
  | running
  | ended
deriving DecidableEq, Repr

/-- A scheduler. -/
structure Scheduler where
  phase : SchedulerPhase
  /-- Triggers that will each start a cycle. -/
  kept : Nat
  /-- It is to end when no cycle runs. -/
  stopping : Bool
  /-- Cycles started. -/
  cycles : Nat
deriving DecidableEq, Repr

/-- Why a cycle is started. -/
inductive StartCause where
  | tick | trigger
deriving DecidableEq, Repr

namespace Scheduler

/-- A scheduler before its first tick. -/
def fresh : Scheduler := ⟨.waiting, 0, false, 0⟩

/-- A scheduler that cannot tick never starts anything. -/
def dead : Scheduler := ⟨.ended, 0, false, 0⟩

/-- Someone asks for a cycle. -/
def trigger (s : Scheduler) : Scheduler :=
  match s.phase with
  | .waiting => { s with kept := min (s.kept + 1) 2 }
  | .running => { s with kept := min (s.kept + 1) 1 }
  | .ended => s

/-- A waiting scheduler starts a cycle, at a tick or at a kept trigger. -/
def start? (s : Scheduler) (cause : StartCause) : Option Scheduler :=
  if s.phase = .waiting then
    match cause with
    | .tick => some { s with phase := .running, kept := min s.kept 1, cycles := s.cycles + 1 }
    | .trigger =>
      if s.kept = 0 then none
      else some { s with phase := .running, kept := s.kept - 1, cycles := s.cycles + 1 }
  else none

/-- The running cycle came to its end, whatever it did. -/
def complete (s : Scheduler) : Scheduler :=
  if s.phase = .running then { s with phase := .waiting } else s

/-- It is to end. -/
def requestStop (s : Scheduler) : Scheduler := { s with stopping := true }

/-- A waiting scheduler that is to end does so. -/
def end? (s : Scheduler) : Option Scheduler :=
  if s.phase = .waiting ∧ s.stopping then some { s with phase := .ended } else none

end Scheduler

end TripRecorder
