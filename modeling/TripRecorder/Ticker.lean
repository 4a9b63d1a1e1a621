/-!
# Tickers

A ticker is due at its start and then once a period. A tick that is noticed late delays those that
follow it.

## Main definitions

* `Ticker` — when the next tick is due
* `Ticker.fire` — the ticker after a tick was noticed
-/

namespace TripRecorder

/-- A ticker with a period of at least one millisecond. -/
structure Ticker where
  period : Nat
  /-- When the next tick is due. -/
  due : Nat
deriving DecidableEq, Repr

namespace Ticker

/-- A tick noticed within this many milliseconds is not late. -/
def slackMs : Nat := 5

/-- A ticker that starts now. Without a period there is no ticker. -/
def start? (period now : Nat) : Option Ticker :=
  if period = 0 then none else some ⟨period, now⟩

/-- A tick is due. -/
def isDue (t : Ticker) (now : Nat) : Bool := decide (t.due ≤ now)

/-- The ticker after a tick that was noticed now: the next tick follows the time it was due at, or
the time it was noticed if that was late. -/
def fire (t : Ticker) (now : Nat) : Ticker :=
  { t with due := (if t.due + slackMs < now then now else t.due) + t.period }

end Ticker

end TripRecorder
