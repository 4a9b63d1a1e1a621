import TripRecorder.Delivery.Registry

/-!
# Observers

A mailbox holds messages until they are taken out. A line writer writes each message as a line; its
lines wait in a queue while the reader is slow.

## Main definitions

* `Mailbox`, `Mailbox.offer` — a bounded queue of messages
* `LineWriter`, `LineWriter.offer`, `LineWriter.openGate` — a bounded queue of lines and its writer
-/

namespace TripRecorder

/-- A bounded queue of messages. -/
structure Mailbox where
  capacity : Nat
  timeoutMs : Nat
  messages : List Message
  /-- Someone may still take messages out. -/
  connected : Bool
deriving DecidableEq, Repr

namespace Mailbox

/-- An empty mailbox. -/
def fresh (capacity timeoutMs : Nat) : Mailbox := ⟨capacity, timeoutMs, [], true⟩

/-- Puts a message in, if there is room. -/
def offer (m : Mailbox) (message : Message) : Except DeliveryError Unit × Mailbox :=
  if m.connected then
    if m.messages.length < m.capacity then
      (.ok (), { m with messages := m.messages ++ [message] })
    else (.error (.timeout m.timeoutMs), m)
  else (.error .disconnected, m)

/-- Takes all messages out. -/
def drain (m : Mailbox) : List Message × Mailbox := (m.messages, { m with messages := [] })

/-- Nobody will take messages out any more. -/
def disconnect (m : Mailbox) : Mailbox := { m with messages := [], connected := false }

end Mailbox

/-- A bounded queue of lines and its writer. -/
structure LineWriter where
  capacity : Nat
  timeoutMs : Nat
  /-- The reader takes lines. -/
  gateOpen : Bool
  /-- After so many lines a write fails. -/
  failAfter : Option Nat
  /-- The line the writer holds while the reader takes none. -/
  taken : Option String
  queue : List String
  written : List String
  /-- A write failed, and the writer has ended. -/
  ended : Bool
deriving DecidableEq, Repr

namespace LineWriter

/-- A writer with nothing to write. -/
def fresh (capacity timeoutMs : Nat) (stalled : Bool) (failAfter : Option Nat) : LineWriter :=
  ⟨capacity, timeoutMs, !stalled, failAfter, none, [], [], false⟩

/-- Writes a line, or fails and ends. -/
def write (w : LineWriter) (line : String) : LineWriter :=
  if w.ended then w
  else
    match w.failAfter with
    | some n =>
      if n ≤ w.written.length then { w with ended := true }
      else { w with written := w.written ++ [line] }
    | none => { w with written := w.written ++ [line] }

/-- Hands a line over, if the writer is idle or there is room in the queue. -/
def offerLine (w : LineWriter) (line : String) : Except DeliveryError Unit × LineWriter :=
  if w.ended then (.error .disconnected, w)
  else if w.gateOpen then (.ok (), w.write line)
  else
    match w.taken with
    | none => (.ok (), { w with taken := some line })
    | some _ =>
      if w.queue.length < w.capacity then (.ok (), { w with queue := w.queue ++ [line] })
      else (.error (.timeout w.timeoutMs), w)

/-- Hands the line of a message over. -/
def offer (w : LineWriter) (message : Message) : Except DeliveryError Unit × LineWriter :=
  w.offerLine message.line

/-- The reader takes lines from now on. -/
def openGate (w : LineWriter) : LineWriter :=
  (w.taken.toList ++ w.queue).foldl write { w with gateOpen := true, taken := none, queue := [] }

/-- The writer ends when all lines are written. -/
def finish (w : LineWriter) : List String := w.openGate.written

end LineWriter

end TripRecorder
