import TripRecorder.Delivery.Message
import TripRecorder.Procedure

/-!
# The registry of observers

A message goes to the observers that are registered when its delivery begins. An observer that
fails is removed. Observers may change the registry while they are told.

## Main definitions

* `DeliveryError` — why an observer did not accept a message
* `Registered`, `Registry` — observers in the order of their registration
* `Registry.register`, `Registry.unregister`, `Registry.discard` — changes of a registry
* `deliver` — the procedure that tells all observers
-/

namespace TripRecorder

/-- Why an observer did not accept a message. -/
inductive DeliveryError where
  | disconnected
  /-- It had no room within this many milliseconds. -/
  | timeout (ms : Nat)
  | io (detail : String)
deriving DecidableEq, Repr

namespace DeliveryError

/-- The name of an error. -/
def name : DeliveryError → String
  | disconnected => "Disconnected"
  | timeout _ => "Timeout"
  | io _ => "Io"

/-- The text of an error. -/
def message : DeliveryError → String
  | disconnected => "Observer disconnected"
  | timeout ms => s!"Observer did not accept the message within {ms} ms"
  | io detail => s!"Failed to write message: {detail}"

end DeliveryError

/-- A registered observer. -/
structure Registered where
  /-- Tells apart observers that are registered under one identifier at different times. -/
  key : Nat
  id : String
deriving DecidableEq, Repr

/-- Observers in the order of their registration. -/
structure Registry where
  observers : List Registered
deriving DecidableEq, Repr

namespace Registry

/-- No observers. -/
def empty : Registry := ⟨[]⟩

/-- The number of observers. -/
def count (r : Registry) : Nat := r.observers.length

/-- Adds an observer unless its identifier is taken. -/
def register (r : Registry) (o : Registered) : Registry × Bool :=
  if r.observers.any fun other => other.id == o.id then (r, false)
  else (⟨r.observers ++ [o]⟩, true)

/-- Removes the observer with an identifier. -/
def unregister (r : Registry) (id : String) : Registry × Bool :=
  let left := r.observers.filter fun o => o.id != id
  (⟨left⟩, left.length != r.observers.length)

/-- Removes one observer and leaves another one with the same identifier alone. -/
def discard (r : Registry) (key : Nat) : Registry := ⟨r.observers.filter fun o => o.key != key⟩

end Registry

/-- What a delivery asks for. -/
inductive DeliveryCall where
  /-- Who is registered. -/
  | registered
  /-- Tell an observer. -/
  | offer (observer : Registered) (message : Message)
  /-- Remove an observer that failed. -/
  | discard (observer : Registered)

/-- The answers. -/
def DeliveryAnswer : DeliveryCall → Type
  | .registered => List Registered
  | .offer _ _ => Except DeliveryError Unit
  | .discard _ => Unit

/-- Tells observers one after another. Answers how many accepted the message. -/
def deliverTo (message : Message) : List Registered → Procedure DeliveryAnswer Nat
  | [] => .done 0
  | o :: rest => .call (.offer o message) fun
    | .ok () => (deliverTo message rest).bind fun n => .done (n + 1)
    | .error _ => .call (.discard o) fun () => deliverTo message rest

/-- Tells the observers that are registered now. Answers how many accepted the message. -/
def deliver (message : Message) : Procedure DeliveryAnswer Nat :=
  .call .registered fun observers => deliverTo message observers

end TripRecorder
