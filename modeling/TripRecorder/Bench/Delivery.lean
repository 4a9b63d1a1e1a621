import TripRecorder.Delivery.Observer

/-!
# A bench for deliveries

Observers of several kinds and one registry.

## Main definitions

* `ObserverState` — mailboxes, writers, and observers that fail or change the registry
* `DeliveryBench` — observers under names of the bench, and the registry
* `DeliveryBench.deliver` — a delivery on the bench
-/

namespace TripRecorder

/-- The state of an observer. -/
inductive ObserverState where
  | mailbox (m : Mailbox)
  | writer (w : LineWriter)
  /-- It refuses every message for a reason. -/
  | failing (reason : String)
  /-- When it is told, it removes the observer with one identifier, registers another observer of
  the bench, and then refuses or accepts. -/
  | reentrant (drop add : Option String) (fails : Bool)
deriving DecidableEq, Repr

/-- An observer of a bench. -/
structure BenchObserver where
  /-- Its name on the bench. -/
  name : String
  registered : Registered
  state : ObserverState
  /-- The bench itself still refers to it. -/
  held : Bool
deriving DecidableEq, Repr

/-- Observers and a registry. -/
structure DeliveryBench where
  observers : List BenchObserver
  registry : Registry
  /-- Results of changes of the registry that observers made. -/
  inner : List Bool
deriving DecidableEq, Repr

namespace DeliveryBench

/-- A bench without observers. -/
def empty : DeliveryBench := ⟨[], Registry.empty, []⟩

/-- The observer with a name that was added last. -/
def named? (b : DeliveryBench) (name : String) : Option BenchObserver :=
  b.observers.reverse.find? fun o => o.name == name

/-- The observer with a name that the bench still refers to. -/
def held? (b : DeliveryBench) (name : String) : Option BenchObserver :=
  (b.named? name).filter fun o => o.held

/-- The observer with a key. -/
def keyed? (b : DeliveryBench) (key : Nat) : Option BenchObserver :=
  b.observers.find? fun o => o.registered.key == key

/-- A changed observer. -/
def put (b : DeliveryBench) (o : BenchObserver) : DeliveryBench :=
  { b with observers := b.observers.map fun other =>
      if other.registered.key == o.registered.key then o else other }

/-- A new observer. -/
def add (b : DeliveryBench) (name id : String) (state : ObserverState) : DeliveryBench :=
  { b with observers := b.observers ++ [⟨name, ⟨b.observers.length, id⟩, state, true⟩] }

/-- Registers the observer with a name. -/
def register (b : DeliveryBench) (name : String) : Option Bool × DeliveryBench :=
  match b.held? name with
  | none => (none, b)
  | some o =>
    let (registry, result) := b.registry.register o.registered
    (some result, { b with registry := registry })

/-- Removes the observer with an identifier. -/
def unregister (b : DeliveryBench) (id : String) : Bool × DeliveryBench :=
  let (registry, result) := b.registry.unregister id
  (result, { b with registry := registry })

/-- What an observer does when it is told. -/
def tell (b : DeliveryBench) (o : BenchObserver) (message : Message) :
    Except DeliveryError Unit × DeliveryBench :=
  match o.state with
  | .mailbox m =>
    let (result, m) := m.offer message
    (result, b.put { o with state := .mailbox m })
  | .writer w =>
    let (result, w) := w.offer message
    (result, b.put { o with state := .writer w })
  | .failing reason => (.error (.io reason), b)
  | .reentrant drop added fails =>
    let b := match drop with
      | some id =>
        let (result, b) := b.unregister id
        { b with inner := b.inner ++ [result] }
      | none => b
    let b := match added with
      | some name =>
        match b.register name with
        | (some result, b) => { b with inner := b.inner ++ [result] }
        | (none, b) => b
      | none => b
    (if fails then .error .disconnected else .ok (), b)

/-- The answers of the bench to a delivery. -/
def serve : (c : DeliveryCall) → DeliveryBench → DeliveryAnswer c × DeliveryBench
  | .registered, b => (b.registry.observers, b)
  | .offer observer message, b =>
    match b.keyed? observer.key with
    | some o => b.tell o message
    | none => (.error .disconnected, b)
  | .discard observer, b => ((), { b with registry := b.registry.discard observer.key })

/-- A delivery. Answers how many observers accepted, and what observers did to the registry. -/
def deliver (b : DeliveryBench) (message : Message) : (Nat × List Bool) × DeliveryBench :=
  let (n, b) := (TripRecorder.deliver message).run serve { b with inner := [] }
  ((n, b.inner), { b with inner := [] })

/-- Tells one observer. -/
def deliverTo (b : DeliveryBench) (o : BenchObserver) (message : Message) :
    (Except DeliveryError Unit × List Bool) × DeliveryBench :=
  let (result, b) := { b with inner := [] }.tell o message
  ((result, b.inner), { b with inner := [] })

/-- The mailbox of the observer with a name, if someone may take messages out of it. -/
def mailbox? (b : DeliveryBench) (name : String) : Option (BenchObserver × Mailbox) :=
  match b.named? name with
  | some o =>
    match o.state with
    | .mailbox m => if m.connected then some (o, m) else none
    | _ => none
  | none => none

/-- The writer of the observer with a name. -/
def writer? (b : DeliveryBench) (name : String) : Option (BenchObserver × LineWriter) :=
  match b.named? name with
  | some o =>
    match o.state with
    | .writer w => some (o, w)
    | _ => none
  | none => none

/-- Takes all messages out of a mailbox. -/
def drain (b : DeliveryBench) (name : String) : Option (List Message) × DeliveryBench :=
  match b.mailbox? name with
  | some (o, m) =>
    let (messages, m) := m.drain
    (some messages, b.put { o with state := .mailbox m })
  | none => (none, b)

/-- Drops a mailbox. -/
def disconnect (b : DeliveryBench) (name : String) : Bool × DeliveryBench :=
  match b.mailbox? name with
  | some (o, m) => (true, b.put { o with state := .mailbox m.disconnect })
  | none => (false, b)

/-- Lets a writer write. -/
def openGate (b : DeliveryBench) (name : String) : DeliveryBench :=
  match b.writer? name with
  | some (o, w) => b.put { o with state := .writer w.openGate }
  | none => b

/-- What came of a writer that was given up. -/
inductive Finish where
  | noWriter
  | stillRegistered
  | ended (lines : List String)
deriving DecidableEq, Repr

/-- Gives a writer up. It ends if it is not registered. -/
def finish (b : DeliveryBench) (name : String) : Finish × DeliveryBench :=
  match b.writer? name with
  | some (o, w) =>
    if o.held then
      let b := b.put { o with held := false }
      if b.registry.observers.any fun r => r.key == o.registered.key then (.stillRegistered, b)
      else (.ended w.finish, b)
    else (.noWriter, b)
  | none => (.noWriter, b)

end DeliveryBench

end TripRecorder
