import TripRecorder.Proofs.Service.Delivery

/-!
# A service in a given world

What comes of a service depends on the world around it: on the hardware, on a database that fails or
refuses rows, and on those who observe it. Where all of them are given, and it is given what is
asked of the service and when its capture moves, its run is given as well.

The world is made of parts, so that two worlds can be compared that differ in one of them only.

## Main definitions

* `Equipment`, `Refusals`, `Audience` — the hardware and the failures of the database, the rows
  it refuses, and the observers
* `Setting`, `World` — how all of these answer, and their states together with the store
* `Stimulus`, `Play` — what a service is made to do, and what has come of it

## Main results

* `World.acts_serve` — a world answers as a world may
* `Play.run` — what comes of a service in a world is one of its runs
-/

namespace TripRecorder

/-- The hardware, what keeps the device awake, and the failures of the database. -/
structure Equipment (σ : Type) where
  hardware : (c : HardwareCall) → σ → HardwareAnswer c × σ
  acquire : σ → σ
  release : σ → σ
  /-- How the database fails at a call that inserts nothing, if it does. -/
  failure? : StoreCall → σ → Option String × σ

/-- The rows that the database refuses. -/
structure Refusals (ρ : Type) where
  /-- How it refuses a batch of points, if it does. -/
  refusal? : MeasurementId → List Point → Store → ρ → Option String × ρ

/-- The observers. -/
structure Audience (τ : Type) where
  /-- Who is registered, and what they answer to a message. -/
  answer : (c : DeliveryCall) → τ → DeliveryAnswer c × τ
  /-- Between two steps observers are registered and unregistered. -/
  meanwhile : τ → τ

/-- How everything around a service answers. -/
structure Setting (σ ρ τ : Type) where
  equipment : Equipment σ
  refusals : Refusals ρ
  audience : Audience τ

/-- A store, the calls that were made, and everything around. -/
structure World (σ ρ τ : Type) where
  store : Store
  calls : List LoggedCall
  equipment : σ
  refusals : ρ
  audience : τ

variable {σ ρ τ : Type}

namespace World

/-- The store and the log. -/
def logged (w : World σ ρ τ) : Logged := ⟨w.store, w.calls⟩

/-- How the database fails at a call, if it does. -/
def failure? (e : Setting σ ρ τ) : StoreCall → World σ ρ τ → Option String × World σ ρ τ
  | .insert id points, w =>
    let (failure, refusals) := e.refusals.refusal? id points w.store w.refusals
    (failure, { w with refusals := refusals })
  | c, w =>
    let (failure, equipment) := e.equipment.failure? c w.equipment
    (failure, { w with equipment := equipment })

/-- The answer of the database. -/
def askStore (e : Setting σ ρ τ) (c : StoreCall) (w : World σ ρ τ) :
    StoreAnswer c × World σ ρ τ :=
  match failure? e c w with
  | (some detail, w) => (c.failure detail, w)
  | (none, w) => ((Store.serve c w.store).1, { w with store := (Store.serve c w.store).2 })

/-- The answer of the world to a call of the recorder. A message is delivered to the observers. -/
def answer (e : Setting σ ρ τ) : (c : RecorderCall) → World σ ρ τ → RecorderAnswer c × World σ ρ τ
  | .store c, w => askStore e c w
  | .hardware c, w =>
    let (answer, equipment) := e.equipment.hardware c w.equipment
    (answer, { w with equipment := equipment })
  | .acquire, w => ((), { w with equipment := e.equipment.acquire w.equipment })
  | .release, w => ((), { w with equipment := e.equipment.release w.equipment })
  | .deliver message, w =>
    let (n, audience) := (deliver message).run e.audience.answer w.audience
    (n, { w with audience := audience })

/-- A call is answered and logged. -/
def serve (e : Setting σ ρ τ) (c : RecorderCall) (w : World σ ρ τ) :
    RecorderAnswer c × World σ ρ τ :=
  let (answer, w') := answer e c w
  (answer, { w' with calls := w.calls ++ [⟨c, answer⟩] })

/-- The time between two steps passes for the observers. -/
def meanwhile (e : Setting σ ρ τ) (w : World σ ρ τ) : World σ ρ τ :=
  { w with audience := e.audience.meanwhile w.audience }

variable {e : Setting σ ρ τ} {w : World σ ρ τ}

theorem store_failure? (c : StoreCall) : (failure? e c w).2.store = w.store := by
  cases c <;> rfl

/-- The database fails, or it serves the call. -/
theorem askStore_cases (e : Setting σ ρ τ) (c : StoreCall) (w : World σ ρ τ) :
    (∃ detail, (failure? e c w).1 = some detail ∧
      askStore e c w = (c.failure detail, (failure? e c w).2)) ∨
    ((failure? e c w).1 = none ∧ askStore e c w = ((Store.serve c w.store).1,
      { (failure? e c w).2 with store := (Store.serve c w.store).2 })) := by
  have hstore := store_failure? (e := e) (w := w) c
  unfold askStore
  generalize failure? e c w = failed at hstore ⊢
  rcases failed with ⟨_ | detail, w'⟩
  · exact .inr ⟨rfl, by rw [← hstore]⟩
  · exact .inl ⟨detail, rfl, rfl⟩

theorem answers_askStore (c : StoreCall) :
    w.store.Answers c (askStore e c w).1 (askStore e c w).2.store := by
  rcases askStore_cases e c w with ⟨detail, -, heq⟩ | ⟨-, heq⟩ <;> rw [heq]
  · exact .inr ⟨detail, rfl, store_failure? c⟩
  · exact .inl ⟨rfl, rfl⟩

theorem storeAfter_answer (c : RecorderCall) :
    Logged.StoreAfter w.store c (answer e c w).1 (answer e c w).2.store := by
  cases c with
  | store c => exact answers_askStore c
  | _ => rfl

/-- A world answers as a world may. -/
theorem acts_serve (e : Setting σ ρ τ) (c : RecorderCall) (w : World σ ρ τ) :
    Logged.Acts c w.logged (serve e c w).1 (serve e c w).2.logged :=
  ⟨storeAfter_answer c, rfl⟩

end World

/-! ### Plays -/

/-- What a service is made to do, and when. -/
inductive Stimulus where
  | request (request : Request) (now : Nat)
  /-- It handles the oldest event of its capture. -/
  | event
  | capture (move : CaptureMove) (now : Nat)

/-- What has come of a service in a world. -/
structure Play (σ ρ τ : Type) where
  happenings : List Happening
  recorder : Recorder
  world : World σ ρ τ
  ended : Bool

namespace Play

/-- A service before the first request. -/
def start (config : RecorderConfig) (store : Store) (equipment : σ) (refusals : ρ)
    (audience : τ) : Play σ ρ τ :=
  ⟨[], Recorder.fresh config, ⟨store, [], equipment, refusals, audience⟩, false⟩

/-- What one can see of it. -/
def service (p : Play σ ρ τ) : Service := ⟨p.recorder, p.world.logged, p.ended⟩

/-- The next step. A service that has ended makes none. -/
def step (e : Setting σ ρ τ) (p : Play σ ρ τ) (x : Stimulus) : Play σ ρ τ :=
  if p.ended then p
  else
    let w := p.world.meanwhile e
    match x with
    | .request request now =>
      let ((reply, r), w) := (p.recorder.respond now request).run (World.serve e) w
      ⟨p.happenings ++ [.handled p.recorder.session.state request reply], r, w,
        decide (request = .shutDown)⟩
    | .event =>
      let (r, w) := p.recorder.handleNext.run (World.serve e) w
      ⟨p.happenings ++ [.event], r, w, false⟩
    | .capture move now =>
      ⟨p.happenings ++ [.captured (p.recorder.taken move)], p.recorder.move now move, w, false⟩

/-- All steps. -/
def steps (e : Setting σ ρ τ) (p : Play σ ρ τ) (stimuli : List Stimulus) : Play σ ρ τ :=
  stimuli.foldl (step e) p

variable {e : Setting σ ρ τ} {p : Play σ ρ τ} {first : Service}

theorem run_step (h : Service.Run first p.happenings p.service) (x : Stimulus) :
    Service.Run first (p.step e x).happenings (p.step e x).service := by
  obtain ⟨happenings, recorder, world, ended⟩ := p
  cases ended with
  | true => exact h
  | false =>
    cases x with
    | request request now =>
      have hends := Procedure.Ends.of_run_seen (World.acts_serve e) (recorder.respond now request)
        (world.meanwhile e)
      exact h.snoc (.request request now hends)
    | event =>
      have hends := Procedure.Ends.of_run_seen (World.acts_serve e) recorder.handleNext
        (world.meanwhile e)
      exact h.snoc (.event hends)
    | capture move now => exact h.snoc (.capture move now)

/-- What comes of a service in a world is one of its runs. -/
theorem run (e : Setting σ ρ τ) (config : RecorderConfig) (store : Store) (equipment : σ)
    (refusals : ρ) (audience : τ) (stimuli : List Stimulus) :
    Service.Run (Service.fresh config store)
      (steps e (start config store equipment refusals audience) stimuli).happenings
      (steps e (start config store equipment refusals audience) stimuli).service := by
  have hrun (p : Play σ ρ τ) (h : Service.Run (Service.fresh config store) p.happenings p.service) :
      Service.Run (Service.fresh config store) (steps e p stimuli).happenings
        (steps e p stimuli).service := by
    induction stimuli generalizing p with
    | nil => exact h
    | cons x rest ih => exact ih _ (run_step h x)
  exact hrun _ .nil

end Play

end TripRecorder
