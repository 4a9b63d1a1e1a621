import TripRecorder.Proofs.Service.Requests
import TripRecorder.Proofs.Store.Append

/-!
# Runs of a service

A service is a recorder together with its store. It handles requests and events and lets its capture
move, in any order, until it is asked to end. The database may fail at any call, and so may the
hardware. Every call is logged with its answer.

## Main definitions

* `LoggedCall`, `Logged` — a call with its answer, and a store with the log of all calls
* `Happening` — what can be seen of a step
* `Service`, `Service.Step`, `Service.Run` — services, their steps and their runs
* `Session.Settled` — the sessions there are between two steps
* `RecorderCall.Noting`, `RecorderCall.Recording`, `RecorderCall.Attaching` — the calls with which
  events are handled, sensors are detached, and sensors are attached

## Main results

* `Service.Run.settled` — between two steps a service is idle, running or paused
* `Service.step_respond` — a step in which nothing fails
* `Recorder.asks_attachTo`, `Recorder.asks_detach` — the calls of attaching and detaching
-/

namespace TripRecorder

/-- A call of a recorder with its answer. -/
structure LoggedCall where
  call : RecorderCall
  answer : RecorderAnswer call

/-- A store, and all calls that were made. -/
structure Logged where
  store : Store
  calls : List LoggedCall

namespace Logged

/-- The store after a call of a recorder. -/
def StoreAfter (store : Store) : (c : RecorderCall) → RecorderAnswer c → Store → Prop
  | .store c, answer, store' => store.Answers c answer store'
  | _, _, store' => store' = store

/-- A call of a recorder is answered. -/
def Acts (c : RecorderCall) (w : Logged) (answer : RecorderAnswer c) (w' : Logged) : Prop :=
  StoreAfter w.store c answer w'.store ∧ w'.calls = w.calls ++ [⟨c, answer⟩]

/-- No call is forgotten. -/
theorem calls_prefix {w w' : Logged} {α : Type} {p : Recording α} {a : α}
    (h : p.Ends Acts w a w') : w.calls <+: w'.calls := by
  induction h with
  | done a w => exact List.prefix_refl _
  | call hcall _ ih => exact (hcall.2 ▸ List.prefix_append _ _ : _ <+: _).trans ih

end Logged

/-- What can be seen of a step of a service. -/
inductive Happening where
  /-- A request was handled in a state, and answered. -/
  | handled (before : SessionState) (request : Request) (reply : RecorderReply)
  /-- The oldest event of the capture was handled. -/
  | event
  /-- The capture took some readings, or made another move and took none. -/
  | captured (readings : List Reading)

namespace Recorder

/-- The readings that are taken with a move of the capture. -/
def taken (r : Recorder) : CaptureMove → List Reading
  | .offer readings => if (r.offer readings).2 then readings else []
  | _ => []

end Recorder

/-- A recorder with its store and the log of its calls. -/
structure Service where
  recorder : Recorder
  world : Logged
  /-- The service was asked to end. -/
  ended : Bool

namespace Service

/-- A service before the first request. -/
def fresh (config : RecorderConfig) (store : Store) : Service :=
  ⟨Recorder.fresh config, ⟨store, []⟩, false⟩

/-- A step of a service. -/
inductive Step : Service → Happening → Service → Prop where
  | request {r w reply r' w'} (request : Request) (now : Nat) :
      (r.respond now request).Ends Logged.Acts w (reply, r') w' →
      Step ⟨r, w, false⟩ (.handled r.session.state request reply)
        ⟨r', w', decide (request = .shutDown)⟩
  | event {r w r' w'} : r.handleNext.Ends Logged.Acts w r' w' →
      Step ⟨r, w, false⟩ .event ⟨r', w', false⟩
  | capture {r w} (move : CaptureMove) (now : Nat) :
      Step ⟨r, w, false⟩ (.captured (r.taken move)) ⟨r.move now move, w, false⟩

/-- A run of a service. -/
inductive Run : Service → List Happening → Service → Prop where
  | nil {s} : Run s [] s
  | snoc {s happenings s' h s''} : Run s happenings s' → Step s' h s'' →
      Run s (happenings ++ [h]) s''

theorem Step.calls_prefix {s s' : Service} {happening : Happening} (h : Step s happening s') :
    s.world.calls <+: s'.world.calls := by
  cases h with
  | request request now h => exact Logged.calls_prefix h
  | event h => exact Logged.calls_prefix h
  | capture move now => exact List.prefix_refl _

end Service

/-! ### Sessions between two steps -/

/-- There is no session, or one that is running or paused. -/
def Session.Settled (s : Session) : Prop :=
  s = Session.idle ∨ ∃ id, s = ⟨.running, some id⟩ ∨ s = ⟨.paused, some id⟩

namespace Recorder

variable {σ : Type} {act : (c : RecorderCall) → σ → RecorderAnswer c → σ → Prop} {w w' : σ}
  {r r' : Recorder} {now : Nat}

@[simp] theorem session_withPending (r : Recorder) (events : List CaptureEvent) :
    (r.withPending events).session = r.session := rfl

@[simp] theorem session_move (r : Recorder) (now : Nat) (move : CaptureMove) :
    (r.move now move).session = r.session := by
  cases move <;> simp only [Recorder.move, offer, starve, onPump] <;> split <;> rfl

theorem session_handleNext (h : r.handleNext.Ends act w r' w') : r'.session = r.session := by
  unfold handleNext at h
  split at h
  · obtain ⟨rfl, -⟩ := Procedure.ends_done_iff.mp h
    rfl
  · rcases ends_handle h with ⟨-, rfl, -⟩ | ⟨id, stats, -, -, rfl⟩ <;> rfl

/-- A stop leaves no session. -/
theorem settled_stop {result : Except CaptureError StopReport}
    (h : (r.stop now).Ends act w (result, r') w') (hr : r.session.Settled) :
    r'.session.Settled := by
  rcases ends_stop h with ⟨-, -, rfl, -⟩ | ⟨_, _, _, _, _, _, _, -, -, -, -, -, -, -, rfl⟩
  · exact hr
  · exact .inl rfl

/-- A request leaves a session settled. -/
theorem settled_respond {request : Request} {reply : RecorderReply}
    (h : (r.respond now request).Ends act w (reply, r') w') (hr : r.session.Settled) :
    r'.session.Settled := by
  have hrespond := ends_respond h
  cases request with
  | start id =>
    obtain ⟨result, -, hstart⟩ := hrespond
    -- A start is refused, comes to nothing, or leaves a running session.
    rcases ends_start hstart with ⟨-, -, rfl, -⟩ | ⟨-, attached, w₁, -, ⟨e, -, -, rfl, -⟩ |
      ⟨sources, w₂, told, -, -, -, -, rfl⟩⟩
    · exact hr
    · exact .inl rfl
    · exact .inr ⟨id, .inl rfl⟩
  | pause =>
    obtain ⟨result, -, hpause⟩ := hrespond
    rcases ends_pause hpause with ⟨-, -, rfl, -⟩ | ⟨id, w₁, -, hdetach, -, -⟩
    · exact hr
    · obtain ⟨stats, rfl⟩ := ends_detach_stats hdetach
      exact .inr ⟨id, .inr rfl⟩
  | resume =>
    obtain ⟨result, -, hresume⟩ := hrespond
    rcases ends_resume hresume with ⟨-, -, rfl, -⟩ | ⟨id, attached, w₁, -, -,
      ⟨e, -, -, rfl, -⟩ | ⟨sources, -, -, -, rfl⟩⟩
    · exact hr
    · exact hr
    · exact .inr ⟨id, .inl rfl⟩
  | stop =>
    obtain ⟨result, -, hstop⟩ := hrespond
    exact settled_stop hstop hr
  | ping =>
    obtain ⟨-, rfl, -⟩ := hrespond
    exact hr
  | shutDown =>
    obtain ⟨-, hshutDown⟩ := hrespond
    rcases ends_shutDown hshutDown with ⟨-, rfl, -⟩ | ⟨-, result, hstop⟩
    · exact hr
    · exact settled_stop hstop hr

end Recorder

namespace Service

variable {s s' : Service} {happening : Happening} {happenings : List Happening}

theorem settled_fresh (config : RecorderConfig) (store : Store) :
    (fresh config store).recorder.session.Settled := .inl rfl

theorem Step.settled (h : Step s happening s') (hs : s.recorder.session.Settled) :
    s'.recorder.session.Settled := by
  cases h with
  | request request now h => exact Recorder.settled_respond h hs
  | event h =>
    rw [Recorder.session_handleNext h]
    exact hs
  | capture move now => exact (Recorder.session_move _ now move).symm ▸ hs

/-- Between two steps a service is idle, running or paused. -/
theorem Run.settled (h : Run s happenings s') (hs : s.recorder.session.Settled) :
    s'.recorder.session.Settled := by
  induction h with
  | nil => exact hs
  | snoc _ hstep ih => exact hstep.settled ih

end Service

/-! ### Services for which nothing fails -/

namespace Logged

/-- The answers when nothing fails, the fix source being the only source. -/
def answer : (c : RecorderCall) → Store → RecorderAnswer c × Store
  | .store c, store => store.serve c
  | .hardware c, store => match c with
    | .provideFix => (.ok (), store)
    | .provideSources => (.ok 0, store)
    | .attachFix => (.ok (), store)
    | .attachSource _ => (.ok (), store)
    | .detachFix => ((), store)
    | .detachSource _ => ((), store)
  | .acquire, store => ((), store)
  | .release, store => ((), store)
  | .deliver _, store => ((0 : Nat), store)

/-- A call is answered and logged. -/
def serve (c : RecorderCall) (w : Logged) : RecorderAnswer c × Logged :=
  let (answer, store) := answer c w.store
  (answer, ⟨store, w.calls ++ [⟨c, answer⟩]⟩)

theorem acts_serve (c : RecorderCall) (w : Logged) : Acts c w (serve c w).1 (serve c w).2 := by
  refine ⟨?_, rfl⟩
  cases c with
  | store c => exact Store.answers_serve c w.store
  | hardware c => cases c <;> rfl
  | _ => rfl

end Logged

namespace Service

/-- A store with one open measurement. -/
def oneOpen : Store := ((Store.empty none 1 1).create .car).2

/-- A request is handled, and its calls are served in some way. -/
theorem step_served {serve : (c : RecorderCall) → Logged → RecorderAnswer c × Logged}
    (hserve : ∀ c w, Logged.Acts c w (serve c w).1 (serve c w).2) {r r' : Recorder} {w w' : Logged}
    {reply : RecorderReply} (request : Request) (now : Nat)
    (h : (r.respond now request).run serve w = ((reply, r'), w')) :
    Step ⟨r, w, false⟩ (.handled r.session.state request reply)
      ⟨r', w', decide (request = .shutDown)⟩ := by
  have hends := Procedure.Ends.of_run hserve (r.respond now request) w
  rw [h] at hends
  exact .request request now hends

/-- A request is handled, and nothing fails. -/
theorem step_respond {r r' : Recorder} {w w' : Logged} {reply : RecorderReply} (request : Request)
    (now : Nat) (h : (r.respond now request).run Logged.serve w = ((reply, r'), w')) :
    Step ⟨r, w, false⟩ (.handled r.session.state request reply)
      ⟨r', w', decide (request = .shutDown)⟩ :=
  step_served Logged.acts_serve request now h

/-- Until it ends, a service can handle any request. -/
theorem exists_step {s : Service} (h : s.ended = false) (request : Request) (now : Nat) :
    ∃ reply s', Step s (.handled s.recorder.session.state request reply) s' := by
  obtain ⟨r, w, ended⟩ := s
  obtain rfl : ended = false := h
  exact ⟨_, _, step_respond request now rfl⟩

end Service

/-! ### Calls of attaching, detaching and recording -/

namespace RecorderCall

/-- The calls with which events are handled: points are stored, and messages are delivered. -/
def Noting : RecorderCall → Prop
  | .store c => match c with
    | .status _ | .insert _ _ => True
    | _ => False
  | .deliver _ => True
  | _ => False

/-- The calls with which events are recorded: points are stored, sensors are detached, and messages
are delivered. -/
def Recording : RecorderCall → Prop
  | .store c => match c with
    | .status _ | .insert _ _ => True
    | _ => False
  | .hardware _ => True
  | .deliver _ => True
  | _ => False

theorem Noting.recording {c : RecorderCall} (h : c.Noting) : c.Recording := by
  cases c with
  | hardware c => exact h.elim
  | _ => exact h

/-- The calls with which sensors are attached. -/
def Attaching : RecorderCall → Prop
  | .store c => match c with
    | .load _ => True
    | _ => False
  | .hardware _ => True
  | _ => False

end RecorderCall

namespace Recorder

theorem asks_appendPoints (batchLimit : Nat) (id : MeasurementId) (ps : List Point) :
    (appendPoints batchLimit id ps).Asks fun c => (RecorderCall.store c).Noting := by
  unfold appendPoints
  split
  · trivial
  · refine ⟨trivial, fun answer => ?_⟩
    cases answer with
    | error e => trivial
    | ok status =>
      simp only
      split
      · refine (asks_writeBatches id _ _).mono ?_
        rintro _ ⟨batch, rfl⟩
        trivial
      · trivial

/-- Points are saved with calls of the store only. -/
theorem asks_save_store (batchLimit : Nat) (id : MeasurementId) (ps : List Point) :
    (save batchLimit id ps).Asks fun c => ∃ stored, c = .store stored := by
  refine ((Procedure.asks_true _).mapCalls fun c _ => ⟨c, rfl⟩).bind fun result => ?_
  cases result <;> trivial

theorem asks_save (batchLimit : Nat) (id : MeasurementId) (ps : List Point) :
    (save batchLimit id ps).Asks RecorderCall.Noting := by
  refine ((asks_appendPoints batchLimit id ps).mapCalls fun _ h => h).bind fun result => ?_
  cases result <;> trivial

theorem asks_tell (message : Message) : (tell message).Asks RecorderCall.Noting :=
  ⟨trivial, fun _ => trivial⟩

theorem asks_handleChunks (config : RecorderConfig) (id : MeasurementId)
    (chunks : List SampleBatch) (stats : SessionStats) :
    (handleChunks config id stats chunks).Asks RecorderCall.Noting := by
  induction chunks generalizing stats with
  | nil => trivial
  | cons chunk rest ih =>
    exact (asks_save _ _ _).bind fun _ => (asks_tell _).bind fun _ => ih _

theorem asks_handle (r : Recorder) (event : CaptureEvent) :
    (r.handle event).Asks RecorderCall.Noting := by
  unfold handle
  split
  · trivial
  · refine Procedure.Asks.bind ?_ fun _ => trivial
    cases event with
    | location l => exact (asks_save _ _ _).bind fun _ => (asks_tell _).bind fun _ => trivial
    | data batch => exact asks_handleChunks _ _ _ _
    | fixAcquired => exact (asks_tell _).bind fun _ => trivial
    | fixLost => exact (asks_tell _).bind fun _ => trivial
    | failed e => exact (asks_tell _).bind fun _ => trivial

theorem asks_handleAll (events : List CaptureEvent) (r : Recorder) :
    (r.handleAll events).Asks RecorderCall.Noting := by
  induction events generalizing r with
  | nil => trivial
  | cons event rest ih => exact (asks_handle r event).bind ih

/-- Detaching makes no other calls than recording. -/
theorem asks_detach (r : Recorder) (now : Nat) :
    (r.detach now).Asks RecorderCall.Recording := by
  unfold detach
  split
  · trivial
  · exact ((Procedure.asks_true _).mapCalls fun _ _ => trivial).bind
      fun _ => (asks_handleAll _ _).mono fun _ hc => hc.recording

theorem asks_handleNext (r : Recorder) : r.handleNext.Asks RecorderCall.Noting := by
  unfold handleNext
  split
  · trivial
  · exact asks_handle _ _

/-- Attaching looks at the measurement and asks the hardware. -/
theorem asks_attachTo (id : MeasurementId) :
    (attachTo id).run.Asks RecorderCall.Attaching := by
  rw [attachTo, Procedure.run_bind_except]
  have hopen : (ensureOpen id).run.Asks RecorderCall.Attaching := by
    refine ⟨trivial, fun answer => ?_⟩
    cases answer with
    | error e => trivial
    | ok m =>
      simp only
      split <;> trivial
  refine hopen.bind fun result => ?_
  cases result with
  | error e => trivial
  | ok u =>
    refine ⟨trivial, fun fix => ?_⟩
    cases fix with
    | error e => trivial
    | ok u =>
      refine ⟨trivial, fun sources => ?_⟩
      cases sources with
      | error e => trivial
      | ok n =>
        refine Procedure.Asks.bind ((Procedure.asks_true _).mapCalls fun _ _ => trivial) ?_
        intro result
        cases result <;> trivial

end Recorder

end TripRecorder
