import TripRecorder.Proofs.Procedure
import TripRecorder.Service.Recorder

/-!
# Requests to a recorder

A recorder does one thing at a time: it handles a request, or the oldest event of its capture. In
between, readings arrive and the pump of the capture makes a move. Every step happens at a time,
and nothing is assumed about how the times follow one another.

## Main definitions

* `Request`, `RecorderReply`, `Recorder.respond` — the requests with their replies
* `Recorder.handleNext` — the oldest event is handled
* `CaptureMove`, `Recorder.move` — the capture between requests
-/

namespace TripRecorder

/-- What a recorder is asked to do. -/
inductive Request where
  | start (id : MeasurementId)
  | pause
  | resume
  | stop
  | ping
  /-- The recorder ends after it has stopped. -/
  | shutDown
deriving DecidableEq, Repr

/-- A request that stops a session if there is one. -/
def Request.stops : Request → Bool
  | .stop => true
  | .shutDown => true
  | _ => false

/-- The replies. -/
inductive RecorderReply where
  | finished (result : Except CaptureError Unit)
  | stopped (result : Except CaptureError StopReport)
  | status (value : ServiceStatus)
  | ended

/-- What happens to a capture between requests. -/
inductive CaptureMove where
  /-- Readings arrive. -/
  | offer (readings : List Reading)
  /-- The pump takes in the reading that waits longest. -/
  | take
  /-- The pump notices a tick, if one is due. -/
  | tick
  /-- All sinks have vanished. -/
  | starve
deriving DecidableEq, Repr

namespace Recorder

/-- A request is handled, and answered. -/
def respond (r : Recorder) (now : Nat) : Request → Recording (RecorderReply × Recorder)
  | .start id => (r.start id now).bind fun (result, r) => .done (.finished result, r)
  | .pause => (r.pause now).bind fun (result, r) => .done (.finished result, r)
  | .resume => (r.resume now).bind fun (result, r) => .done (.finished result, r)
  | .stop => (r.stop now).bind fun (result, r) => .done (.stopped result, r)
  | .ping => .done (.status r.status, r)
  | .shutDown => (r.shutDown now).bind fun r => .done (.ended, r)

/-- The events that wait to be handled. -/
def pending (r : Recorder) : List CaptureEvent :=
  match r.capture with
  | none => []
  | some c => c.events

/-- The same recorder with other events waiting. -/
def withPending (r : Recorder) (events : List CaptureEvent) : Recorder :=
  { r with capture := r.capture.map fun c => { c with events := events } }

/-- The oldest event is handled, if there is one. -/
def handleNext (r : Recorder) : Recording Recorder :=
  match r.pending with
  | [] => .done r
  | event :: rest => (r.withPending rest).handle event

/-- The capture makes a move. -/
def move (r : Recorder) (now : Nat) : CaptureMove → Recorder
  | .offer readings => (r.offer readings).1
  | .take => r.onPump fun p => p.step now
  | .tick => r.onPump fun p => p.tick now
  | .starve => r.starve now

end Recorder

/-! ### What a request can come to -/

namespace Session

/-- All that a move of a session can come to. -/
theorem move_cases (s : Session) (action : String) (sources : List SessionState)
    (target : SessionState) :
    (∃ id, s.measurement = some id ∧ s.state ∈ sources ∧
      s.move action sources target = .ok (id, ⟨target, some id⟩)) ∨
    (∀ id, s.measurement = some id → s.state ∉ sources) ∧
      s.move action sources target = .error (refusal action s.state) := by
  obtain ⟨state, measurement⟩ := s
  cases measurement with
  | none => exact .inr ⟨fun _ h => (nomatch h), rfl⟩
  | some id =>
    by_cases hstate : state ∈ sources
    · exact .inl ⟨id, rfl, hstate, by simp [move, hstate]⟩
    · exact .inr ⟨fun _ _ => hstate, by simp [move, hstate]⟩

end Session

namespace Recorder

variable {σ : Type} {act : (c : RecorderCall) → σ → RecorderAnswer c → σ → Prop} {w w' : σ}
  {r r' : Recorder} {id : MeasurementId} {now : Nat}

/-- The sensors are attached if the measurement is open. -/
def attachTo (id : MeasurementId) : RecordingOr Nat := do
  ensureOpen id
  attach

/-- Handling an event changes the counters only. -/
theorem ends_handle {event : CaptureEvent} (h : (r.handle event).Ends act w r' w') :
    (r.session.measurement = none ∧ r' = r ∧ w' = w) ∨
    ∃ id stats, r.session.measurement = some id ∧
      (handleFor r.config id r.stats event).Ends act w stats w' ∧
      r' = { r with stats := stats } := by
  unfold handle at h
  split at h
  · rename_i hnone
    obtain ⟨rfl, rfl⟩ := Procedure.ends_done_iff.mp h
    exact .inl ⟨hnone, rfl, rfl⟩
  · rename_i id hid
    obtain ⟨stats, middle, hfor, hdone⟩ := Procedure.ends_bind_iff.mp h
    obtain ⟨rfl, rfl⟩ := Procedure.ends_done_iff.mp hdone
    exact .inr ⟨id, stats, hid, hfor, rfl⟩

theorem ends_handleAll_stats {events : List CaptureEvent}
    (h : (r.handleAll events).Ends act w r' w') : ∃ stats, r' = { r with stats := stats } := by
  induction events generalizing r w with
  | nil =>
    obtain ⟨rfl, -⟩ := Procedure.ends_done_iff.mp h
    exact ⟨r'.stats, rfl⟩
  | cons event rest ih =>
    obtain ⟨middle, w₁, hfirst, hrest⟩ := Procedure.ends_bind_iff.mp h
    obtain ⟨stats, rfl⟩ := ih hrest
    rcases ends_handle hfirst with ⟨-, rfl, -⟩ | ⟨id, stats', -, -, rfl⟩
    · exact ⟨stats, rfl⟩
    · exact ⟨stats, rfl⟩

/-- A capture that was detached is gone, and all its events are handled. -/
theorem ends_detach (h : (r.detach now).Ends act w r' w') :
    (r.capture = none ∧ r' = r ∧ w' = w) ∨
    ∃ c w₁, r.capture = some c ∧ (onHardware (detachSensors c.sources)).Ends act w () w₁ ∧
      ({ r with capture := none }.handleAll (c.events ++ (c.pump.close now).2)).Ends
        act w₁ r' w' := by
  unfold detach at h
  split at h
  · rename_i hnone
    obtain ⟨rfl, rfl⟩ := Procedure.ends_done_iff.mp h
    exact .inl ⟨hnone, rfl, rfl⟩
  · rename_i c hc
    obtain ⟨⟨⟩, w₁, hhardware, hevents⟩ := Procedure.ends_bind_iff.mp h
    exact .inr ⟨c, w₁, hc, hhardware, hevents⟩

theorem ends_detach_stats (h : (r.detach now).Ends act w r' w') :
    ∃ stats, r' = { r with capture := none, stats := stats } := by
  rcases ends_detach h with ⟨hnone, rfl, -⟩ | ⟨c, w₁, -, -, hevents⟩
  · refine ⟨r'.stats, ?_⟩
    rw [← hnone]
  · exact ends_handleAll_stats hevents

/-- All that a start can come to. -/
theorem ends_start {result : Except CaptureError Unit}
    (h : (r.start id now).Ends act w (result, r') w') :
    (r.session.state ≠ .idle ∧ result = .error (Session.refusal "start" r.session.state) ∧
      r' = r ∧ w' = w) ∨
    r.session.state = .idle ∧ ∃ attached w₁, (attachTo id).run.Ends act w attached w₁ ∧
      ((∃ e, attached = .error e ∧ result = .error e ∧ r' = { r with session := Session.idle } ∧
        w' = w₁) ∨
      ∃ sources w₂ told, attached = .ok sources ∧ act .acquire w₁ () w₂ ∧
        act (.deliver (.started id)) w₂ told w' ∧ result = .ok () ∧
        r' = { r with session := ⟨.running, some id⟩
                      stats := SessionStats.zero
                      capture := some (newCapture r.config sources now) }) := by
  unfold start Session.beginStart at h
  -- Only an idle session gets a measurement, and it is confirmed once the sensors are attached.
  by_cases hidle : r.session.state = .idle
  · refine .inr ⟨hidle, ?_⟩
    rw [if_pos hidle] at h
    obtain ⟨attached, w₁, hattached, hrest⟩ := Procedure.ends_bind_iff.mp h
    refine ⟨attached, w₁, hattached, ?_⟩
    cases attached with
    | error e =>
      obtain ⟨heq, rfl⟩ := Procedure.ends_done_iff.mp hrest
      obtain ⟨rfl, rfl⟩ := Prod.mk.inj heq
      exact .inl ⟨e, rfl, rfl, rfl, rfl⟩
    | ok sources =>
      obtain ⟨⟨⟩, w₂, hacquire, hrest⟩ := Procedure.ends_call_iff.mp hrest
      obtain ⟨told, w₃, htold, hdone⟩ := Procedure.ends_call_iff.mp hrest
      obtain ⟨heq, rfl⟩ := Procedure.ends_done_iff.mp hdone
      obtain ⟨rfl, rfl⟩ := Prod.mk.inj heq
      exact .inr ⟨sources, w₂, told, rfl, hacquire, htold, rfl, rfl⟩
  · rw [if_neg hidle] at h
    obtain ⟨heq, rfl⟩ := Procedure.ends_done_iff.mp h
    obtain ⟨rfl, rfl⟩ := Prod.mk.inj heq
    exact .inl ⟨hidle, rfl, rfl, rfl⟩

/-- All that a pause can come to. -/
theorem ends_pause {result : Except CaptureError Unit}
    (h : (r.pause now).Ends act w (result, r') w') :
    ((∀ id, r.session.measurement = some id → r.session.state ∉ [.running]) ∧
      result = .error (Session.refusal "pause" r.session.state) ∧ r' = r ∧ w' = w) ∨
    ∃ id w₁, r.session = ⟨.running, some id⟩ ∧
      ({ r with session := ⟨.paused, some id⟩ }.detach now).Ends act w r' w₁ ∧
      act .release w₁ () w' ∧ result = .ok () := by
  unfold pause Session.pause at h
  rcases r.session.move_cases "pause" [.running] .paused with ⟨id, hid, hstate, hmove⟩ |
    ⟨hstate, hmove⟩
  · rw [hmove] at h
    obtain ⟨middle, w₁, hdetach, hrest⟩ := Procedure.ends_bind_iff.mp h
    obtain ⟨⟨⟩, w₂, hrelease, hdone⟩ := Procedure.ends_call_iff.mp hrest
    obtain ⟨heq, rfl⟩ := Procedure.ends_done_iff.mp hdone
    obtain ⟨rfl, rfl⟩ := Prod.mk.inj heq
    have hsession : r.session = ⟨.running, some id⟩ := by
      rw [← hid, ← List.mem_singleton.mp hstate]
    exact .inr ⟨id, w₁, hsession, hdetach, hrelease, rfl⟩
  · rw [hmove] at h
    obtain ⟨heq, rfl⟩ := Procedure.ends_done_iff.mp h
    obtain ⟨rfl, rfl⟩ := Prod.mk.inj heq
    exact .inl ⟨hstate, rfl, rfl, rfl⟩

/-- All that a resume can come to. -/
theorem ends_resume {result : Except CaptureError Unit}
    (h : (r.resume now).Ends act w (result, r') w') :
    ((∀ id, r.session.measurement = some id → r.session.state ∉ [.paused]) ∧
      result = .error (Session.refusal "resume" r.session.state) ∧ r' = r ∧ w' = w) ∨
    ∃ id attached w₁, r.session = ⟨.paused, some id⟩ ∧
      (attachTo id).run.Ends act w attached w₁ ∧
      ((∃ e, attached = .error e ∧ result = .error e ∧ r' = r ∧ w' = w₁) ∨
      ∃ sources, attached = .ok sources ∧ act .acquire w₁ () w' ∧ result = .ok () ∧
        r' = { r with session := ⟨.running, some id⟩
                      capture := some (newCapture r.config sources now) }) := by
  unfold resume Session.resume at h
  rcases r.session.move_cases "resume" [.paused] .running with ⟨id, hid, hstate, hmove⟩ |
    ⟨hstate, hmove⟩
  · rw [hmove] at h
    obtain ⟨attached, w₁, hattached, hrest⟩ := Procedure.ends_bind_iff.mp h
    have hsession : r.session = ⟨.paused, some id⟩ := by
      rw [← hid, ← List.mem_singleton.mp hstate]
    refine .inr ⟨id, attached, w₁, hsession, hattached, ?_⟩
    cases attached with
    | error e =>
      obtain ⟨heq, rfl⟩ := Procedure.ends_done_iff.mp hrest
      obtain ⟨rfl, rfl⟩ := Prod.mk.inj heq
      exact .inl ⟨e, rfl, rfl, rfl, rfl⟩
    | ok sources =>
      obtain ⟨⟨⟩, w₂, hacquire, hdone⟩ := Procedure.ends_call_iff.mp hrest
      obtain ⟨heq, rfl⟩ := Procedure.ends_done_iff.mp hdone
      obtain ⟨rfl, rfl⟩ := Prod.mk.inj heq
      exact .inr ⟨sources, rfl, hacquire, rfl, rfl⟩
  · rw [hmove] at h
    obtain ⟨heq, rfl⟩ := Procedure.ends_done_iff.mp h
    obtain ⟨rfl, rfl⟩ := Prod.mk.inj heq
    exact .inl ⟨hstate, rfl, rfl, rfl⟩

/-- All that a stop can come to. -/
theorem ends_stop {result : Except CaptureError StopReport}
    (h : (r.stop now).Ends act w (result, r') w') :
    ((∀ id, r.session.measurement = some id → r.session.state ∉ [.running, .paused]) ∧
      result = .error (Session.refusal "stop" r.session.state) ∧ r' = r ∧ w' = w) ∨
    ∃ id stats w₁ w₂ w₃ answer told, r.session.measurement = some id ∧
      r.session.state ∈ [.running, .paused] ∧
      ({ r with session := ⟨.stopping, some id⟩ }.detach now).Ends act w
        { r with session := ⟨.stopping, some id⟩, capture := none, stats := stats } w₁ ∧
      act .release w₁ () w₂ ∧ act (.store (.setStatus id .finished)) w₂ answer w₃ ∧
      act (.deliver (.stopped id (Except.isOk answer))) w₃ told w' ∧
      result = .ok ⟨id, Except.isOk answer, stats.persistenceFailures⟩ ∧
      r' = { r with session := Session.idle, capture := none, stats := stats } := by
  unfold stop Session.beginStop at h
  rcases r.session.move_cases "stop" [.running, .paused] .stopping with
    ⟨id, hid, hstate, hmove⟩ | ⟨hstate, hmove⟩
  · rw [hmove] at h
    obtain ⟨middle, w₁, hdetach, hrest⟩ := Procedure.ends_bind_iff.mp h
    obtain ⟨stats, rfl⟩ := ends_detach_stats hdetach
    obtain ⟨⟨⟩, w₂, hrelease, hrest⟩ := Procedure.ends_call_iff.mp hrest
    obtain ⟨answer, w₃, hfinish, hrest⟩ := Procedure.ends_call_iff.mp hrest
    obtain ⟨told, w₄, htold, hdone⟩ := Procedure.ends_call_iff.mp hrest
    obtain ⟨heq, rfl⟩ := Procedure.ends_done_iff.mp hdone
    obtain ⟨rfl, rfl⟩ := Prod.mk.inj heq
    exact .inr ⟨id, stats, w₁, w₂, w₃, answer, told, hid, hstate, hdetach, hrelease, hfinish,
      htold, rfl, rfl⟩
  · rw [hmove] at h
    obtain ⟨heq, rfl⟩ := Procedure.ends_done_iff.mp h
    obtain ⟨rfl, rfl⟩ := Prod.mk.inj heq
    exact .inl ⟨hstate, rfl, rfl, rfl⟩

/-- A recorder that is asked to end stops first, if there is anything to stop. -/
theorem ends_shutDown (h : (r.shutDown now).Ends act w r' w') :
    (r.session.state ∉ [.running, .paused] ∧ r' = r ∧ w' = w) ∨
    r.session.state ∈ [.running, .paused] ∧ ∃ result, (r.stop now).Ends act w (result, r') w' := by
  unfold shutDown Session.isActive at h
  split at h
  · rename_i hactive
    obtain ⟨⟨result, middle⟩, w₁, hstop, hdone⟩ := Procedure.ends_bind_iff.mp h
    obtain ⟨rfl, rfl⟩ := Procedure.ends_done_iff.mp hdone
    exact .inr ⟨by simpa using hactive, result, hstop⟩
  · rename_i hactive
    obtain ⟨rfl, rfl⟩ := Procedure.ends_done_iff.mp h
    exact .inl ⟨by simpa using hactive, rfl, rfl⟩

/-- A reply comes from the request it answers. -/
theorem ends_respond {request : Request} {reply : RecorderReply}
    (h : (r.respond now request).Ends act w (reply, r') w') :
    match request with
    | .start id =>
      ∃ result, reply = .finished result ∧ (r.start id now).Ends act w (result, r') w'
    | .pause => ∃ result, reply = .finished result ∧ (r.pause now).Ends act w (result, r') w'
    | .resume => ∃ result, reply = .finished result ∧ (r.resume now).Ends act w (result, r') w'
    | .stop => ∃ result, reply = .stopped result ∧ (r.stop now).Ends act w (result, r') w'
    | .ping => reply = .status r.status ∧ r' = r ∧ w' = w
    | .shutDown => reply = .ended ∧ (r.shutDown now).Ends act w r' w' := by
  cases request with
  | ping =>
    obtain ⟨heq, rfl⟩ := Procedure.ends_done_iff.mp h
    obtain ⟨rfl, rfl⟩ := Prod.mk.inj heq
    exact ⟨rfl, rfl, rfl⟩
  | shutDown =>
    obtain ⟨_, hends, heq⟩ := Procedure.ends_bind_done_iff.mp h
    obtain ⟨rfl, rfl⟩ := Prod.mk.inj heq
    exact ⟨rfl, hends⟩
  | _ =>
    obtain ⟨_, hends, heq⟩ := Procedure.ends_bind_done_iff.mp h
    obtain ⟨rfl, rfl⟩ := Prod.mk.inj heq
    exact ⟨_, rfl, hends⟩

end Recorder

end TripRecorder
