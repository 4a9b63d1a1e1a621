import Mathlib.Data.List.Induction
import TripRecorder.Proofs.Service.Delivery

/-!
# What a session tells and stores

A session lasts from a start to the next stop. Every resume in between begins a new capture, which
knows nothing of the positions of the captures before it. All that the captures accept is told
between the start and the stop and added to the measurement, whatever was handled in which order.

## Main definitions

* `CaptureLog`, `captures` — the readings that the captures of a session accepted
* `Recorder.Underway` — a session that is neither stopped nor behind

## Main results

* `Service.Step.underway`, `Service.Run.underway` — a session goes on
* `Recorder.told_stop` — a stop leaves nothing untold
* `Service.session_told_and_stored` — all that is told and stored in a session
-/

namespace TripRecorder

/-! ### Captures of a session -/

/-- The readings that the captures of a session accepted. -/
structure CaptureLog where
  /-- Those of each capture that was ended by a pause. -/
  earlier : List (List Reading)
  /-- Those of the capture since the start or the latest resume. -/
  latest : List Reading

namespace CaptureLog

/-- The readings after something happened. -/
def after (log : CaptureLog) : Happening → CaptureLog
  | .captured readings => { log with latest := log.latest ++ readings }
  | .handled _ .resume (.finished (.ok ())) => ⟨log.earlier ++ [log.latest], []⟩
  | _ => log

/-- The readings of all captures. -/
def all (log : CaptureLog) : List (List Reading) := log.earlier ++ [log.latest]

end CaptureLog

/-- The readings that are accepted as something happens. -/
def Happening.readings : Happening → List Reading
  | .captured readings => readings
  | _ => []

/-- A request to stop is handled. -/
def Happening.stops : Happening → Bool
  | .handled _ request _ => request.stops
  | _ => false

/-- The readings that the captures of a session accepted, one list for each of them. -/
def captures (happenings : List Happening) : List (List Reading) :=
  (happenings.foldl CaptureLog.after ⟨[], []⟩).all

theorem CaptureLog.flatten_all_after (log : CaptureLog) (happening : Happening) :
    (log.after happening).all.flatten = log.all.flatten ++ happening.readings := by
  unfold after
  split <;> simp [all, Happening.readings]

theorem flatten_captures (happenings : List Happening) :
    (captures happenings).flatten = happenings.flatMap Happening.readings := by
  induction happenings using List.reverseRecOn with
  | nil => rfl
  | append_singleton rest happening ih =>
    rw [captures, List.foldl_append, List.foldl_cons, List.foldl_nil,
      CaptureLog.flatten_all_after, List.flatMap_append, List.flatMap_singleton, ← ih, captures]

/-! ### A session that goes on -/

namespace Recorder

variable {id : MeasurementId} {log : CaptureLog} {earlier latest : List CaptureEvent}
  {r r' : Recorder} {w₀ w w' : Logged} {now : Nat}

/-- A session has been going on: the events of earlier captures were all handled, and of the latest
capture nothing is missing but what still waits. -/
structure Underway (id : MeasurementId) (w₀ : Logged) (log : CaptureLog)
    (earlier latest : List CaptureEvent) (r : Recorder) (w : Logged) : Prop where
  earlier_captured : Captured log.earlier earlier
  told : w₀.Told id (.started id ::
    (earlier ++ latest).flatMap (CaptureEvent.messages r.config.chunkSize)) w
  latest_captured :
    (r.session = ⟨.running, some id⟩ ∧ ∃ c, r.capture = some c ∧
      c.pump.History log.latest (latest ++ c.events)) ∨
    (r.session = ⟨.paused, some id⟩ ∧ r.capture = none ∧ Captured [log.latest] latest)

/-- A session that goes on can be stopped, and not be started. -/
theorem Underway.active (h : Underway id w₀ log earlier latest r w) :
    r.session.measurement = some id ∧ r.session.state ∈ [.running, .paused] := by
  rcases h.latest_captured with ⟨hsession, -⟩ | ⟨hsession, -⟩ <;> simp [hsession]

/-- More events were told about. -/
theorem Underway.told_more (h : Underway id w₀ log earlier latest r w)
    {events : List CaptureEvent}
    (hevents : w.Told id (events.flatMap (CaptureEvent.messages r.config.chunkSize)) w') :
    w₀.Told id (.started id ::
      (earlier ++ (latest ++ events)).flatMap (CaptureEvent.messages r.config.chunkSize)) w' := by
  rw [← List.append_assoc, List.flatMap_append, ← List.cons_append]
  exact h.told.trans hevents

theorem Underway.told_nothing (h : Underway id w₀ log earlier latest r w)
    (hnothing : w.Told id [] w') : w₀.Told id (.started id ::
      (earlier ++ latest).flatMap (CaptureEvent.messages r.config.chunkSize)) w' := by
  have htold := h.told.trans hnothing
  rwa [List.append_nil] at htold

theorem underway_start {result : Except CaptureError Unit}
    (h : (r.start id now).Ends Logged.Acts w (result, r') w') (hresult : result = .ok ()) :
    Underway id w ⟨[], []⟩ [] [] r' w' ∧ r'.config = r.config := by
  rcases ends_start h with ⟨-, hrefused, -, -⟩ | ⟨-, attached, w₁, hattach,
    ⟨e, -, hrefused, -, -⟩ | ⟨sources, w₂, told, -, hacquire, htold, -, rfl⟩⟩
  · rw [hresult] at hrefused
    cases hrefused
  · rw [hresult] at hrefused
    cases hrefused
  · refine ⟨⟨captured_nil, ?_, .inl ⟨rfl, _, rfl, Pump.history_start _ _ _⟩⟩, rfl⟩
    have hattached : w.Told id [] w₁ := told_attachTo hattach
    exact (hattached.trans (Logged.told_of_silent hacquire trivial)).trans
      (Logged.recorded_deliver htold)

theorem underway_pause {result : Except CaptureError Unit}
    (h : (r.pause now).Ends Logged.Acts w (result, r') w')
    (hr : Underway id w₀ log earlier latest r w) :
    (∃ latest', Underway id w₀ log earlier latest' r' w') ∧ r'.config = r.config := by
  rcases ends_pause h with ⟨-, -, rfl, rfl⟩ | ⟨id', w₁, hsession, hdetach, hrelease, -⟩
  · exact ⟨⟨latest, hr⟩, rfl⟩
  · rcases hr.latest_captured with ⟨hrunning, c, hc, hhistory⟩ | ⟨hpaused, -, -⟩
    · obtain rfl : id' = id := by
        rw [hsession] at hrunning
        exact Option.some.inj (congrArg Session.measurement hrunning)
      obtain ⟨stats, rfl⟩ := ends_detach_stats hdetach
      -- The events that waited and those of the closed pump are told before the pause is done.
      have hevents := (told_detach (r := { r with session := ⟨.paused, some id'⟩ }) hc rfl
        hdetach).trans (Logged.told_of_silent hrelease trivial)
      rw [List.append_nil] at hevents
      refine ⟨⟨_, hr.earlier_captured, hr.told_more hevents, .inr ⟨rfl, rfl, ?_⟩⟩, rfl⟩
      rw [← List.append_assoc]
      exact hhistory.captured_close now
    · rw [hsession] at hpaused
      cases hpaused

theorem underway_resume {result : Except CaptureError Unit} {before : SessionState}
    (h : (r.resume now).Ends Logged.Acts w (result, r') w')
    (hr : Underway id w₀ log earlier latest r w) :
    (∃ earlier' latest', Underway id w₀ (log.after (.handled before .resume (.finished result)))
      earlier' latest' r' w') ∧ r'.config = r.config := by
  rcases ends_resume h with ⟨-, rfl, rfl, rfl⟩ | ⟨id', attached, w₁, hsession, hattach, hrest⟩
  · exact ⟨⟨earlier, latest, hr⟩, rfl⟩
  · have hattached : w.Told id [] w₁ := told_attachTo hattach
    rcases hrest with ⟨e, -, rfl, rfl, rfl⟩ | ⟨sources, -, hacquire, rfl, rfl⟩
    · exact ⟨⟨earlier, latest, hr.earlier_captured, hr.told_nothing hattached,
        hr.latest_captured⟩, rfl⟩
    · rcases hr.latest_captured with ⟨hrunning, -⟩ | ⟨hpaused, -, hcaptured⟩
      · rw [hsession] at hrunning
        cases hrunning
      · obtain rfl : id' = id := by
          rw [hsession] at hpaused
          exact Option.some.inj (congrArg Session.measurement hpaused)
        have htold := hr.told_nothing
          (hattached.trans (Logged.told_of_silent hacquire trivial))
        -- The events of the paused capture are complete, and the new capture has none yet.
        rw [← List.append_nil (earlier ++ latest)] at htold
        exact ⟨⟨earlier ++ latest, [], hr.earlier_captured.append hcaptured, htold,
          .inl ⟨rfl, _, rfl, Pump.history_start _ _ _⟩⟩, rfl⟩

/-- The oldest event is handled. -/
theorem underway_handleNext (h : r.handleNext.Ends Logged.Acts w r' w')
    (hr : Underway id w₀ log earlier latest r w) :
    (∃ latest', Underway id w₀ log earlier latest' r' w') ∧ r'.config = r.config := by
  unfold handleNext at h
  rcases hr.latest_captured with ⟨hrunning, c, hc, hhistory⟩ | ⟨hpaused, hnone, hcaptured⟩
  · have hpending : r.pending = c.events := by rw [pending, hc]
    rw [hpending] at h
    cases hevents : c.events with
    | nil =>
      rw [hevents] at h
      obtain ⟨rfl, rfl⟩ := Procedure.ends_done_iff.mp h
      exact ⟨⟨latest, hr⟩, rfl⟩
    | cons event rest =>
      rw [hevents] at h hhistory
      rcases ends_handle h with ⟨hnone, -, -⟩ | ⟨id', stats, hid', hfor, rfl⟩
      · rw [session_withPending, hrunning] at hnone
        cases hnone
      · -- The event moves from those that wait to those that were told.
        obtain rfl : id = id' := by
          rw [session_withPending, hrunning] at hid'
          exact Option.some.inj hid'
        have htold := told_handleFor hfor
        rw [← List.flatMap_singleton (CaptureEvent.messages _) event] at htold
        refine ⟨⟨latest ++ [event], hr.earlier_captured, hr.told_more htold,
          .inl ⟨hrunning, { c with events := rest }, ?_, ?_⟩⟩, rfl⟩
        · simp only [withPending, hc, Option.map_some]
        · rwa [List.append_assoc, List.singleton_append]
  · have hpending : r.pending = [] := by rw [pending, hnone]
    rw [hpending] at h
    obtain ⟨rfl, rfl⟩ := Procedure.ends_done_iff.mp h
    exact ⟨⟨latest, hr⟩, rfl⟩

/-- A move of the capture takes readings and emits events, and nothing gets lost. -/
theorem move_capture {c : HeldCapture} (hc : r.capture = some c) (now : Nat) (move : CaptureMove) :
    ∃ pump events, r.move now move =
        { r with capture := some { c with pump := pump, events := c.events ++ events } } ∧
      ∀ accepted emitted, c.pump.History accepted emitted →
        pump.History (accepted ++ r.taken move) (emitted ++ events) := by
  cases move with
  | offer readings =>
    refine ⟨(c.pump.offer readings).1, [], by simp [Recorder.move, offer, hc], ?_⟩
    intro accepted emitted h
    simpa only [taken, offer, hc, List.append_nil] using h.offer readings
  | take =>
    refine ⟨(c.pump.step now).1, (c.pump.step now).2, by simp [Recorder.move, onPump, hc], ?_⟩
    intro accepted emitted h
    simpa only [taken, List.append_nil] using h.step now
  | tick =>
    refine ⟨(c.pump.tick now).1, (c.pump.tick now).2, by simp [Recorder.move, onPump, hc], ?_⟩
    intro accepted emitted h
    simpa only [taken, List.append_nil] using h.tick now
  | starve =>
    refine ⟨(c.pump.close now).1, (c.pump.close now).2,
      by simp [Recorder.move, starve, onPump, hc], ?_⟩
    intro accepted emitted h
    simpa only [taken, List.append_nil] using h.close now

theorem underway_move (hr : Underway id w₀ log earlier latest r w) (now : Nat)
    (move : CaptureMove) :
    Underway id w₀ (log.after (.captured (r.taken move))) earlier latest (r.move now move) w ∧
      (r.move now move).config = r.config := by
  rcases hr.latest_captured with ⟨hrunning, c, hc, hhistory⟩ | ⟨hpaused, hnone, hcaptured⟩
  · obtain ⟨pump, events, hmove, hpump⟩ := move_capture hc now move
    rw [hmove]
    refine ⟨⟨hr.earlier_captured, hr.told, .inl ⟨hrunning, _, rfl, ?_⟩⟩, rfl⟩
    rw [← List.append_assoc]
    exact hpump _ _ hhistory
  · -- While the session is paused there is no capture to make a move.
    have hsame : r.move now move = r ∧ r.taken move = [] := by
      cases move <;> simp [Recorder.move, taken, offer, starve, onPump, hnone]
    rw [hsame.1, hsame.2, CaptureLog.after, List.append_nil]
    exact ⟨hr, rfl⟩

/-- A stop leaves nothing untold. -/
theorem told_stop {result : Except CaptureError StopReport}
    (h : (r.stop now).Ends Logged.Acts w (result, r') w')
    (hr : Underway id w₀ log earlier latest r w) :
    ∃ events success, Captured log.all events ∧
      w₀.Told id (.started id :: events.flatMap (CaptureEvent.messages r.config.chunkSize) ++
        [.stopped id success]) w' := by
  rcases ends_stop h with ⟨hrefused, -, -, -⟩ |
    ⟨id', stats, w₁, w₂, w₃, answer, told, hid', -, hdetach, hrelease, hfinish, htold, -, -⟩
  · exact absurd hr.active.2 (hrefused id hr.active.1)
  · obtain rfl : id = id' := Option.some.inj (hr.active.1.symm.trans hid')
    have hafter : w₁.Told id [.stopped id answer.isOk] w' :=
      ((Logged.told_of_silent hrelease trivial).trans
        (Logged.told_of_silent hfinish trivial)).trans (Logged.recorded_deliver htold)
    rcases hr.latest_captured with ⟨hrunning, c, hc, hhistory⟩ | ⟨hpaused, hnone, hcaptured⟩
    · -- A running session still has to tell what waits, and a paused one has told everything.
      have hevents := told_detach (r := { r with session := ⟨.stopping, some id⟩ }) hc rfl hdetach
      refine ⟨earlier ++ (latest ++ (c.events ++ (c.pump.close now).2)), answer.isOk, ?_,
        (hr.told_more hevents).trans hafter⟩
      rw [← List.append_assoc latest]
      exact hr.earlier_captured.append (hhistory.captured_close now)
    · rcases ends_detach hdetach with ⟨-, -, rfl⟩ | ⟨c, _, hc, -, -⟩
      · exact ⟨earlier ++ latest, answer.isOk, hr.earlier_captured.append hcaptured,
          hr.told.trans hafter⟩
      · rw [show r.capture = some c from hc] at hnone
        cases hnone

end Recorder

namespace Service

variable {s s' s₁ s₂ s₃ : Service} {id : MeasurementId} {happening : Happening}
  {happenings : List Happening} {config : RecorderConfig} {w₀ : Logged} {log : CaptureLog}

/-- A session on a measurement has been going on since a service started it. -/
def Underway (id : MeasurementId) (w₀ : Logged) (config : RecorderConfig) (log : CaptureLog)
    (s : Service) : Prop :=
  (∃ earlier latest, Recorder.Underway id w₀ log earlier latest s.recorder s.world) ∧
    s.recorder.config = config

/-- A session goes on until it is stopped. -/
theorem Step.underway (h : Step s happening s') (hgoing : happening.stops = false)
    (hs : Underway id w₀ config log s) : Underway id w₀ config (log.after happening) s' := by
  obtain ⟨⟨earlier, latest, hr⟩, rfl⟩ := hs
  cases h with
  | @request r w reply r' w' request now h =>
    have hrespond := Recorder.ends_respond h
    cases request with
    | start id =>
      obtain ⟨result, rfl, hstart⟩ := hrespond
      -- The session is running or paused, so another start is refused.
      rcases Recorder.ends_start hstart with ⟨-, -, rfl, rfl⟩ | ⟨hidle, -⟩
      · exact ⟨⟨earlier, latest, hr⟩, rfl⟩
      · have hactive := hr.active.2
        simp [show r.session.state = .idle from hidle] at hactive
    | pause =>
      obtain ⟨result, rfl, hpause⟩ := hrespond
      obtain ⟨⟨latest', hr'⟩, hconfig⟩ := Recorder.underway_pause hpause hr
      exact ⟨⟨earlier, latest', hr'⟩, hconfig⟩
    | resume =>
      obtain ⟨result, rfl, hresume⟩ := hrespond
      exact Recorder.underway_resume hresume hr
    | ping =>
      obtain ⟨rfl, rfl, rfl⟩ := hrespond
      exact ⟨⟨earlier, latest, hr⟩, rfl⟩
    | stop => cases hgoing
    | shutDown => cases hgoing
  | event h =>
    obtain ⟨⟨latest', hr'⟩, hconfig⟩ := Recorder.underway_handleNext h hr
    exact ⟨⟨earlier, latest', hr'⟩, hconfig⟩
  | capture move now =>
    obtain ⟨hr', hconfig⟩ := Recorder.underway_move hr now move
    exact ⟨⟨earlier, latest, hr'⟩, hconfig⟩

theorem Run.underway (h : Run s happenings s')
    (hgoing : ∀ happening ∈ happenings, happening.stops = false)
    (hs : Underway id w₀ config log s) :
    Underway id w₀ config (happenings.foldl CaptureLog.after log) s' := by
  induction h with
  | nil => exact hs
  | snoc _ hstep ih =>
    rw [List.foldl_append, List.foldl_cons, List.foldl_nil]
    exact hstep.underway (hgoing _ (List.mem_append_right _ List.mem_cons_self))
      (ih fun happening hmem => hgoing happening (List.mem_append_left _ hmem))

theorem Step.underway_start {before : SessionState}
    (h : Step s (.handled before (.start id) (.finished (.ok ()))) s') :
    Underway id s.world s.recorder.config ⟨[], []⟩ s' := by
  cases h with
  | request request now h =>
    obtain ⟨result, hreply, hstart⟩ := Recorder.ends_respond h
    obtain ⟨hunderway, hconfig⟩ :=
      Recorder.underway_start hstart (RecorderReply.finished.inj hreply).symm
    exact ⟨⟨[], [], hunderway⟩, hconfig⟩

theorem Step.told_stop {before : SessionState} {request : Request} {reply : RecorderReply}
    (h : Step s (.handled before request reply) s') (hstops : request.stops = true)
    (hs : Underway id w₀ config log s) :
    ∃ events success, Captured log.all events ∧
      w₀.Told id (.started id :: events.flatMap (CaptureEvent.messages config.chunkSize) ++
        [.stopped id success]) s'.world := by
  obtain ⟨⟨earlier, latest, hr⟩, rfl⟩ := hs
  cases h with
  | request request now h =>
    have hrespond := Recorder.ends_respond h
    cases request with
    | stop =>
      obtain ⟨result, -, hstop⟩ := hrespond
      exact Recorder.told_stop hstop hr
    | shutDown =>
      obtain ⟨-, hshutDown⟩ := hrespond
      rcases Recorder.ends_shutDown hshutDown with ⟨hinactive, -, -⟩ | ⟨-, result, hstop⟩
      · exact absurd hr.active.2 hinactive
      · exact Recorder.told_stop hstop hr
    | _ => cases hstops

/-- All that the captures of a session accept is told between the start and the stop: the samples
kind by kind in chunks of bounded size, and the locations except for those that repeat a position
of their capture. Unless points were refused, just these samples and locations were added to the
measurement, in the same order, and unchanged but for the signs of zeros. -/
theorem session_told_and_stored {before before' : SessionState} {request : Request}
    {reply : RecorderReply}
    (hstart : Step s (.handled before (.start id) (.finished (.ok ()))) s₁)
    (hrun : Run s₁ happenings s₂) (hgoing : ∀ happening ∈ happenings, happening.stops = false)
    (hstop : Step s₂ (.handled before' request reply) s₃) (hstops : request.stops = true) :
    ∃ calls body success, s₃.world.calls = s.world.calls ++ calls ∧
      told calls = .started id :: body ++ [.stopped id success] ∧
      (∀ message ∈ body, message.kind ≠ .captureStarted ∧ message.kind ≠ .captureStopped) ∧
      (∀ kind, body.flatMap (Message.samples kind) =
        (happenings.flatMap Happening.readings).flatMap (Reading.samples kind)) ∧
      (∀ b, .data b ∈ body → b.size ≤ max s.recorder.config.chunkSize 1) ∧
      body.flatMap Message.locations = (captures happenings).flatMap (fun readings =>
        unrepeated (readings.flatMap Reading.locations)) ∧
      ((∀ c ∈ calls, ¬ c.Refuses) →
        s₃.world.store.points id .locations = s.world.store.points id .locations ++
          (body.flatMap Message.locations).map (fun l => (Point.location l).kept) ∧
        (∀ kind, s₃.world.store.points id (.samples kind) =
          s.world.store.points id (.samples kind) ++
            (body.flatMap (Message.samples kind)).map fun s => (Point.sample s).kept) ∧
        ∀ t, ∃ gained, s₃.world.store.points id t = s.world.store.points id t ++ gained ∧
          List.Forall₂ Point.StoredAs ((body.flatMap Message.points).filter fun p => p.table = t)
            gained) := by
  obtain ⟨events, success, hcaptured, calls, hcalls, htold, hpoints⟩ :=
    hstop.told_stop hstops (hrun.underway hgoing hstart.underway_start)
  refine ⟨calls, events.flatMap (CaptureEvent.messages s.recorder.config.chunkSize), success,
    hcalls, htold, fun _ => kind_of_mem_messages, fun kind => ?_,
    fun b hb => (size_of_mem_messages hb).2,
    hcaptured.locations_messages _, fun hrefuses => ?_⟩
  · rw [← flatten_captures]
    exact hcaptured.samples_messages _ kind
  · obtain ⟨hlocations, hsamples⟩ :=
      keptIn_flatMap_points fun b => hcaptured.sorted_of_mem_messages (c := b)
    have hbody {messages : List Message} : (Message.started id :: messages ++
        [Message.stopped id success]).flatMap Message.points =
          messages.flatMap Message.points := by
      rw [List.cons_append, List.flatMap_cons, List.flatMap_append, List.flatMap_singleton]
      exact List.append_nil _
    rw [hbody] at hpoints
    refine ⟨?_, fun kind => ?_, fun t => ?_⟩
    · rw [hpoints hrefuses, hlocations]
    · rw [hpoints hrefuses, hsamples]
    · exact ⟨_, hpoints hrefuses t, storedAs_keptIn t _⟩

/-- The readings of the second of two captures: a location, a sample, and the location again. -/
def twice : List Reading :=
  [.location ⟨0, .zero, .zero, .zero, .zero⟩, .sample ⟨.rotation, .zero, .zero, .zero, 0⟩,
    .location ⟨0, .zero, .zero, .zero, .zero⟩]

/-- The location and the sample are told once each and stored once each. -/
theorem session_told_twice :
    ∃ s₁ s₂ s₃ reply calls body success,
      Step (fresh ⟨1, 1, 1, 1⟩ oneOpen) (.handled .idle (.start ⟨1⟩) (.finished (.ok ()))) s₁ ∧
      Run s₁ [.handled .running .pause (.finished (.ok ())),
        .handled .paused .resume (.finished (.ok ())), .captured twice, .captured []] s₂ ∧
      Step s₂ (.handled .running .stop reply) s₃ ∧
      told calls = .started ⟨1⟩ :: body ++ [.stopped ⟨1⟩ success] ∧
      body.flatMap (Message.samples .rotation) = [⟨.rotation, .zero, .zero, .zero, 0⟩] ∧
      body.flatMap Message.locations = [⟨0, .zero, .zero, .zero, .zero⟩] ∧
      (∀ c ∈ calls, ¬ c.Refuses) ∧
      s₃.world.store.points ⟨1⟩ .locations = [.location ⟨0, .zero, .zero, .zero, .zero⟩] ∧
      s₃.world.store.points ⟨1⟩ (.samples .rotation) =
        [.sample ⟨.rotation, .zero, .zero, .zero, 0⟩] := by
  obtain ⟨s₁, s₂, s₃, reply, hstart, hrun, hstop, hlog⟩ : ∃ s₁ s₂ s₃ reply,
      Step (fresh ⟨1, 1, 1, 1⟩ oneOpen) (.handled .idle (.start ⟨1⟩) (.finished (.ok ()))) s₁ ∧
      Run s₁ [.handled .running .pause (.finished (.ok ())),
        .handled .paused .resume (.finished (.ok ())), .captured twice, .captured []] s₂ ∧
      Step s₂ (.handled .running .stop reply) s₃ ∧
      s₃.world.calls.any LoggedCall.refused = false :=
    ⟨_, _, _, _, step_respond (.start ⟨1⟩) 0 rfl,
      Run.nil |>.snoc (step_respond .pause 1 rfl) |>.snoc (step_respond .resume 2 rfl)
        |>.snoc (.capture (.offer twice) 3) |>.snoc (.capture .take 4),
      step_respond .stop 5 rfl, by decide +kernel⟩
  obtain ⟨calls, body, success, hcalls, htold, -, hsamples, -, hlocations, hstored⟩ :=
    session_told_and_stored hstart hrun (by simp [Happening.stops, Request.stops]) hstop rfl
  have hrefuses : ∀ c ∈ calls, ¬ c.Refuses := fun c hc hrefuses =>
    List.any_eq_false.mp hlog c (hcalls ▸ List.mem_append_right _ hc) (c.refused_iff.mpr hrefuses)
  obtain ⟨hlocated, hsampled, -⟩ := hstored hrefuses
  have hlocation : body.flatMap Message.locations = [⟨0, .zero, .zero, .zero, .zero⟩] := by
    rw [hlocations]
    rfl
  have hrotation : body.flatMap (Message.samples .rotation) =
      [⟨.rotation, .zero, .zero, .zero, 0⟩] := by
    rw [hsamples]
    rfl
  refine ⟨s₁, s₂, s₃, reply, calls, body, success, hstart, hrun, hstop, htold, hrotation,
    hlocation, hrefuses, ?_, ?_⟩
  · rw [hlocated, hlocation]
    rfl
  · rw [hsampled, hrotation]
    rfl

end Service

end TripRecorder
