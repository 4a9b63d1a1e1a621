import TripRecorder.Proofs.Service.Sensors
import TripRecorder.Proofs.Service.Sessions

/-!
# Phases of a service

Between two steps a service is idle, running or paused, and a request either moves it from one phase
to another or changes nothing. Sensors are attached exactly while it is running, and then all of
those that were provided for the latest start or resume.

## Main definitions

* `Phase`, `Phase.after?`, `Phase.needs?` — the phases, and the requests that fit them
* `Phase.Holds` — a recorder is in a phase
* `Answered` — a request is answered as its phase, the store and the hardware have it
* `Service.LatelyAttached` — sensors were attached by the latest start or resume

## Main results

* `Recorder.turn_respond` — what a request comes to in a phase
* `Service.Run.exists_phase` — after any run a service is in a phase, and answers accordingly
-/

namespace TripRecorder

/-- What a service does between two steps. -/
inductive Phase where
  | idle
  | running (id : MeasurementId)
  | paused (id : MeasurementId)
deriving DecidableEq, Repr

namespace Phase

/-- The session in a phase. -/
def session : Phase → Session
  | idle => Session.idle
  | running id => ⟨.running, some id⟩
  | paused id => ⟨.paused, some id⟩

/-- The phase to which a request leads, if it fits. -/
def after? : Phase → Request → Option Phase
  | idle, .start id => some (running id)
  | running id, .pause => some (paused id)
  | paused id, .resume => some (running id)
  | running _, .stop => some idle
  | paused _, .stop => some idle
  | p, .ping => some p
  | _, .shutDown => some idle
  | _, _ => none

/-- The measurement that has to be open for a request. -/
def needs? : Phase → Request → Option MeasurementId
  | _, .start id => some id
  | paused id, .resume => some id
  | _, _ => none

/-- The measurement that has to be open for a request is open. -/
def Ready (p : Phase) (request : Request) (store : Store) : Prop :=
  ∀ id, p.needs? request = some id → store.status id = .ok .opened

/-- A recorder is in a phase. It holds a capture exactly while it is running, and then the fix
source and all sources of the capture are attached. -/
structure Holds (p : Phase) (r : Recorder) (w : Logged) : Prop where
  session_eq : r.session = p.session
  held : ∀ c, r.capture = some c → (∃ id, p = running id) ∧
    (sensors w.calls).attached = Sensor.all (sensors w.calls).provisions c.sources
  free : r.capture = none → (∀ id, p ≠ running id) ∧ (sensors w.calls).attached = []

theorem session_injective : Function.Injective session := by
  intro p p' h
  cases p <;> cases p' <;> simp_all [session, Session.idle]

theorem Holds.capture_eq_none {p : Phase} {r : Recorder} {w : Logged} (h : p.Holds r w)
    (hp : ∀ id, p ≠ running id) : r.capture = none := by
  cases hc : r.capture with
  | none => rfl
  | some c =>
    obtain ⟨⟨id, hrunning⟩, -⟩ := h.held c hc
    exact absurd hrunning (hp id)

end Phase

namespace Request

/-- The word for a request in a refusal. -/
def action : Request → String
  | start _ => "start"
  | pause => "pause"
  | resume => "resume"
  | stop => "stop"
  | ping => "ping"
  | shutDown => "shut down"

/-- A request for which sensors are attached. -/
def attaches : Request → Bool
  | start _ => true
  | resume => true
  | _ => false

end Request

/-- The error with which a request is refused. -/
def RecorderReply.error? : RecorderReply → Option CaptureError
  | finished (.error e) => some e
  | stopped (.error e) => some e
  | _ => none

/-- Sensors are attached for a request. -/
def Happening.attaches : Happening → Bool
  | handled _ request reply => request.attaches && reply.error?.isNone
  | _ => false

/-- The failures in the calls since an earlier log. -/
def Logged.failuresSince (w w' : Logged) : List CaptureError :=
  failures (w'.calls.drop w.calls.length)

theorem Logged.Moves.failuresSince_eq {w w' : Logged} {s s' : Sensors} {errors : List CaptureError}
    (h : Moves s s' errors w w') : failuresSince w w' = errors := by
  obtain ⟨calls, hcalls, -, rfl⟩ := h
  rw [failuresSince, hcalls, List.drop_left]

/-- A request is answered in a phase. -/
structure Answered (p : Phase) (request : Request) (reply : RecorderReply) (r r' : Recorder)
    (w w' : Logged) : Prop where
  /-- It is accepted exactly if it fits the phase, the measurement is open, and nothing fails while
  sensors are provided and attached. -/
  accepted_iff : reply.error? = none ↔
    (p.after? request).isSome ∧ p.Ready request w.store ∧ Logged.failuresSince w w' = []
  /-- An accepted request moves the session on. -/
  session_eq : ∀ p', reply.error? = none → p.after? request = some p' → r'.session = p'.session
  /-- A request that does not fit is refused for the state. -/
  misfit : p.after? request = none →
    reply.error? = some (Session.refusal request.action p.session.state)
  /-- A measurement that is not open is refused. -/
  unready : (p.after? request).isSome → ¬ p.Ready request w.store →
    ∃ detail, reply.error? = some (.setup detail)
  /-- Whatever else fails is the error. -/
  failed : ∀ e, (p.after? request).isSome → p.Ready request w.store → reply.error? = some e →
    Logged.failuresSince w w' = [e]
  /-- A request that is refused changes nothing and tells nothing. -/
  unchanged : reply.error? ≠ none → r' = r ∧ w'.store = w.store ∧
    (sensors w'.calls).attached = (sensors w.calls).attached ∧ told w'.calls = told w.calls

/-- What a request comes to: it is answered, leaves the recorder in a phase, and attaches all
sensors that are provided for it, or it leaves the sensors as they are unless the capture ends. -/
structure Turn (p : Phase) (request : Request) (reply : RecorderReply) (r r' : Recorder)
    (w w' : Logged) : Prop where
  answered : Answered p request reply r r' w w'
  holds : ∃ p' : Phase, p'.Holds r' w'
  attached : request.attaches = true → reply.error? = none → ∃ sources, sensors w'.calls =
    ⟨(sensors w.calls).provisions + 1, sources,
      Sensor.all ((sensors w.calls).provisions + 1) sources⟩
  kept : request.attaches = false ∨ reply.error? ≠ none → r'.capture = none ∨
    (r'.capture = r.capture ∧ sensors w'.calls = sensors w.calls)

namespace Turn

variable {p p' : Phase} {request : Request} {reply : RecorderReply} {r r' : Recorder}
  {w w' : Logged} {s : Sensors}

/-- A request that does not fit. -/
theorem of_misfit (hp : p.Holds r w) (hfits : p.after? request = none)
    (hreply : reply.error? = some (Session.refusal request.action p.session.state)) :
    Turn p request reply r r w w where
  answered := by
    constructor <;> simp [hfits, hreply]
  holds := ⟨p, hp⟩
  attached := by simp [hreply]
  kept _ := .inr ⟨rfl, rfl⟩

/-- A request that fits and for which sensors cannot be attached. -/
theorem of_failed {e : CaptureError} {errors : List CaptureError} (hp : p.Holds r w)
    (hnone : r.capture = none) (hfits : (p.after? request).isSome)
    (hreply : reply.error? = some e) (hstore : w'.store = w.store)
    (htold : told w'.calls = told w.calls) (hmoves : Logged.Moves (sensors w.calls) s errors w w')
    (hs : s.attached = []) (hunready : ¬ p.Ready request w.store → ∃ detail, e = .setup detail)
    (hready : p.Ready request w.store → errors = [e]) : Turn p request reply r r w w' := by
  have hsensors : sensors w'.calls = s := hmoves.sensors_eq rfl
  have hfailures := hmoves.failuresSince_eq
  have hattached := (hp.free hnone).2
  exact {
    answered := {
      accepted_iff := by
        rw [hreply, hfailures]
        -- A request that is ready was refused by the hardware, so there is a failure.
        refine iff_of_false nofun fun ⟨_, hopen, hnil⟩ => ?_
        rw [hready hopen] at hnil
        cases hnil
      session_eq := by simp [hreply]
      misfit := by
        intro hmisfit
        rw [hmisfit] at hfits
        cases hfits
      unready := by
        intro _ hnot
        obtain ⟨detail, rfl⟩ := hunready hnot
        exact ⟨detail, hreply⟩
      failed := by
        intro e' _ hopen herror
        obtain rfl := Option.some.inj (hreply.symm.trans herror)
        rw [hfailures, hready hopen]
      unchanged := fun _ => ⟨rfl, hstore, by rw [hsensors, hs, hattached], htold⟩ }
    holds := by
      refine ⟨p, hp.session_eq, fun c hc => ?_, fun _ => ⟨(hp.free hnone).1, by rw [hsensors, hs]⟩⟩
      rw [hnone] at hc
      cases hc
    attached := by simp [hreply]
    kept := fun _ => .inl hnone }

/-- A request that is accepted. -/
theorem answered_of_accepted (hfits : p.after? request = some p')
    (hready : p.Ready request w.store) (hreply : reply.error? = none)
    (hmoves : Logged.Moves (sensors w.calls) s [] w w') (hsession : r'.session = p'.session) :
    Answered p request reply r r' w w' := by
  exact {
    accepted_iff := iff_of_true hreply ⟨by rw [hfits]; rfl, hready, hmoves.failuresSince_eq⟩
    session_eq := by
      intro p'' _ hfits'
      rwa [← Option.some.inj (hfits.symm.trans hfits')]
    misfit := by simp [hfits]
    unready := fun _ hnot => absurd hready hnot
    failed := by simp [hreply]
    unchanged := fun hrefused => absurd hreply hrefused }

/-- A request for which sensors are attached. -/
theorem of_attached {id : MeasurementId} {c : HeldCapture}
    (hfits : p.after? request = some (.running id)) (hready : p.Ready request w.store)
    (hreply : reply.error? = none) (hrequest : request.attaches = true)
    (hmoves : Logged.Moves (sensors w.calls) ⟨(sensors w.calls).provisions + 1, c.sources,
      Sensor.all ((sensors w.calls).provisions + 1) c.sources⟩ [] w w')
    (hsession : r'.session = (Phase.running id).session) (hcapture : r'.capture = some c) :
    Turn p request reply r r' w w' := by
  have hsensors := hmoves.sensors_eq rfl
  refine ⟨answered_of_accepted hfits hready hreply hmoves hsession,
    ⟨.running id, hsession, ?_, ?_⟩, fun _ _ => ⟨c.sources, hsensors⟩, ?_⟩
  · intro c' hc'
    obtain rfl := Option.some.inj (hcapture.symm.trans hc')
    exact ⟨⟨id, rfl⟩, by rw [hsensors]⟩
  · intro hnone
    rw [hcapture] at hnone
    cases hnone
  · rintro (hother | hrefused)
    · rw [hrequest] at hother
      cases hother
    · exact absurd hreply hrefused

/-- A request after which no sensor is attached. -/
theorem of_detached (hfits : p.after? request = some p') (hp' : ∀ id, p' ≠ .running id)
    (hneeds : p.needs? request = none) (hreply : reply.error? = none)
    (hrequest : request.attaches = false)
    (hmoves : Logged.Moves (sensors w.calls) s [] w w') (hs : s.attached = [])
    (hsession : r'.session = p'.session) (hcapture : r'.capture = none) :
    Turn p request reply r r' w w' := by
  have hready : p.Ready request w.store := by
    intro id hid
    rw [hneeds] at hid
    cases hid
  refine ⟨answered_of_accepted hfits hready hreply hmoves hsession, ⟨p', hsession, ?_, ?_⟩, ?_,
    fun _ => .inl hcapture⟩
  · intro c hc
    rw [hcapture] at hc
    cases hc
  · exact fun _ => ⟨hp', by rw [hmoves.sensors_eq rfl, hs]⟩
  · intro hattaches
    rw [hrequest] at hattaches
    cases hattaches

/-- A request that is accepted and leaves everything as it is. -/
theorem of_same (hp : p.Holds r w) (hfits : p.after? request = some p)
    (hneeds : p.needs? request = none) (hreply : reply.error? = none)
    (hrequest : request.attaches = false) : Turn p request reply r r w w := by
  have hready : p.Ready request w.store := by
    intro id hid
    rw [hneeds] at hid
    cases hid
  refine ⟨answered_of_accepted hfits hready hreply (Logged.moves_refl _ w) hp.session_eq,
    ⟨p, hp⟩, ?_, fun _ => .inr ⟨rfl, rfl⟩⟩
  intro hattaches
  rw [hrequest] at hattaches
  cases hattaches

end Turn

/-! ### Requests in a phase -/

namespace Recorder

variable {p : Phase} {r r' : Recorder} {w w' : Logged} {id : MeasurementId} {now : Nat}

/-- While sensors are not attached, attaching brings all of them or none. -/
theorem moves_attachTo_of_free {attached : Except CaptureError Nat}
    (hfree : (sensors w.calls).attached = [])
    (h : (attachTo id).run.Ends Logged.Acts w attached w') :
    (∃ m, w.store.status id = .ok .opened ∧ attached = .ok m ∧
      Logged.Moves (sensors w.calls) ⟨(sensors w.calls).provisions + 1, m,
        Sensor.all ((sensors w.calls).provisions + 1) m⟩ [] w w') ∨
    ∃ e s errors, attached = .error e ∧ s.attached = [] ∧
      Logged.Moves (sensors w.calls) s errors w w' ∧
      (w.store.status id ≠ .ok .opened → ∃ detail, e = .setup detail) ∧
      (w.store.status id = .ok .opened → errors = [e]) := by
  have hsensors : sensors w.calls =
      ⟨(sensors w.calls).provisions, (sensors w.calls).sources, []⟩ := by rw [← hfree]
  rw [hsensors]
  exact moves_attachTo h

/-- When a capture is detached, if there is one, no sensor is attached any more. -/
theorem exists_moves_detach {session : Session} (hp : p.Holds r w)
    (h : ({ r with session := session }.detach now).Ends Logged.Acts w r' w') :
    ∃ s, s.attached = [] ∧ Logged.Moves (sensors w.calls) s [] w w' := by
  cases hc : r.capture with
  | none =>
    rcases ends_detach h with ⟨-, -, rfl⟩ | ⟨c, _, hc', -, -⟩
    · exact ⟨_, (hp.free hc).2, Logged.moves_refl _ w'⟩
    · rw [show r.capture = some c from hc'] at hc
      cases hc
  | some c =>
    have hsensors : sensors w.calls = ⟨(sensors w.calls).provisions, (sensors w.calls).sources,
        Sensor.all (sensors w.calls).provisions c.sources⟩ := by rw [← (hp.held c hc).2]
    rw [hsensors]
    exact ⟨_, rfl, moves_detach (r := { r with session := session }) hc h⟩

theorem turn_start {result : Except CaptureError Unit} (hp : p.Holds r w)
    (h : (r.start id now).Ends Logged.Acts w (result, r') w') :
    Turn p (.start id) (.finished result) r r' w w' := by
  have hsession := hp.session_eq
  rcases ends_start h with ⟨hstate, rfl, rfl, rfl⟩ | ⟨hstate, attached, w₁, hattach, hrest⟩
  · rw [hsession] at hstate ⊢
    refine .of_misfit hp ?_ rfl
    cases p with
    | idle => exact absurd rfl hstate
    | _ => rfl
  · obtain rfl : p = .idle := by
      rw [hsession] at hstate
      cases p with
      | idle => rfl
      | _ => cases hstate
    have hnone := hp.capture_eq_none nofun
    have hready : Phase.idle.Ready (.start id) w.store ↔ w.store.status id = .ok .opened := by
      simp [Phase.Ready, Phase.needs?]
    rcases moves_attachTo_of_free (hp.free hnone).2 hattach with ⟨m, hopen, rfl, hmoves⟩ |
      ⟨e, s, errors, rfl, hs, hmoves, hunready, herrors⟩
    · rcases hrest with ⟨_, herror, -⟩ | ⟨sources, w₂, told, hok, hacquire, htold, rfl, rfl⟩
      · cases herror
      · obtain rfl := Except.ok.inj hok
        -- Keeping the device awake and telling the start does not concern the sensors.
        have hall := (hmoves.trans (Logged.moves_call hacquire _)).trans
          (Logged.moves_call htold _)
        exact .of_attached (c := newCapture r.config m now) rfl (hready.mpr hopen) rfl rfl hall
          rfl rfl
    · rcases hrest with ⟨_, herror, rfl, rfl, rfl⟩ | ⟨_, _, _, hok, -⟩
      · obtain rfl := Except.error.inj herror
        -- The session that was begun is given up, so the recorder is as it was.
        have hsame : { r with session := Session.idle } = r := by
          rw [show Session.idle = r.session from hsession.symm]
        rw [hsame]
        exact .of_failed hp hnone rfl rfl (store_attachTo hattach) (told_eq_attachTo hattach)
          hmoves hs (fun hnot => hunready (mt hready.mpr hnot))
          fun hopen => herrors (hready.mp hopen)
      · cases hok

theorem turn_pause {result : Except CaptureError Unit} (hp : p.Holds r w)
    (h : (r.pause now).Ends Logged.Acts w (result, r') w') :
    Turn p .pause (.finished result) r r' w w' := by
  have hsession := hp.session_eq
  rcases ends_pause h with ⟨hstate, rfl, rfl, rfl⟩ | ⟨id, w₁, hrunning, hdetach, hrelease, rfl⟩
  · rw [hsession] at hstate ⊢
    refine .of_misfit hp ?_ rfl
    cases p with
    | running id => exact absurd List.mem_cons_self (hstate id rfl)
    | _ => rfl
  · obtain rfl : p = .running id := Phase.session_injective (hsession.symm.trans hrunning)
    obtain ⟨s, hs, hmoves⟩ := exists_moves_detach hp hdetach
    obtain ⟨stats, rfl⟩ := ends_detach_stats hdetach
    have hpaused : ∀ i, Phase.paused id ≠ .running i := nofun
    exact .of_detached rfl hpaused rfl rfl rfl
      (hmoves.trans (Logged.moves_call hrelease _)) hs rfl rfl

theorem turn_resume {result : Except CaptureError Unit} (hp : p.Holds r w)
    (h : (r.resume now).Ends Logged.Acts w (result, r') w') :
    Turn p .resume (.finished result) r r' w w' := by
  have hsession := hp.session_eq
  rcases ends_resume h with ⟨hstate, rfl, rfl, rfl⟩ |
    ⟨id, attached, w₁, hpaused, hattach, hrest⟩
  · rw [hsession] at hstate ⊢
    refine .of_misfit hp ?_ rfl
    cases p with
    | paused id => exact absurd List.mem_cons_self (hstate id rfl)
    | _ => rfl
  · obtain rfl : p = .paused id := Phase.session_injective (hsession.symm.trans hpaused)
    have hnone := hp.capture_eq_none nofun
    have hready : (Phase.paused id).Ready .resume w.store ↔
        w.store.status id = .ok .opened := by
      simp [Phase.Ready, Phase.needs?]
    rcases moves_attachTo_of_free (hp.free hnone).2 hattach with ⟨m, hopen, rfl, hmoves⟩ |
      ⟨e, s, errors, rfl, hs, hmoves, hunready, herrors⟩
    · rcases hrest with ⟨_, herror, -⟩ | ⟨sources, hok, hacquire, rfl, rfl⟩
      · cases herror
      · obtain rfl := Except.ok.inj hok
        exact .of_attached (c := newCapture r.config m now) rfl (hready.mpr hopen) rfl rfl
          (hmoves.trans (Logged.moves_call hacquire _)) rfl rfl
    · rcases hrest with ⟨_, herror, rfl, rfl, rfl⟩ | ⟨_, hok, -⟩
      · obtain rfl := Except.error.inj herror
        exact .of_failed hp hnone rfl rfl (store_attachTo hattach) (told_eq_attachTo hattach)
          hmoves hs (fun hnot => hunready (mt hready.mpr hnot))
          fun hopen => herrors (hready.mp hopen)
      · cases hok

/-- A request with which a session is stopped. -/
theorem turn_of_stop {request : Request} {reply : RecorderReply}
    {result : Except CaptureError StopReport} (hp : p.Holds r w) (hactive : p ≠ .idle)
    (hrequest : request.stops = true) (hreply : reply.error? = none)
    (h : (r.stop now).Ends Logged.Acts w (result, r') w') : Turn p request reply r r' w w' := by
  -- Stopping and shutting down mean the same for a session that is going on.
  have hfits : p.after? request = some .idle ∧ p.needs? request = none ∧
      request.attaches = false := by
    cases p <;> cases request <;> first | exact ⟨rfl, rfl, rfl⟩ | contradiction
  rcases ends_stop h with ⟨hstate, -⟩ |
    ⟨id, stats, w₁, w₂, w₃, answer, told, -, -, hdetach, hrelease, hfinish, htold, -, rfl⟩
  · rw [hp.session_eq] at hstate
    cases p with
    | idle => exact absurd rfl hactive
    | running id => exact absurd List.mem_cons_self (hstate id rfl)
    | paused id => exact absurd (List.mem_cons_of_mem _ List.mem_cons_self) (hstate id rfl)
  · -- Once the sensors are detached, the other calls of a stop do not concern them.
    obtain ⟨s, hs, hmoves⟩ := exists_moves_detach hp hdetach
    have hall := ((hmoves.trans (Logged.moves_call hrelease _)).trans
      (Logged.moves_call hfinish _)).trans (Logged.moves_call htold _)
    exact .of_detached hfits.1 nofun hfits.2.1 hreply hfits.2.2 hall hs rfl rfl

theorem turn_stop {result : Except CaptureError StopReport} (hp : p.Holds r w)
    (h : (r.stop now).Ends Logged.Acts w (result, r') w') :
    Turn p .stop (.stopped result) r r' w w' := by
  have hsession := hp.session_eq
  rcases ends_stop h with ⟨hstate, rfl, rfl, rfl⟩ |
    ⟨id, stats, w₁, w₂, w₃, answer, told, hid, -, -, -, -, -, rfl, -⟩
  · rw [hsession] at hstate ⊢
    refine .of_misfit hp ?_ rfl
    cases p with
    | idle => rfl
    | running id => exact absurd List.mem_cons_self (hstate id rfl)
    | paused id => exact absurd (List.mem_cons_of_mem _ List.mem_cons_self) (hstate id rfl)
  · refine turn_of_stop hp ?_ rfl rfl h
    rintro rfl
    rw [hsession] at hid
    cases hid

/-- A recorder that ends stops first if a session is going on. -/
theorem turn_shutDown (hp : p.Holds r w) (h : (r.shutDown now).Ends Logged.Acts w r' w') :
    Turn p .shutDown .ended r r' w w' := by
  have hsession := hp.session_eq
  rcases ends_shutDown h with ⟨hstate, rfl, rfl⟩ | ⟨hstate, result, hstop⟩
  · rw [hsession] at hstate
    cases p with
    | idle => exact .of_same hp rfl rfl rfl rfl
    | _ => simp [Phase.session] at hstate
  · refine turn_of_stop hp ?_ rfl rfl hstop
    rintro rfl
    rw [hsession] at hstate
    simp [Phase.session, Session.idle] at hstate

/-- What a request comes to in a phase. -/
theorem turn_respond {request : Request} {reply : RecorderReply} (hp : p.Holds r w)
    (h : (r.respond now request).Ends Logged.Acts w (reply, r') w') :
    Turn p request reply r r' w w' := by
  have hrespond := ends_respond h
  cases request with
  | start id =>
    obtain ⟨result, rfl, hstart⟩ := hrespond
    exact turn_start hp hstart
  | pause =>
    obtain ⟨result, rfl, hpause⟩ := hrespond
    exact turn_pause hp hpause
  | resume =>
    obtain ⟨result, rfl, hresume⟩ := hrespond
    exact turn_resume hp hresume
  | stop =>
    obtain ⟨result, rfl, hstop⟩ := hrespond
    exact turn_stop hp hstop
  | ping =>
    obtain ⟨rfl, rfl, rfl⟩ := hrespond
    exact .of_same hp (by cases p <;> rfl) (by cases p <;> rfl) rfl rfl
  | shutDown =>
    obtain ⟨rfl, hshutDown⟩ := hrespond
    exact turn_shutDown hp hshutDown

end Recorder

/-! ### Between requests -/

namespace Recorder

variable {p : Phase} {r r' : Recorder} {w w' : Logged}

theorem sources_handleNext (h : r.handleNext.Ends Logged.Acts w r' w') :
    r'.capture.map HeldCapture.sources = r.capture.map HeldCapture.sources := by
  unfold handleNext at h
  split at h
  · obtain ⟨rfl, -⟩ := Procedure.ends_done_iff.mp h
    rfl
  · have hpending (rest : List CaptureEvent) : (r.withPending rest).capture.map
        HeldCapture.sources = r.capture.map HeldCapture.sources := by
      cases hc : r.capture <;> simp [withPending, hc]
    rcases ends_handle h with ⟨-, rfl, -⟩ | ⟨id, stats, -, -, rfl⟩ <;> exact hpending _

theorem sources_move (r : Recorder) (now : Nat) (move : CaptureMove) :
    (r.move now move).capture.map HeldCapture.sources = r.capture.map HeldCapture.sources := by
  cases hc : r.capture with
  | none => cases move <;> simp [Recorder.move, offer, starve, onPump, hc]
  | some c =>
    obtain ⟨pump, events, hmove, -⟩ := move_capture hc now move
    rw [hmove]
    rfl

/-- A phase does not depend on the events that wait, nor on the counters. -/
theorem holds_of_sources (hp : p.Holds r w) (hsession : r'.session = r.session)
    (hsources : r'.capture.map HeldCapture.sources = r.capture.map HeldCapture.sources)
    (hsensors : sensors w'.calls = sensors w.calls) : p.Holds r' w' where
  session_eq := hsession.trans hp.session_eq
  held c hc := by
    rw [hc] at hsources
    obtain ⟨c', hc', hsame⟩ := Option.map_eq_some_iff.mp hsources.symm
    rw [hsensors, ← hsame]
    exact hp.held c' hc'
  free hnone := by
    rw [hnone] at hsources
    rw [hsensors]
    exact hp.free (Option.map_eq_none_iff.mp hsources.symm)

end Recorder

/-! ### Runs -/

namespace Service

variable {s s' first : Service} {happening : Happening} {happenings : List Happening}

/-- The sensors of a service were all attached by the latest start or resume of a run that was
accepted, and nothing happened to them since. -/
def LatelyAttached (first : Service) (happenings : List Happening) (s : Service) : Prop :=
  ∃ earlier attaching later s₀ s₁ sources, happenings = earlier ++ attaching :: later ∧
    Run first earlier s₀ ∧ Step s₀ attaching s₁ ∧ Run s₁ later s ∧ attaching.attaches = true ∧
    (∀ h ∈ later, h.attaches = false) ∧
    sensors s₁.world.calls = ⟨(sensors s₀.world.calls).provisions + 1, sources,
      Sensor.all ((sensors s₀.world.calls).provisions + 1) sources⟩ ∧
    sensors s.world.calls = sensors s₁.world.calls

/-- What a step does to the phase of a service and to its sensors. -/
structure Step.Turns (p : Phase) (s : Service) (happening : Happening) (s' : Service) : Prop where
  holds : ∃ p' : Phase, p'.Holds s'.recorder s'.world
  attached : happening.attaches = true → ∃ sources, sensors s'.world.calls =
    ⟨(sensors s.world.calls).provisions + 1, sources,
      Sensor.all ((sensors s.world.calls).provisions + 1) sources⟩
  kept : happening.attaches = false → s'.recorder.capture = none ∨
    (s'.recorder.capture.isSome = s.recorder.capture.isSome ∧
      sensors s'.world.calls = sensors s.world.calls)

theorem Step.turns {p : Phase} (h : Step s happening s') (hp : p.Holds s.recorder s.world) :
    Step.Turns p s happening s' := by
  cases h with
  | request request now h =>
    have hturn := Recorder.turn_respond hp h
    refine ⟨hturn.holds, fun hattaches => ?_, fun hother => ?_⟩
    · obtain ⟨hrequest, haccepted⟩ := Bool.and_eq_true_iff.mp hattaches
      exact hturn.attached hrequest (Option.isNone_iff_eq_none.mp haccepted)
    · have hcases := Bool.and_eq_false_iff.mp hother
      rw [← Bool.not_eq_true (Option.isNone _), Option.isNone_iff_eq_none] at hcases
      rcases hturn.kept hcases with hnone | ⟨hcapture, hsensors⟩
      · exact .inl hnone
      · exact .inr ⟨congrArg _ hcapture, hsensors⟩
  | @event r w r' w' h =>
    have hsources := Recorder.sources_handleNext h
    have hsensors := (Recorder.moves_noting h (Recorder.asks_handleNext r) _).sensors_eq rfl
    refine ⟨⟨p, Recorder.holds_of_sources hp (Recorder.session_handleNext h) hsources hsensors⟩,
      nofun, fun _ => .inr ⟨?_, hsensors⟩⟩
    simpa using congrArg Option.isSome hsources
  | @capture r w move now =>
    have hsources := Recorder.sources_move r now move
    refine ⟨⟨p, Recorder.holds_of_sources hp (Recorder.session_move r now move) hsources rfl⟩,
      nofun, fun _ => .inr ⟨?_, rfl⟩⟩
    simpa using congrArg Option.isSome hsources

theorem holds_fresh (config : RecorderConfig) (store : Store) :
    Phase.idle.Holds (fresh config store).recorder (fresh config store).world :=
  ⟨rfl, nofun, fun _ => ⟨nofun, rfl⟩⟩

/-- After any run a service is in a phase, and its sensors are those of the latest start or
resume. -/
theorem Run.holds {config : RecorderConfig} {store : Store}
    (h : Run (fresh config store) happenings s) :
    (∃ p : Phase, p.Holds s.recorder s.world) ∧
      (s.recorder.capture.isSome → LatelyAttached (fresh config store) happenings s) := by
  generalize hfresh : fresh config store = first at h
  -- A step attaches the sensors anew, or it keeps those that are attached with the capture.
  induction h with
  | nil =>
    subst hfresh
    exact ⟨⟨.idle, holds_fresh config store⟩, nofun⟩
  | @snoc happenings s₁ happening s₂ hrun hstep ih =>
    subst hfresh
    obtain ⟨⟨p, hp⟩, hlately⟩ := ih
    have hturns := hstep.turns hp
    refine ⟨hturns.holds, fun hheld => ?_⟩
    by_cases hattaches : happening.attaches = true
    · obtain ⟨sources, hsensors⟩ := hturns.attached hattaches
      exact ⟨happenings, happening, [], s₁, s₂, sources, rfl, hrun, hstep, .nil, hattaches,
        List.forall_mem_nil _, hsensors, rfl⟩
    · -- The capture was there before, and its sensors are still attached.
      rw [Bool.not_eq_true] at hattaches
      rcases hturns.kept hattaches with hnone | ⟨hsome, hsame⟩
      · rw [hnone] at hheld
        cases hheld
      · obtain ⟨earlier, attaching, later, s₀, s₁', sources, rfl, hearlier, hattaching, hlater,
          hattached, hothers, hsensors, hkept⟩ := hlately (hsome ▸ hheld)
        refine ⟨earlier, attaching, later ++ [happening], s₀, s₁', sources, by simp, hearlier,
          hattaching, hlater.snoc hstep, hattached, fun h hh => ?_, hsensors,
          hsame.trans hkept⟩
        rcases List.mem_append.mp hh with hmem | hmem
        · exact hothers h hmem
        · rw [List.mem_singleton.mp hmem]
          exact hattaches

end Service

end TripRecorder
