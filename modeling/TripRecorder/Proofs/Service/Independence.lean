import TripRecorder.Proofs.Agreement
import TripRecorder.Proofs.Service.Play

/-!
# What a service does not depend on

A recorder looks at no answer of its observers, and of an append it only counts the failures. So
two services in worlds that differ in their observers cannot be told apart by anything but the
observers themselves, and in worlds that differ in the rows which the database refuses, only by the
rows and by the number of failures.

## Main definitions

* `Recorder.mapFailures`, `Happening.mapFailures` — a recorder and a happening in which the number
  of failures is replaced
* `Recorder.Comparable` — two worlds that a recorder cannot tell apart
* `World.SameButAudience`, `World.SameButRows` — the two ways in which worlds may differ

## Main results

* `Recorder.Comparable.agree_respond`, `Recorder.Comparable.agree_handleNext` — what a recorder
  does in comparable worlds
* `World.comparable_audience`, `World.comparable_rows` — such worlds are comparable
* `Play.Alike.steps` — the plays of a service in comparable worlds
* `Play.independent` — no play depends on the observers, nor, but for the number of failures, on
  refused rows
-/

namespace TripRecorder

/-! ### Replaced numbers of failures -/

variable {f : Nat → Nat}

/-- The counters with another number of failures. -/
def SessionStats.mapFailures (f : Nat → Nat) (x : SessionStats) : SessionStats :=
  { x with persistenceFailures := f x.persistenceFailures }

/-- The report of a stop with another number of failures. -/
def StopReport.mapFailures (f : Nat → Nat) (x : StopReport) : StopReport :=
  { x with persistenceFailures := f x.persistenceFailures }

/-- A recorder with another number of failures. -/
def Recorder.mapFailures (f : Nat → Nat) (r : Recorder) : Recorder :=
  { r with stats := r.stats.mapFailures f }

/-- A reply with another number of failures. -/
def RecorderReply.mapFailures (f : Nat → Nat) : RecorderReply → RecorderReply
  | stopped (.ok report) => stopped (.ok (report.mapFailures f))
  | status value => status { value with stats := value.stats.mapFailures f }
  | reply => reply

/-- A happening with another number of failures. -/
def Happening.mapFailures (f : Nat → Nat) : Happening → Happening
  | handled before request reply => handled before request (reply.mapFailures f)
  | happening => happening

@[simp] theorem Recorder.mapFailures_id (r : Recorder) : r.mapFailures id = r := rfl

@[simp] theorem RecorderReply.mapFailures_id (reply : RecorderReply) :
    reply.mapFailures id = reply := by
  rcases reply with _ | (_ | _) | _ | _ <;> rfl

@[simp] theorem Happening.mapFailures_id : Happening.mapFailures id = id := by
  funext happening
  cases happening <;> simp [mapFailures]

/-- Counters that differ in the number of failures at most. -/
theorem SessionStats.mapFailures_eq_iff {x y : SessionStats} :
    x.mapFailures f = y.mapFailures f ↔
      ∃ n, y = { x with persistenceFailures := n } ∧ f x.persistenceFailures = f n := by
  obtain ⟨_, _, _, m, _⟩ := x
  obtain ⟨_, _, _, n, _⟩ := y
  simp [mapFailures]
  grind

/-- Recorders that differ in the number of failures at most. -/
theorem Recorder.mapFailures_eq_iff {r r' : Recorder} :
    r.mapFailures f = r'.mapFailures f ↔
      ∃ stats, r' = { r with stats := stats } ∧ r.stats.mapFailures f = stats.mapFailures f := by
  obtain ⟨_, _, x, _⟩ := r
  obtain ⟨_, _, y, _⟩ := r'
  simp [mapFailures]
  grind

namespace Recorder

theorem session_eq {r r' : Recorder} (h : r.mapFailures f = r'.mapFailures f) :
    r.session = r'.session := by
  obtain ⟨stats, rfl, -⟩ := mapFailures_eq_iff.mp h
  rfl

theorem mapFailures_mk {x y : SessionStats} (h : x.mapFailures f = y.mapFailures f)
    {config : RecorderConfig} {session : Session} {capture : Option HeldCapture} :
    (⟨config, session, x, capture⟩ : Recorder).mapFailures f =
      (⟨config, session, y, capture⟩ : Recorder).mapFailures f :=
  mapFailures_eq_iff.mpr ⟨y, rfl, h⟩

/-! ### Comparable worlds -/

section Comparable

variable {σ₁ σ₂ : Type} (serve₁ : (c : RecorderCall) → σ₁ → RecorderAnswer c × σ₁)
  (serve₂ : (c : RecorderCall) → σ₂ → RecorderAnswer c × σ₂) (alike : σ₁ → σ₂ → Prop)
  (f : Nat → Nat)

/-- Two worlds that a recorder cannot tell apart, but for the number of failures. -/
structure Comparable (same : Bool → Bool → Prop) : Prop where
  /-- A call that neither stores points nor tells a message is answered alike. -/
  silent : ∀ c s₁ s₂, c.Silent → alike s₁ s₂ →
    (serve₁ c s₁).1 = (serve₂ c s₂).1 ∧ alike (serve₁ c s₁).2 (serve₂ c s₂).2
  /-- A message may be accepted by others, and that is all. -/
  deliver : ∀ message s₁ s₂, alike s₁ s₂ →
    alike (serve₁ (.deliver message) s₁).2 (serve₂ (.deliver message) s₂).2
  save : ∀ batchLimit id points, Procedure.Agree serve₁ serve₂ alike same
    (save batchLimit id points) (save batchLimit id points)
  /-- Points that were saved in the one world only make a difference in the number of failures. -/
  count : ∀ m n saved saved', f m = f n → same saved saved' →
    f (if saved then m else m + 1) = f (if saved' then n else n + 1)

variable {serve₁ serve₂ alike f} {same : Bool → Bool → Prop}

namespace Comparable

variable (h : Comparable serve₁ serve₂ alike f same) {r r' : Recorder} {x y : SessionStats}
  {config : RecorderConfig} {id : MeasurementId} {now : Nat}

include h

theorem countUnsaved (hstats : x.mapFailures f = y.mapFailures f) {saved saved' : Bool}
    (hsaved : same saved saved') :
    (Recorder.countUnsaved x saved).mapFailures f =
      (Recorder.countUnsaved y saved').mapFailures f := by
  obtain ⟨n, rfl, hfailures⟩ := SessionStats.mapFailures_eq_iff.mp hstats
  have hcount := h.count _ _ saved saved' hfailures hsaved
  cases saved <;> cases saved' <;>
    simpa [Recorder.countUnsaved, SessionStats.mapFailures] using hcount

theorem agree_tell (message : Message) :
    Procedure.Agree serve₁ serve₂ alike Eq (tell message) (tell message) :=
  fun s₁ s₂ hs => ⟨rfl, h.deliver message s₁ s₂ hs⟩

theorem agree_call {α β : Type} {post : α → β → Prop} {c : RecorderCall} (hc : c.Silent)
    {p : RecorderAnswer c → Recording α} {q : RecorderAnswer c → Recording β}
    (hnext : ∀ answer, Procedure.Agree serve₁ serve₂ alike post (p answer) (q answer)) :
    Procedure.Agree serve₁ serve₂ alike post (.call c p) (.call c q) :=
  .call (fun s₁ s₂ => h.silent c s₁ s₂ hc) hnext

theorem agree_of_silent {α : Type} {p : Recording α} (hp : p.Asks RecorderCall.Silent) :
    Procedure.Agree serve₁ serve₂ alike Eq p p :=
  hp.agree h.silent

/-! ### Events -/

theorem agree_handleLocation (hstats : x.mapFailures f = y.mapFailures f) (l : GeoLocation) :
    Procedure.Agree serve₁ serve₂ alike (fun x y => x.mapFailures f = y.mapFailures f)
      (handleLocation config id x l) (handleLocation config id y l) := by
  refine (h.save _ _ _).bind fun saved saved' hsaved => (h.agree_tell _).bind fun _ _ _ => ?_
  obtain ⟨n, rfl, hfailures⟩ := SessionStats.mapFailures_eq_iff.mp hstats
  refine Procedure.agree_done (h.countUnsaved ?_ hsaved)
  exact SessionStats.mapFailures_eq_iff.mpr ⟨n, rfl, hfailures⟩

theorem agree_handleChunks (chunks : List SampleBatch)
    (hstats : x.mapFailures f = y.mapFailures f) :
    Procedure.Agree serve₁ serve₂ alike (fun x y => x.mapFailures f = y.mapFailures f)
      (handleChunks config id x chunks) (handleChunks config id y chunks) := by
  induction chunks generalizing x y with
  | nil => exact Procedure.agree_done hstats
  | cons chunk rest ih =>
    refine (h.save _ _ _).bind fun saved saved' hsaved => (h.agree_tell _).bind fun _ _ _ => ?_
    obtain ⟨n, rfl, hfailures⟩ := SessionStats.mapFailures_eq_iff.mp hstats
    refine ih (h.countUnsaved ?_ hsaved)
    exact SessionStats.mapFailures_eq_iff.mpr ⟨n, rfl, hfailures⟩

theorem agree_handleFor (hstats : x.mapFailures f = y.mapFailures f) (event : CaptureEvent) :
    Procedure.Agree serve₁ serve₂ alike (fun x y => x.mapFailures f = y.mapFailures f)
      (handleFor config id x event) (handleFor config id y event) := by
  cases event with
  | location l => exact h.agree_handleLocation hstats l
  | data batch => exact h.agree_handleChunks _ hstats
  | fixAcquired => exact (h.agree_tell _).bind fun _ _ _ => Procedure.agree_done hstats
  | fixLost => exact (h.agree_tell _).bind fun _ _ _ => Procedure.agree_done hstats
  | failed e =>
    refine (h.agree_tell _).bind fun _ _ _ => Procedure.agree_done ?_
    obtain ⟨n, rfl, hfailures⟩ := SessionStats.mapFailures_eq_iff.mp hstats
    exact SessionStats.mapFailures_eq_iff.mpr ⟨n, rfl, hfailures⟩

theorem agree_handle (hr : r.mapFailures f = r'.mapFailures f) (event : CaptureEvent) :
    Procedure.Agree serve₁ serve₂ alike (fun r r' => r.mapFailures f = r'.mapFailures f)
      (r.handle event) (r'.handle event) := by
  obtain ⟨stats, rfl, hstats⟩ := mapFailures_eq_iff.mp hr
  unfold handle
  simp only
  -- Both sessions have the same measurement, since the sessions are the same.
  cases r.session.measurement with
  | none => exact Procedure.agree_done hr
  | some id =>
    refine (h.agree_handleFor hstats event).bind fun x y hxy => Procedure.agree_done ?_
    exact mapFailures_mk hxy

theorem agree_handleAll (events : List CaptureEvent)
    (hr : r.mapFailures f = r'.mapFailures f) :
    Procedure.Agree serve₁ serve₂ alike (fun r r' => r.mapFailures f = r'.mapFailures f)
      (r.handleAll events) (r'.handleAll events) := by
  induction events generalizing r r' with
  | nil => exact Procedure.agree_done hr
  | cons event rest ih => exact (h.agree_handle hr event).bind fun _ _ => ih

theorem agree_detach (hr : r.mapFailures f = r'.mapFailures f) (now : Nat) :
    Procedure.Agree serve₁ serve₂ alike (fun r r' => r.mapFailures f = r'.mapFailures f)
      (r.detach now) (r'.detach now) := by
  obtain ⟨stats, rfl, hstats⟩ := mapFailures_eq_iff.mp hr
  obtain ⟨config, session, x, capture⟩ := r
  unfold detach
  cases capture with
  | none => exact Procedure.agree_done hr
  | some c =>
    have hdetached : (onHardware (detachSensors c.sources)).Asks RecorderCall.Silent :=
      (Procedure.asks_true _).mapCalls fun _ _ => trivial
    refine (h.agree_of_silent hdetached).bind fun _ _ _ => h.agree_handleAll _ ?_
    exact mapFailures_mk hstats

theorem agree_handleNext (hr : r.mapFailures f = r'.mapFailures f) :
    Procedure.Agree serve₁ serve₂ alike (fun r r' => r.mapFailures f = r'.mapFailures f)
      r.handleNext r'.handleNext := by
  obtain ⟨stats, rfl, hstats⟩ := mapFailures_eq_iff.mp hr
  have hpending : { r with stats := stats }.pending = r.pending := rfl
  unfold handleNext
  rw [hpending]
  cases r.pending with
  | nil => exact Procedure.agree_done hr
  | cons event rest =>
    exact h.agree_handle (mapFailures_mk hstats) event

/-! ### Requests -/

theorem agree_attachTo (id : MeasurementId) :
    Procedure.Agree serve₁ serve₂ alike Eq (attachTo id).run (attachTo id).run :=
  h.agree_of_silent ((asks_attachTo id).mono fun _ hc => hc.silent)

theorem agree_start (hr : r.mapFailures f = r'.mapFailures f) (id : MeasurementId) (now : Nat) :
    Procedure.Agree serve₁ serve₂ alike
      (fun x y => x.1 = y.1 ∧ x.2.mapFailures f = y.2.mapFailures f)
      (r.start id now) (r'.start id now) := by
  obtain ⟨stats, rfl, hstats⟩ := mapFailures_eq_iff.mp hr
  unfold start
  simp only
  cases r.session.beginStart id with
  | error e => exact Procedure.agree_done ⟨rfl, hr⟩
  | ok session =>
    refine (h.agree_attachTo id).bind fun attached attached' hattached => ?_
    obtain rfl := hattached
    cases attached with
    | error e => exact Procedure.agree_done ⟨rfl, mapFailures_mk hstats⟩
    | ok sources =>
      -- A session begins with new counters, and with those there is no difference left.
      refine h.agree_call (by trivial) fun _ => ?_
      cases session.confirmStart with
      | error e => exact Procedure.agree_done ⟨rfl, rfl⟩
      | ok confirmed =>
        exact (h.agree_tell _).bind fun _ _ _ => Procedure.agree_done ⟨rfl, rfl⟩

theorem agree_pause (hr : r.mapFailures f = r'.mapFailures f) (now : Nat) :
    Procedure.Agree serve₁ serve₂ alike
      (fun x y => x.1 = y.1 ∧ x.2.mapFailures f = y.2.mapFailures f)
      (r.pause now) (r'.pause now) := by
  obtain ⟨stats, rfl, hstats⟩ := mapFailures_eq_iff.mp hr
  unfold pause
  simp only
  cases r.session.pause with
  | error e => exact Procedure.agree_done ⟨rfl, hr⟩
  | ok paused =>
    obtain ⟨id, session⟩ := paused
    refine (h.agree_detach (mapFailures_mk hstats) now).bind ?_
    exact fun r r' hr => h.agree_call (by trivial) fun _ => Procedure.agree_done ⟨rfl, hr⟩

theorem agree_resume (hr : r.mapFailures f = r'.mapFailures f) (now : Nat) :
    Procedure.Agree serve₁ serve₂ alike
      (fun x y => x.1 = y.1 ∧ x.2.mapFailures f = y.2.mapFailures f)
      (r.resume now) (r'.resume now) := by
  obtain ⟨stats, rfl, hstats⟩ := mapFailures_eq_iff.mp hr
  unfold resume
  simp only
  cases r.session.resume with
  | error e => exact Procedure.agree_done ⟨rfl, hr⟩
  | ok resumed =>
    obtain ⟨id, session⟩ := resumed
    refine (h.agree_attachTo id).bind fun attached attached' hattached => ?_
    obtain rfl := hattached
    cases attached with
    | error e => exact Procedure.agree_done ⟨rfl, hr⟩
    | ok sources =>
      refine h.agree_call (by trivial) fun _ => Procedure.agree_done ⟨rfl, ?_⟩
      exact mapFailures_mk hstats

theorem agree_stop (hr : r.mapFailures f = r'.mapFailures f) (now : Nat) :
    Procedure.Agree serve₁ serve₂ alike
      (fun x y => (RecorderReply.stopped x.1).mapFailures f =
        (RecorderReply.stopped y.1).mapFailures f ∧ x.2.mapFailures f = y.2.mapFailures f)
      (r.stop now) (r'.stop now) := by
  obtain ⟨stats, rfl, hstats⟩ := mapFailures_eq_iff.mp hr
  unfold stop
  simp only
  cases r.session.beginStop with
  | error e => exact Procedure.agree_done ⟨rfl, hr⟩
  | ok stopping =>
    obtain ⟨id, session⟩ := stopping
    refine (h.agree_detach (mapFailures_mk hstats) now).bind ?_
    intro r r' hr
    obtain ⟨stats, rfl, hstats⟩ := mapFailures_eq_iff.mp hr
    refine h.agree_call (by trivial) fun _ => h.agree_call (by trivial) fun answer => ?_
    refine (h.agree_tell _).bind fun _ _ _ => Procedure.agree_done ⟨?_, ?_⟩
    · obtain ⟨n, rfl, hfailures⟩ := SessionStats.mapFailures_eq_iff.mp hstats
      simpa [RecorderReply.mapFailures, StopReport.mapFailures] using hfailures
    · exact mapFailures_mk hstats

theorem agree_shutDown (hr : r.mapFailures f = r'.mapFailures f) (now : Nat) :
    Procedure.Agree serve₁ serve₂ alike (fun r r' => r.mapFailures f = r'.mapFailures f)
      (r.shutDown now) (r'.shutDown now) := by
  obtain ⟨stats, rfl, hstats⟩ := mapFailures_eq_iff.mp hr
  unfold shutDown
  simp only
  split
  · exact (h.agree_stop hr now).bind fun _ _ hstopped => Procedure.agree_done hstopped.2
  · exact Procedure.agree_done hr

/-- A request has the same reply, but for the number of failures. -/
theorem agree_respond (hr : r.mapFailures f = r'.mapFailures f) (now : Nat) (request : Request) :
    Procedure.Agree serve₁ serve₂ alike
      (fun x y => x.1.mapFailures f = y.1.mapFailures f ∧ x.2.mapFailures f = y.2.mapFailures f)
      (r.respond now request) (r'.respond now request) := by
  cases request with
  | start id =>
    refine (h.agree_start hr id now).bind fun x y hxy => Procedure.agree_done ⟨?_, hxy.2⟩
    rw [hxy.1]
  | pause =>
    refine (h.agree_pause hr now).bind fun x y hxy => Procedure.agree_done ⟨?_, hxy.2⟩
    rw [hxy.1]
  | resume =>
    refine (h.agree_resume hr now).bind fun x y hxy => Procedure.agree_done ⟨?_, hxy.2⟩
    rw [hxy.1]
  | stop => exact (h.agree_stop hr now).bind fun x y hxy => Procedure.agree_done hxy
  | ping =>
    refine Procedure.agree_done ⟨?_, hr⟩
    obtain ⟨stats, rfl, hstats⟩ := mapFailures_eq_iff.mp hr
    simp only [RecorderReply.mapFailures, status, hstats]
  | shutDown =>
    exact (h.agree_shutDown hr now).bind fun x y hxy => Procedure.agree_done ⟨rfl, hxy⟩

end Comparable

end Comparable

/-! ### The capture -/

theorem mapFailures_offer {r r' : Recorder} (hr : r.mapFailures f = r'.mapFailures f)
    (readings : List Reading) :
    (r.offer readings).1.mapFailures f = (r'.offer readings).1.mapFailures f ∧
      (r.offer readings).2 = (r'.offer readings).2 := by
  obtain ⟨stats, rfl, hstats⟩ := mapFailures_eq_iff.mp hr
  obtain ⟨config, session, x, capture⟩ := r
  cases capture with
  | none => exact ⟨hr, rfl⟩
  | some c => exact ⟨mapFailures_mk hstats, rfl⟩

theorem mapFailures_onPump {r r' : Recorder} (hr : r.mapFailures f = r'.mapFailures f)
    (move : Pump → Pump × List CaptureEvent) :
    (r.onPump move).mapFailures f = (r'.onPump move).mapFailures f := by
  obtain ⟨stats, rfl, hstats⟩ := mapFailures_eq_iff.mp hr
  obtain ⟨config, session, x, capture⟩ := r
  cases capture with
  | none => exact hr
  | some c => exact mapFailures_mk hstats

/-- A capture moves by itself. -/
theorem mapFailures_move {r r' : Recorder} (hr : r.mapFailures f = r'.mapFailures f) (now : Nat)
    (move : CaptureMove) :
    (r.move now move).mapFailures f = (r'.move now move).mapFailures f ∧
      r.taken move = r'.taken move := by
  cases move with
  | offer readings =>
    obtain ⟨hoffer, htaken⟩ := mapFailures_offer hr readings
    exact ⟨hoffer, by rw [taken, taken, htaken]⟩
  | take => exact ⟨mapFailures_onPump hr _, rfl⟩
  | tick => exact ⟨mapFailures_onPump hr _, rfl⟩
  | starve => exact ⟨mapFailures_onPump hr _, rfl⟩

end Recorder

/-! ### Plays in comparable worlds -/

namespace Play

variable {σ₁ σ₂ ρ₁ ρ₂ τ₁ τ₂ : Type} {e₁ : Setting σ₁ ρ₁ τ₁} {e₂ : Setting σ₂ ρ₂ τ₂}
  {alike : World σ₁ ρ₁ τ₁ → World σ₂ ρ₂ τ₂ → Prop} {same : Bool → Bool → Prop}
  {p : Play σ₁ ρ₁ τ₁} {q : Play σ₂ ρ₂ τ₂}

/-- Two plays that cannot be told apart, but for the number of failures. -/
structure Alike (f : Nat → Nat) (alike : World σ₁ ρ₁ τ₁ → World σ₂ ρ₂ τ₂ → Prop)
    (p : Play σ₁ ρ₁ τ₁) (q : Play σ₂ ρ₂ τ₂) : Prop where
  happenings : p.happenings.map (Happening.mapFailures f) =
    q.happenings.map (Happening.mapFailures f)
  recorder : p.recorder.mapFailures f = q.recorder.mapFailures f
  world : alike p.world q.world
  ended : p.ended = q.ended

/-- Plays that cannot be told apart take a step alike. -/
theorem Alike.step (h : p.Alike f alike q)
    (hcomparable : Recorder.Comparable (World.serve e₁) (World.serve e₂) alike f same)
    (hmeanwhile : ∀ w₁ w₂, alike w₁ w₂ → alike (w₁.meanwhile e₁) (w₂.meanwhile e₂))
    (x : Stimulus) : (p.step e₁ x).Alike f alike (q.step e₂ x) := by
  obtain ⟨happenings, r, w, ended⟩ := p
  obtain ⟨happenings', r', w', ended'⟩ := q
  obtain ⟨hhappenings, hr, hw, rfl⟩ := h
  have hw' := hmeanwhile _ _ hw
  have hsession : r.session = r'.session := Recorder.session_eq hr
  cases ended with
  | true =>
    -- Both have ended, and make no step.
    exact ⟨hhappenings, hr, hw, rfl⟩
  | false =>
    cases x with
    | request request now =>
      obtain ⟨⟨hreply, hr'⟩, hw'⟩ := hcomparable.agree_respond hr now request _ _ hw'
      refine ⟨?_, hr', hw', rfl⟩
      simp [step, hhappenings, Happening.mapFailures, hreply, hsession]
    | event =>
      obtain ⟨hr', hw'⟩ := hcomparable.agree_handleNext hr _ _ hw'
      refine ⟨?_, hr', hw', rfl⟩
      simp [step, hhappenings, Happening.mapFailures]
    | capture move now =>
      obtain ⟨hr', htaken⟩ := Recorder.mapFailures_move hr now move
      refine ⟨?_, hr', hw', rfl⟩
      simp [step, hhappenings, Happening.mapFailures, htaken]

/-- Plays that cannot be told apart cannot be told apart later. -/
theorem Alike.steps (h : p.Alike f alike q)
    (hcomparable : Recorder.Comparable (World.serve e₁) (World.serve e₂) alike f same)
    (hmeanwhile : ∀ w₁ w₂, alike w₁ w₂ → alike (w₁.meanwhile e₁) (w₂.meanwhile e₂))
    (stimuli : List Stimulus) : (p.steps e₁ stimuli).Alike f alike (q.steps e₂ stimuli) := by
  induction stimuli generalizing p q with
  | nil => exact h
  | cons x rest ih => exact ih (h.step hcomparable hmeanwhile x)

end Play

/-! ### Worlds that differ in their observers -/

/-- A call adds its message to those that were told, whatever it was answered. -/
theorem told_congr {calls calls' : List LoggedCall} (h : told calls = told calls')
    {c : RecorderCall} (answer answer' : RecorderAnswer c) :
    told (calls ++ [⟨c, answer⟩]) = told (calls' ++ [⟨c, answer'⟩]) := by
  have hmessage : LoggedCall.message? ⟨c, answer⟩ = LoggedCall.message? ⟨c, answer'⟩ := by
    cases c <;> rfl
  simp only [told, List.filterMap_append, List.filterMap_cons, List.filterMap_nil, hmessage]
  rw [← told, ← told, h]

theorem told_concat_store (calls : List LoggedCall) {c : StoreCall} (answer : StoreAnswer c) :
    told (calls ++ [⟨.store c, answer⟩]) = told calls := by
  simp [told, LoggedCall.message?]

/-- The calls with which measurements are looked up and moved. -/
def StoreCall.Steers : StoreCall → Prop
  | .load _ | .status _ | .setStatus _ _ => True
  | _ => False

/-- Such a call looks at the measurements, and at the rule against moving them. -/
theorem Store.serve_steering {s s' : Store} (hentries : s.entries = s'.entries)
    (hrule : s.rules.setStatus = s'.rules.setStatus) {c : StoreCall} (hc : c.Steers) :
    (Store.serve c s).1 = (Store.serve c s').1 ∧
      (Store.serve c s).2.entries = (Store.serve c s').2.entries := by
  cases c with
  | load id => exact ⟨load_congr hentries id, hentries⟩
  | status id => exact ⟨status_congr hentries id, hentries⟩
  | setStatus id target => exact setStatus_congr hentries hrule id target
  | _ => exact hc.elim

namespace World

/-- Two databases that fail alike and serve a call alike answer alike, and either both fail or both
serve it. -/
theorem askStore_alike {σ₁ σ₂ ρ₁ ρ₂ τ₁ τ₂ : Type} {e₁ : Setting σ₁ ρ₁ τ₁} {e₂ : Setting σ₂ ρ₂ τ₂}
    {w₁ : World σ₁ ρ₁ τ₁} {w₂ : World σ₂ ρ₂ τ₂} {c : StoreCall}
    (hfailure : (failure? e₁ c w₁).1 = (failure? e₂ c w₂).1)
    (hserve : (Store.serve c w₁.store).1 = (Store.serve c w₂.store).1) :
    (askStore e₁ c w₁).1 = (askStore e₂ c w₂).1 ∧
      (((askStore e₁ c w₁).2 = (failure? e₁ c w₁).2 ∧
        (askStore e₂ c w₂).2 = (failure? e₂ c w₂).2) ∨
      ((askStore e₁ c w₁).2 = { (failure? e₁ c w₁).2 with store := (Store.serve c w₁.store).2 } ∧
        (askStore e₂ c w₂).2 =
          { (failure? e₂ c w₂).2 with store := (Store.serve c w₂.store).2 })) := by
  -- Where one of them failed and the other did not, their failures would differ.
  rcases askStore_cases e₁ c w₁ with ⟨detail, hfailed, heq⟩ | ⟨hserved, heq⟩
  · rcases askStore_cases e₂ c w₂ with ⟨detail', hfailed', heq'⟩ | ⟨hserved', heq'⟩
    · rw [hfailed, hfailed'] at hfailure
      cases hfailure
      rw [heq, heq']
      exact ⟨rfl, .inl ⟨rfl, rfl⟩⟩
    · rw [hfailed, hserved'] at hfailure
      cases hfailure
  · rcases askStore_cases e₂ c w₂ with ⟨detail', hfailed', heq'⟩ | ⟨hserved', heq'⟩
    · rw [hserved, hfailed'] at hfailure
      cases hfailure
    · rw [heq, heq']
      exact ⟨hserve, .inr ⟨rfl, rfl⟩⟩

section Audience

variable {σ ρ τ₁ τ₂ : Type} {e₁ : Setting σ ρ τ₁} {e₂ : Setting σ ρ τ₂} {w₁ : World σ ρ τ₁}
  {w₂ : World σ ρ τ₂}

/-- Two worlds are the same but for their observers and what these have answered. -/
structure SameButAudience (w₁ : World σ ρ τ₁) (w₂ : World σ ρ τ₂) : Prop where
  store : w₁.store = w₂.store
  equipment : w₁.equipment = w₂.equipment
  refusals : w₁.refusals = w₂.refusals
  told : TripRecorder.told w₁.calls = TripRecorder.told w₂.calls

/-- No observer makes the database fail. -/
theorem SameButAudience.failure? (h : w₁.SameButAudience w₂)
    (hequipment : e₁.equipment = e₂.equipment) (hrefusals : e₁.refusals = e₂.refusals)
    (c : StoreCall) : (World.failure? e₁ c w₁).1 = (World.failure? e₂ c w₂).1 ∧
      (World.failure? e₁ c w₁).2.SameButAudience (World.failure? e₂ c w₂).2 := by
  obtain ⟨equipment, refusals, audience⟩ := e₁
  obtain ⟨_, _, audience'⟩ := e₂
  obtain ⟨store, calls, s, r, a⟩ := w₁
  obtain ⟨_, calls', _, _, a'⟩ := w₂
  obtain rfl : equipment = _ := hequipment
  obtain rfl : refusals = _ := hrefusals
  obtain ⟨rfl, rfl, rfl, htold⟩ := h
  cases c <;> exact ⟨rfl, rfl, rfl, rfl, htold⟩

/-- No observer answers a call of the store. -/
theorem SameButAudience.serve_store (h : w₁.SameButAudience w₂)
    (hequipment : e₁.equipment = e₂.equipment) (hrefusals : e₁.refusals = e₂.refusals)
    (c : StoreCall) : (serve e₁ (.store c) w₁).1 = (serve e₂ (.store c) w₂).1 ∧
      (serve e₁ (.store c) w₁).2.SameButAudience (serve e₂ (.store c) w₂).2 := by
  obtain ⟨hfailure, hw⟩ := h.failure? hequipment hrefusals c
  have hserve : Store.serve c w₁.store = Store.serve c w₂.store := by rw [h.store]
  obtain ⟨hanswer, hafter⟩ := askStore_alike hfailure (congrArg Prod.fst hserve)
  refine ⟨hanswer, ?_, ?_, ?_, told_congr h.told _ _⟩ <;>
    simp only [serve, answer] <;>
    rcases hafter with ⟨h₁, h₂⟩ | ⟨h₁, h₂⟩ <;> rw [h₁, h₂]
  · exact hw.store
  · exact congrArg Prod.snd hserve
  · exact hw.equipment
  · exact hw.equipment
  · exact hw.refusals
  · exact hw.refusals

/-- Worlds that differ in their observers are comparable, and the failures are the same. -/
theorem comparable_audience (hequipment : e₁.equipment = e₂.equipment)
    (hrefusals : e₁.refusals = e₂.refusals) :
    Recorder.Comparable (serve e₁) (serve e₂) SameButAudience id Eq where
  silent c w₁ w₂ hc h := by
    cases c with
    | store c => exact h.serve_store hequipment hrefusals c
    | deliver message => exact hc.elim
    | hardware c =>
      simp only [serve, answer, hequipment, h.equipment]
      exact ⟨rfl, h.store, rfl, h.refusals, told_congr h.told _ _⟩
    | acquire =>
      refine ⟨rfl, h.store, ?_, h.refusals, told_congr h.told _ _⟩
      simp only [serve, answer, hequipment, h.equipment]
    | release =>
      refine ⟨rfl, h.store, ?_, h.refusals, told_congr h.told _ _⟩
      simp only [serve, answer, hequipment, h.equipment]
  deliver message w₁ w₂ h := ⟨h.store, h.equipment, h.refusals, told_congr h.told _ _⟩
  save batchLimit id points := (Recorder.asks_save_store batchLimit id points).agree (by
    rintro _ w₁ w₂ ⟨c, rfl⟩ h
    exact h.serve_store hequipment hrefusals c)
  count m n saved saved' hfailures hsaved := by
    obtain rfl : m = n := hfailures
    rw [hsaved]

end Audience

/-! ### Worlds that differ in refused rows -/

section Rows

variable {σ ρ₁ ρ₂ τ : Type} {e₁ : Setting σ ρ₁ τ} {e₂ : Setting σ ρ₂ τ} {w₁ : World σ ρ₁ τ}
  {w₂ : World σ ρ₂ τ}

/-- Two worlds are the same but for the rows, and for which rows the database refuses. -/
structure SameButRows (w₁ : World σ ρ₁ τ) (w₂ : World σ ρ₂ τ) : Prop where
  entries : w₁.store.entries = w₂.store.entries
  rule : w₁.store.rules.setStatus = w₂.store.rules.setStatus
  equipment : w₁.equipment = w₂.equipment
  audience : w₁.audience = w₂.audience
  told : TripRecorder.told w₁.calls = TripRecorder.told w₂.calls

/-- An insertion changes rows at most. -/
theorem serve_insert {ρ : Type} (e : Setting σ ρ τ) (w : World σ ρ τ) (id : MeasurementId)
    (points : List Point) :
    (serve e (.store (.insert id points)) w).2.store.entries = w.store.entries ∧
      (serve e (.store (.insert id points)) w).2.store.rules = w.store.rules ∧
      (serve e (.store (.insert id points)) w).2.equipment = w.equipment ∧
      (serve e (.store (.insert id points)) w).2.audience = w.audience ∧
      told (serve e (.store (.insert id points)) w).2.calls = told w.calls := by
  have hanswers := answers_askStore (e := e) (w := w) (.insert id points)
  refine ⟨?_, hanswers.rules_eq, ?_, ?_, told_concat_store _ _⟩
  · rcases hanswers.of_insert with ⟨detail, -, hsame⟩ | ⟨-, hentries, -⟩
    · exact congrArg Store.entries hsame
    · exact hentries
  all_goals
    simp only [serve, answer]
    rcases askStore_cases e (.insert id points) w with ⟨detail, -, heq⟩ | ⟨-, heq⟩ <;> rw [heq] <;>
      rfl

theorem SameButRows.insert_left (h : w₁.SameButRows w₂) (id : MeasurementId)
    (points : List Point) : (serve e₁ (.store (.insert id points)) w₁).2.SameButRows w₂ := by
  obtain ⟨hentries, hrules, hequipment, haudience, htold⟩ := serve_insert e₁ w₁ id points
  exact ⟨hentries.trans h.entries, (congrArg Rules.setStatus hrules).trans h.rule,
    hequipment.trans h.equipment, haudience.trans h.audience, htold.trans h.told⟩

theorem SameButRows.insert_right (h : w₁.SameButRows w₂) (id : MeasurementId)
    (points : List Point) : w₁.SameButRows (serve e₂ (.store (.insert id points)) w₂).2 := by
  obtain ⟨hentries, hrules, hequipment, haudience, htold⟩ := serve_insert e₂ w₂ id points
  exact ⟨h.entries.trans hentries.symm, h.rule.trans (congrArg Rules.setStatus hrules).symm,
    h.equipment.trans hequipment.symm, h.audience.trans haudience.symm,
    h.told.trans htold.symm⟩

/-- No refused row makes the database fail at a call that inserts nothing. -/
theorem SameButRows.failure? (h : w₁.SameButRows w₂)
    (hequipment : e₁.equipment = e₂.equipment) {c : StoreCall} (hc : c.Steers) :
    (World.failure? e₁ c w₁).1 = (World.failure? e₂ c w₂).1 ∧
      (World.failure? e₁ c w₁).2.SameButRows (World.failure? e₂ c w₂).2 := by
  cases c with
  | load id | status id | setStatus id target =>
    simp only [World.failure?, hequipment, h.equipment]
    exact ⟨trivial, h.entries, h.rule, rfl, h.audience, h.told⟩
  | _ => exact hc.elim

/-- No row decides how measurements are looked up and moved. -/
theorem SameButRows.serve_store (h : w₁.SameButRows w₂)
    (hequipment : e₁.equipment = e₂.equipment) {c : StoreCall} (hc : c.Steers) :
    (serve e₁ (.store c) w₁).1 = (serve e₂ (.store c) w₂).1 ∧
      (serve e₁ (.store c) w₁).2.SameButRows (serve e₂ (.store c) w₂).2 := by
  obtain ⟨hfailure, hw⟩ := h.failure? hequipment hc
  obtain ⟨hserve, hentries⟩ := Store.serve_steering h.entries h.rule hc
  obtain ⟨hanswer, hafter⟩ := askStore_alike hfailure hserve
  have hrules {ρ : Type} (e : Setting σ ρ τ) (w : World σ ρ τ) :
      (askStore e c w).2.store.rules = w.store.rules := (answers_askStore c).rules_eq
  refine ⟨hanswer, ?_, ?_, ?_, ?_, told_congr h.told _ _⟩
  · rcases hafter with ⟨h₁, h₂⟩ | ⟨h₁, h₂⟩ <;> simp only [serve, answer] <;> rw [h₁, h₂]
    · exact hw.entries
    · exact hentries
  · exact (congrArg Rules.setStatus (hrules e₁ w₁)).trans
      (h.rule.trans (congrArg Rules.setStatus (hrules e₂ w₂)).symm)
  · rcases hafter with ⟨h₁, h₂⟩ | ⟨h₁, h₂⟩ <;> simp only [serve, answer] <;> rw [h₁, h₂]
    · exact hw.equipment
    · exact hw.equipment
  · rcases hafter with ⟨h₁, h₂⟩ | ⟨h₁, h₂⟩ <;> simp only [serve, answer] <;> rw [h₁, h₂]
    · exact hw.audience
    · exact hw.audience

/-- A recorder writes batches with insertions only. -/
theorem asks_writeBatches_store (id : MeasurementId) (done : AppendReport)
    (batches : List (List Point)) :
    ((writeBatches id done batches).mapCalls RecorderCall.store fun _ answer => answer :
      Recording (Except StoreError AppendReport)).Asks
        fun c => ∃ batch, c = .store (.insert id batch) := by
  refine (asks_writeBatches id done batches).mapCalls ?_
  rintro _ ⟨batch, rfl⟩
  exact ⟨batch, rfl⟩

/-- An append looks at the measurement alike. After that it may write other batches, and answer
something else. -/
theorem agree_appendPoints (hequipment : e₁.equipment = e₂.equipment) (batchLimit : Nat)
    (id : MeasurementId) (points : List Point) :
    Procedure.Agree (serve e₁) (serve e₂) SameButRows (fun _ _ => True)
      ((appendPoints batchLimit id points).mapCalls RecorderCall.store fun _ answer => answer)
      ((appendPoints batchLimit id points).mapCalls RecorderCall.store fun _ answer => answer) := by
  unfold appendPoints
  split
  · exact Procedure.agree_done trivial
  · refine Procedure.Agree.call
      (fun w₁ w₂ h => h.serve_store (c := .status id) hequipment trivial) fun answer => ?_
    cases answer with
    | error e => exact Procedure.agree_done trivial
    | ok status =>
      simp only
      split
      · -- From here on the two may insert different batches, and each of them changes rows only.
        have hasks := asks_writeBatches_store id ⟨0, 0⟩ (inChunks batchLimit points)
        refine hasks.agree_apart hasks ?_ ?_
        · rintro _ w₁ w₂ ⟨batch, rfl⟩ h
          exact h.insert_left id batch
        · rintro _ w₁ w₂ ⟨batch, rfl⟩ h
          exact h.insert_right id batch
      · exact Procedure.agree_done trivial

/-- Worlds that differ in refused rows are comparable, whatever the numbers of failures are. -/
theorem comparable_rows (hequipment : e₁.equipment = e₂.equipment)
    (haudience : e₁.audience = e₂.audience) :
    Recorder.Comparable (serve e₁) (serve e₂) SameButRows (fun _ => 0) (fun _ _ => True) where
  silent c w₁ w₂ hc h := by
    cases c with
    | store c =>
      cases c with
      | load id => exact h.serve_store hequipment trivial
      | setStatus id target => exact h.serve_store hequipment trivial
      | _ => exact hc.elim
    | deliver message => exact hc.elim
    | hardware c =>
      simp only [serve, answer, hequipment, h.equipment]
      exact ⟨rfl, h.entries, h.rule, rfl, h.audience, told_congr h.told _ _⟩
    | acquire =>
      refine ⟨rfl, h.entries, h.rule, ?_, h.audience, told_congr h.told _ _⟩
      simp only [serve, answer, hequipment, h.equipment]
    | release =>
      refine ⟨rfl, h.entries, h.rule, ?_, h.audience, told_congr h.told _ _⟩
      simp only [serve, answer, hequipment, h.equipment]
  deliver message w₁ w₂ h := by
    refine ⟨h.entries, h.rule, h.equipment, ?_, told_congr h.told _ _⟩
    simp only [serve, answer, haudience, h.audience]
  save batchLimit id points := by
    refine (agree_appendPoints hequipment batchLimit id points).bind fun result result' _ => ?_
    cases result <;> cases result' <;> exact Procedure.agree_done trivial
  count _ _ _ _ _ _ := rfl

end Rows

end World

/-! ### Independence -/

namespace Play

/-- A store whose rules against rows are others. -/
def refusing (store : Store) (insert : Point → Option String) : Store :=
  { store with rules := { store.rules with insert := insert } }

/-- Two services that are asked the same things at the same times, and whose captures move alike.

If their worlds differ in the observers only, then everything else is the same at all times: what
happens, the state of the recorder with its counters, the store, and the messages that are told.

If their worlds differ in the rows that the database refuses only, then what happens and the state
of the recorder are the same but for the number of failures, and the messages that are told and the
statuses of all measurements are the same. -/
theorem independent {σ : Type} (config : RecorderConfig) (store : Store)
    (equipment : Equipment σ) (s : σ) (stimuli : List Stimulus) :
    (∀ {ρ τ₁ τ₂ : Type} (refusals : Refusals ρ) (r : ρ) (audience₁ : Audience τ₁) (a₁ : τ₁)
      (audience₂ : Audience τ₂) (a₂ : τ₂),
      let p := (start config store s r a₁).steps ⟨equipment, refusals, audience₁⟩ stimuli
      let q := (start config store s r a₂).steps ⟨equipment, refusals, audience₂⟩ stimuli
      p.happenings = q.happenings ∧ p.recorder = q.recorder ∧ p.ended = q.ended ∧
        p.world.store = q.world.store ∧ told p.world.calls = told q.world.calls) ∧
    ∀ {ρ₁ ρ₂ τ : Type} (audience : Audience τ) (a : τ) (refusals₁ : Refusals ρ₁) (r₁ : ρ₁)
      (insert₁ : Point → Option String) (refusals₂ : Refusals ρ₂) (r₂ : ρ₂)
      (insert₂ : Point → Option String),
      let p := (start config (refusing store insert₁) s r₁ a).steps
        ⟨equipment, refusals₁, audience⟩ stimuli
      let q := (start config (refusing store insert₂) s r₂ a).steps
        ⟨equipment, refusals₂, audience⟩ stimuli
      p.happenings.map (Happening.mapFailures fun _ => 0) =
          q.happenings.map (Happening.mapFailures fun _ => 0) ∧
        p.recorder.mapFailures (fun _ => 0) = q.recorder.mapFailures (fun _ => 0) ∧
        p.ended = q.ended ∧ (∀ id, p.world.store.status id = q.world.store.status id) ∧
        told p.world.calls = told q.world.calls := by
  constructor
  · intro ρ τ₁ τ₂ refusals r audience₁ a₁ audience₂ a₂
    have hstart : (start config store s r a₁).Alike id World.SameButAudience
        (start config store s r a₂) :=
      ⟨rfl, rfl, ⟨rfl, rfl, rfl, rfl⟩, rfl⟩
    have hcomparable : Recorder.Comparable (World.serve ⟨equipment, refusals, audience₁⟩)
        (World.serve ⟨equipment, refusals, audience₂⟩) World.SameButAudience id Eq :=
      World.comparable_audience rfl rfl
    obtain ⟨hhappenings, hrecorder, hworld, hended⟩ := hstart.steps hcomparable
      (fun _ _ h => ⟨h.store, h.equipment, h.refusals, h.told⟩) stimuli
    rw [Happening.mapFailures_id, List.map_id, List.map_id] at hhappenings
    exact ⟨hhappenings, hrecorder, hended, hworld.store, hworld.told⟩
  · intro ρ₁ ρ₂ τ audience a refusals₁ r₁ insert₁ refusals₂ r₂ insert₂
    have hstart : (start config (refusing store insert₁) s r₁ a).Alike (fun _ => 0)
        World.SameButRows (start config (refusing store insert₂) s r₂ a) :=
      ⟨rfl, rfl, ⟨rfl, rfl, rfl, rfl, rfl⟩, rfl⟩
    have hcomparable : Recorder.Comparable (World.serve ⟨equipment, refusals₁, audience⟩)
        (World.serve ⟨equipment, refusals₂, audience⟩) World.SameButRows (fun _ => 0)
        (fun _ _ => True) :=
      World.comparable_rows rfl rfl
    obtain ⟨hhappenings, hrecorder, hworld, hended⟩ := hstart.steps hcomparable
      (fun _ _ h => ⟨h.entries, h.rule, h.equipment, congrArg audience.meanwhile h.audience,
        h.told⟩) stimuli
    exact ⟨hhappenings, hrecorder, hended, Store.status_congr hworld.entries, hworld.told⟩

end Play

end TripRecorder
