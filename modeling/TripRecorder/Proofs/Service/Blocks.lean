import TripRecorder.Proofs.Service.Phases

/-!
# Blocks of messages

All that is told of a session stands in one block: the start, the messages about what was captured,
and the stop, which says whether the measurement could be finished. A service ends when it is asked
to, or when nobody is left to ask it for anything; both are the same step, and it may be cut short
at any call as well.

## Main definitions

* `Block` — the messages about a session from the start to the stop
* `InBlocks` — messages in blocks, of which the last may still be open
* `closings` — the status updates with which sessions are closed
* `Service.Interrupted` — a service in the middle of a step

## Main results

* `Service.Step.inBlocks` — what a step adds to the blocks
* `Service.Run.told_in_blocks` — after any run, whether it is cut or not, all that was told stands
  in blocks
-/

namespace TripRecorder

/-- A message that stands inside a block. -/
def Message.Inner (m : Message) : Prop := m.kind ≠ .captureStarted ∧ m.kind ≠ .captureStopped

/-- The messages about a session that was closed. -/
structure Block where
  id : MeasurementId
  body : List Message
  /-- The measurement was finished. -/
  success : Bool
  inner : ∀ m ∈ body, m.Inner

namespace Block

/-- The messages of a block in the order in which they are told. -/
def messages (b : Block) : List Message := .started b.id :: (b.body ++ [.stopped b.id b.success])

/-- The measurement of a block, and whether it was finished. -/
def closing (b : Block) : MeasurementId × Bool := (b.id, b.success)

end Block

/-- The messages of a block that is not closed yet, if there is one. -/
def Opened : Option MeasurementId → List Message → Prop
  | none, messages => messages = []
  | some id, messages => ∃ body, (∀ m ∈ body, m.Inner) ∧ messages = .started id :: body

/-- The measurement that a call finishes, and whether it succeeds. -/
def LoggedCall.closing? : LoggedCall → Option (MeasurementId × Bool)
  | ⟨.store (.setStatus id .finished), answer⟩ =>
    some (id, (answer : Except StoreError Unit).isOk)
  | _ => none

/-- The measurements that were to be finished, and whether they were. -/
def closings (calls : List LoggedCall) : List (MeasurementId × Bool) :=
  calls.filterMap LoggedCall.closing?

/-- The measurement of a start that was accepted. -/
def Happening.started? : Happening → Option MeasurementId
  | handled _ (.start id) (.finished (.ok ())) => some id
  | _ => none

/-- A resume, or a request to stop, that was accepted. -/
def Happening.endsPause : Happening → Bool
  | handled _ request reply => (request = .resume || request.stops) && reply.error?.isNone
  | _ => false

/-- Messages stand in blocks. There is one for each start, and all are closed but the one of the
measurement that is being recorded. They are closed as the status updates say. -/
def InBlocks (measurement : Option MeasurementId) (starts : List MeasurementId)
    (messages : List Message) (updates : List (MeasurementId × Bool)) : Prop :=
  ∃ (blocks : List Block) (rest : List Message),
    messages = blocks.flatMap Block.messages ++ rest ∧ Opened measurement rest ∧
      starts = blocks.map Block.id ++ measurement.toList ∧ updates = blocks.map Block.closing

namespace InBlocks

variable {id : MeasurementId} {measurement : Option MeasurementId} {starts : List MeasurementId}
  {messages body : List Message} {updates : List (MeasurementId × Bool)}

theorem nil : InBlocks none [] [] [] := ⟨[], [], rfl, rfl, rfl, rfl⟩

/-- A session begins: a block is opened. -/
theorem start (h : InBlocks none starts messages updates) (id : MeasurementId) :
    InBlocks (some id) (starts ++ [id]) (messages ++ [.started id]) updates := by
  obtain ⟨blocks, rest, rfl, rfl, rfl, rfl⟩ := h
  exact ⟨blocks, [.started id], by rw [List.append_nil], ⟨[], List.forall_mem_nil _, rfl⟩,
    by rw [Option.toList_none, List.append_nil, Option.toList_some], rfl⟩

/-- A session goes on: the block stays open. -/
theorem goOn (h : InBlocks (some id) starts messages updates) (hbody : ∀ m ∈ body, m.Inner) :
    InBlocks (some id) starts (messages ++ body) updates := by
  obtain ⟨blocks, rest, rfl, ⟨earlier, hearlier, rfl⟩, rfl, rfl⟩ := h
  refine ⟨blocks, .started id :: (earlier ++ body), by simp, ⟨earlier ++ body, ?_, rfl⟩, rfl, rfl⟩
  intro m hm
  exact (List.mem_append.mp hm).elim (hearlier m) (hbody m)

/-- A session ends: the block is closed. -/
theorem stop (h : InBlocks (some id) starts messages updates) (success : Bool) :
    InBlocks none starts (messages ++ [.stopped id success]) (updates ++ [(id, success)]) := by
  obtain ⟨blocks, rest, rfl, ⟨body, hbody, rfl⟩, rfl, rfl⟩ := h
  exact ⟨blocks ++ [⟨id, body, success, hbody⟩], [], by simp [Block.messages], rfl, by simp,
    by simp [Block.closing]⟩

/-- Whatever is told is the beginning of some blocks. -/
theorem exists_prefix (h : InBlocks measurement starts messages updates) :
    ∃ blocks : List Block, messages <+: blocks.flatMap Block.messages := by
  obtain ⟨blocks, rest, rfl, hrest, -, -⟩ := h
  cases measurement with
  | none =>
    obtain rfl : rest = [] := hrest
    rw [List.append_nil]
    exact ⟨blocks, List.prefix_refl _⟩
  | some id =>
    -- The open block could be closed in either way.
    obtain ⟨body, hbody, rfl⟩ := hrest
    refine ⟨blocks ++ [⟨id, body, false, hbody⟩], [.stopped id false], ?_⟩
    simp [Block.messages]

end InBlocks

/-! ### Procedures inside a block -/

namespace Logged

variable {w w' : Logged}

theorem closings_call {c : RecorderCall} {answer : RecorderAnswer c} (h : Acts c w answer w')
    (hnone : LoggedCall.closing? ⟨c, answer⟩ = none) : closings w'.calls = closings w.calls := by
  rw [h.2, closings, List.filterMap_append, List.filterMap_cons_none hnone]
  exact List.append_nil _

theorem closings_finish {id : MeasurementId} {answer : Except StoreError Unit}
    (h : Acts (.store (.setStatus id .finished)) w answer w') :
    closings w'.calls = closings w.calls ++ [(id, answer.isOk)] := by
  rw [h.2, closings, List.filterMap_append]
  rfl

/-- Calls none of which finishes a measurement. -/
theorem closings_of_asks {kind : RecorderCall → Prop} {α : Type} {p : Recording α} {a : α}
    (h : p.Ends Acts w a w') (hp : p.Asks kind)
    (hkind : ∀ c answer, kind c → LoggedCall.closing? ⟨c, answer⟩ = none) :
    closings w'.calls = closings w.calls := by
  have hkeeps : ∀ c w answer w', kind c → Acts c w answer w' →
      closings w'.calls = closings w.calls :=
    fun c _ answer _ hc hcall => closings_call hcall (hkind c answer hc)
  refine h.of_asks hp ?_ ?_ hkeeps
  · exact fun _ => rfl
  · exact fun hfirst hsecond => hsecond.trans hfirst

end Logged

namespace RecorderCall

variable {c : RecorderCall}

theorem Recording.closing?_eq_none (h : c.Recording) (answer : RecorderAnswer c) :
    LoggedCall.closing? ⟨c, answer⟩ = none := by
  cases c with
  | store c =>
    cases c with
    | status i => rfl
    | insert i points => rfl
    | _ => exact h.elim
  | hardware c => rfl
  | deliver message => rfl
  | _ => exact h.elim

theorem Attaching.closing?_eq_none (h : c.Attaching) (answer : RecorderAnswer c) :
    LoggedCall.closing? ⟨c, answer⟩ = none := by
  cases c with
  | store c =>
    cases c with
    | load i => rfl
    | _ => exact h.elim
  | hardware c => rfl
  | _ => exact h.elim

end RecorderCall

namespace Recorder

variable {r r' : Recorder} {w w' : Logged} {id : MeasurementId} {starts : List MeasurementId}
  {now : Nat}

/-- The messages of a recorder and its store stand in blocks. -/
def InBlocks (starts : List MeasurementId) (r : Recorder) (w : Logged) : Prop :=
  TripRecorder.InBlocks r.session.measurement starts (told w.calls) (closings w.calls)

theorem told_closings_attachTo {attached : Except CaptureError Nat}
    (h : (attachTo id).run.Ends Logged.Acts w attached w') :
    told w'.calls = told w.calls ∧ closings w'.calls = closings w.calls :=
  ⟨told_eq_attachTo h, Logged.closings_of_asks h (asks_attachTo id)
    fun _ answer hc => hc.closing?_eq_none answer⟩

/-- While a capture is detached, its last events are told. -/
theorem told_closings_detach (hid : r.session.measurement = some id)
    (h : (r.detach now).Ends Logged.Acts w r' w') :
    (∃ body, (∀ m ∈ body, m.Inner) ∧ told w'.calls = told w.calls ++ body) ∧
      closings w'.calls = closings w.calls := by
  have hclosings := Logged.closings_of_asks h (asks_detach r now)
    fun _ answer hc => hc.closing?_eq_none answer
  refine ⟨?_, hclosings⟩
  cases hc : r.capture with
  | none =>
    rcases ends_detach h with ⟨-, -, rfl⟩ | ⟨c, _, hc', -, -⟩
    · exact ⟨[], List.forall_mem_nil _, (List.append_nil _).symm⟩
    · rw [hc] at hc'
      cases hc'
  | some c => exact ⟨_, fun _ => kind_of_mem_messages, (told_detach hc hid h).told_eq⟩

theorem inBlocks_start {before : SessionState} {result : Except CaptureError Unit}
    (hr : r.session.Settled) (hblocks : r.InBlocks starts w)
    (h : (r.start id now).Ends Logged.Acts w (result, r') w') :
    r'.InBlocks (starts ++
      (Happening.handled before (.start id) (.finished result)).started?.toList) w' := by
  rcases ends_start h with ⟨-, rfl, rfl, rfl⟩ | ⟨hidle, attached, w₁, hattach, hrest⟩
  · rw [show Happening.started? _ = none from rfl, Option.toList_none, List.append_nil]
    exact hblocks
  · have hsession : r.session = Session.idle := by
      rcases hr with hsession | ⟨id', hsession | hsession⟩
      · exact hsession
      · rw [hsession] at hidle
        cases hidle
      · rw [hsession] at hidle
        cases hidle
    obtain ⟨htold, hclosings⟩ := told_closings_attachTo hattach
    rw [InBlocks, hsession] at hblocks
    rcases hrest with ⟨e, -, rfl, rfl, rfl⟩ | ⟨sources, w₂, told', -, hacquire, hdeliver, rfl, rfl⟩
    · rw [InBlocks, htold, hclosings]
      rw [show Happening.started? _ = none from rfl, Option.toList_none, List.append_nil]
      exact hblocks
    · have hfirst : told w'.calls = told w.calls ++ [.started id] := by
        rw [Logged.told_eq_deliver hdeliver, Logged.told_eq_of_silent hacquire trivial, htold]
      have hnone : closings w'.calls = closings w.calls := by
        rw [Logged.closings_call hdeliver rfl, Logged.closings_call hacquire rfl, hclosings]
      rw [InBlocks, hfirst, hnone]
      exact hblocks.start id

theorem inBlocks_pause {result : Except CaptureError Unit} (hblocks : r.InBlocks starts w)
    (h : (r.pause now).Ends Logged.Acts w (result, r') w') : r'.InBlocks starts w' := by
  rcases ends_pause h with ⟨-, rfl, rfl, rfl⟩ | ⟨id, w₁, hsession, hdetach, hrelease, -⟩
  · exact hblocks
  · obtain ⟨⟨body, hbody, htold⟩, hclosings⟩ :=
      told_closings_detach (r := { r with session := ⟨.paused, some id⟩ }) rfl hdetach
    obtain ⟨stats, rfl⟩ := ends_detach_stats hdetach
    have hall : told w'.calls = told w.calls ++ body := by
      rw [Logged.told_eq_of_silent hrelease trivial, htold]
    have hnone : closings w'.calls = closings w.calls := by
      rw [Logged.closings_call hrelease rfl, hclosings]
    rw [InBlocks, hsession] at hblocks
    rw [InBlocks, hall, hnone]
    exact hblocks.goOn hbody

theorem inBlocks_resume {result : Except CaptureError Unit} (hblocks : r.InBlocks starts w)
    (h : (r.resume now).Ends Logged.Acts w (result, r') w') : r'.InBlocks starts w' := by
  rcases ends_resume h with ⟨-, rfl, rfl, rfl⟩ | ⟨id, attached, w₁, hsession, hattach, hrest⟩
  · exact hblocks
  · obtain ⟨htold, hclosings⟩ := told_closings_attachTo hattach
    rcases hrest with ⟨e, -, -, rfl, rfl⟩ | ⟨sources, -, hacquire, -, rfl⟩
    · rw [InBlocks, htold, hclosings]
      exact hblocks
    · have hall : told w'.calls = told w.calls := by
        rw [Logged.told_eq_of_silent hacquire trivial, htold]
      have hnone : closings w'.calls = closings w.calls := by
        rw [Logged.closings_call hacquire rfl, hclosings]
      rw [InBlocks, hsession] at hblocks
      rw [InBlocks, hall, hnone]
      exact hblocks

/-- A stop closes the block of its session, and tells how its own status update ended. -/
theorem inBlocks_stop {result : Except CaptureError StopReport} (hblocks : r.InBlocks starts w)
    (h : (r.stop now).Ends Logged.Acts w (result, r') w') : r'.InBlocks starts w' := by
  rcases ends_stop h with ⟨-, -, rfl, rfl⟩ |
    ⟨id, stats, w₁, w₂, w₃, answer, told', hid, -, hdetach, hrelease, hfinish, hdeliver, -, rfl⟩
  · exact hblocks
  · obtain ⟨⟨body, hbody, htold⟩, hclosings⟩ :=
      told_closings_detach (r := { r with session := ⟨.stopping, some id⟩ }) rfl hdetach
    -- The last events come before the end of the block, which tells how the update was answered.
    have hall : told w'.calls = told w.calls ++ body ++ [.stopped id answer.isOk] := by
      rw [Logged.told_eq_deliver hdeliver, Logged.told_eq_of_silent hfinish trivial,
        Logged.told_eq_of_silent hrelease trivial, htold]
    have hupdate : closings w'.calls = closings w.calls ++ [(id, answer.isOk)] := by
      rw [Logged.closings_call hdeliver rfl, Logged.closings_finish hfinish,
        Logged.closings_call hrelease rfl, hclosings]
    rw [InBlocks, hid] at hblocks
    rw [InBlocks, hall, hupdate]
    exact (hblocks.goOn hbody).stop answer.isOk

theorem inBlocks_handleNext (hblocks : r.InBlocks starts w)
    (h : r.handleNext.Ends Logged.Acts w r' w') : r'.InBlocks starts w' := by
  have hclosings := Logged.closings_of_asks h (asks_handleNext r)
    fun _ answer hc => hc.recording.closing?_eq_none answer
  have hsession := session_handleNext h
  rw [InBlocks, hsession, hclosings]
  unfold handleNext at h
  split at h
  · obtain ⟨-, rfl⟩ := Procedure.ends_done_iff.mp h
    exact hblocks
  · rename_i event rest hpending
    rcases ends_handle h with ⟨-, -, rfl⟩ | ⟨id, stats, hid, hfor, -⟩
    · exact hblocks
    · have hid' : r.session.measurement = some id := hid
      have htold := (told_handleFor hfor).told_eq
      rw [InBlocks, hid'] at hblocks
      rw [hid', htold]
      refine hblocks.goOn fun m hm => ?_
      have hmessage : m ∈ [event].flatMap (CaptureEvent.messages r.config.chunkSize) := by
        rw [List.flatMap_singleton]
        exact hm
      exact kind_of_mem_messages hmessage

end Recorder

/-! ### Runs -/

namespace Service

variable {s s' : Service} {happening : Happening} {happenings : List Happening}
  {starts : List MeasurementId} {w : Logged}

/-- What a step adds to the blocks. -/
theorem Step.inBlocks (h : Step s happening s') (hs : s.recorder.session.Settled)
    (hblocks : s.recorder.InBlocks starts s.world) :
    s'.recorder.InBlocks (starts ++ happening.started?.toList) s'.world := by
  cases h with
  | @request r w reply r' w' request now h =>
    have hrespond := Recorder.ends_respond h
    cases request with
    | start id =>
      obtain ⟨result, rfl, hstart⟩ := hrespond
      exact Recorder.inBlocks_start hs hblocks hstart
    | pause =>
      obtain ⟨result, rfl, hpause⟩ := hrespond
      exact (List.append_nil starts).symm ▸ Recorder.inBlocks_pause hblocks hpause
    | resume =>
      obtain ⟨result, rfl, hresume⟩ := hrespond
      exact (List.append_nil starts).symm ▸ Recorder.inBlocks_resume hblocks hresume
    | stop =>
      obtain ⟨result, rfl, hstop⟩ := hrespond
      exact (List.append_nil starts).symm ▸ Recorder.inBlocks_stop hblocks hstop
    | ping =>
      obtain ⟨rfl, rfl, rfl⟩ := hrespond
      exact (List.append_nil starts).symm ▸ hblocks
    | shutDown =>
      obtain ⟨rfl, hshutDown⟩ := hrespond
      refine (List.append_nil starts).symm ▸ ?_
      rcases Recorder.ends_shutDown hshutDown with ⟨-, rfl, rfl⟩ | ⟨-, result, hstop⟩
      · exact hblocks
      · exact Recorder.inBlocks_stop hblocks hstop
  | event h => exact (List.append_nil starts).symm ▸ Recorder.inBlocks_handleNext hblocks h
  | @capture r w move now =>
    have hsame : (r.move now move).InBlocks starts w := by
      rw [Recorder.InBlocks, Recorder.session_move]
      exact hblocks
    exact (List.append_nil starts).symm ▸ hsame

theorem Run.inBlocks {config : RecorderConfig} {store : Store}
    (h : Run (fresh config store) happenings s) :
    s.recorder.InBlocks (happenings.filterMap Happening.started?) s.world := by
  generalize hfresh : fresh config store = first at h
  induction h with
  | nil =>
    subst hfresh
    exact InBlocks.nil
  | @snoc happenings s₁ happening s₂ hrun hstep ih =>
    subst hfresh
    have hblocks := hstep.inBlocks (hrun.settled (settled_fresh config store)) ih
    rw [List.filterMap_append]
    cases hstarted : happening.started? with
    | none =>
      rw [hstarted] at hblocks
      rw [List.filterMap_cons_none hstarted]
      exact hblocks
    | some id =>
      rw [hstarted] at hblocks
      rw [List.filterMap_cons_some hstarted]
      exact hblocks

/-! ### The end of a service -/

/-- A service in the middle of a step: some calls of the step were made. -/
inductive Interrupted : Service → Logged → Prop where
  | request {r w w'} (request : Request) (now : Nat) :
      (r.respond now request).Begins Logged.Acts w w' → Interrupted ⟨r, w, false⟩ w'
  | event {r w w'} : r.handleNext.Begins Logged.Acts w w' → Interrupted ⟨r, w, false⟩ w'

/-- A step that is cut could have gone on. -/
theorem Interrupted.exists_step (h : s.Interrupted w) :
    ∃ happening s', Step s happening s' ∧ w.calls <+: s'.world.calls := by
  have htotal : ∀ c w, ∃ answer w', Logged.Acts c w answer w' :=
    fun c w => ⟨_, _, Logged.acts_serve c w⟩
  cases h with
  | request request now h =>
    obtain ⟨rest, ⟨reply, r'⟩, w'', hends, hrest⟩ := h.exists_ends htotal
    exact ⟨_, _, .request request now hends, Logged.calls_prefix hrest⟩
  | event h =>
    obtain ⟨rest, r', w'', hends, hrest⟩ := h.exists_ends htotal
    exact ⟨_, _, .event hends, Logged.calls_prefix hrest⟩

/-- A service that has ended has no session. -/
theorem Step.session_eq_idle {p : Phase} (h : Step s happening s')
    (hp : p.Holds s.recorder s.world) (hended : s'.ended = true) :
    s'.recorder.session = Session.idle := by
  cases h with
  | request request now h =>
    obtain rfl := of_decide_eq_true hended
    obtain ⟨rfl, -⟩ := Recorder.ends_respond h
    have hfits : p.after? .shutDown = some .idle := by cases p <;> rfl
    exact (Recorder.turn_respond hp h).answered.session_eq _ rfl hfits
  | event h => cases hended
  | capture move now => cases hended

theorem Run.session_eq_idle {config : RecorderConfig} {store : Store}
    (h : Run (fresh config store) happenings s) (hended : s.ended = true) :
    s.recorder.session = Session.idle := by
  cases h with
  | nil => rfl
  | snoc hrun hstep =>
    obtain ⟨⟨p, hp⟩, -⟩ := hrun.holds
    exact hstep.session_eq_idle hp hended

/-! ### Pauses -/

/-- A session stays paused, and nothing is told, until it is resumed or stopped. -/
theorem Step.quiet {id : MeasurementId} (h : Step s happening s')
    (hp : (Phase.paused id).Holds s.recorder s.world) (hstays : happening.endsPause = false) :
    (Phase.paused id).Holds s'.recorder s'.world ∧
      told s'.world.calls = told s.world.calls := by
  have hnone := hp.capture_eq_none nofun
  cases h with
  | @request r w reply r' w' request now h =>
    have hturn := Recorder.turn_respond hp h
    by_cases haccepted : reply.error? = none
    · -- Of the requests that fit a paused session, only a ping does not end the pause.
      obtain ⟨hfits, -, -⟩ := hturn.answered.accepted_iff.mp haccepted
      cases request with
      | ping =>
        obtain ⟨-, rfl, rfl⟩ := Recorder.ends_respond h
        exact ⟨hp, rfl⟩
      | start id => cases hfits
      | pause => cases hfits
      | _ => simp [Happening.endsPause, Request.stops, haccepted] at hstays
    · obtain ⟨rfl, -, -, htold⟩ := hturn.answered.unchanged haccepted
      obtain ⟨p', hp'⟩ := hturn.holds
      obtain rfl : p' = .paused id :=
        Phase.session_injective (hp'.session_eq.symm.trans hp.session_eq)
      exact ⟨hp', htold⟩
  | @event r w r' w' h =>
    -- Without a capture no events wait.
    have hpending : r.pending = [] := by rw [Recorder.pending, hnone]
    rw [Recorder.handleNext, hpending] at h
    obtain ⟨rfl, rfl⟩ := Procedure.ends_done_iff.mp h
    exact ⟨hp, rfl⟩
  | @capture r w move now =>
    exact ⟨Recorder.holds_of_sources hp (Recorder.session_move r now move)
      (Recorder.sources_move r now move) rfl, rfl⟩

theorem Run.quiet {id : MeasurementId} (h : Run s happenings s')
    (hp : (Phase.paused id).Holds s.recorder s.world)
    (hstays : ∀ h ∈ happenings, h.endsPause = false) :
    (Phase.paused id).Holds s'.recorder s'.world ∧
      told s'.world.calls = told s.world.calls := by
  induction h with
  | nil => exact ⟨hp, rfl⟩
  | snoc _ hstep ih =>
    obtain ⟨hpaused, htold⟩ := ih fun h hh => hstays h (List.mem_append_left _ hh)
    obtain ⟨hpaused', htold'⟩ :=
      hstep.quiet hpaused (hstays _ (List.mem_append_right _ List.mem_cons_self))
    exact ⟨hpaused', htold'.trans htold⟩

/-- An accepted pause leaves a paused session. -/
theorem Step.paused {before : SessionState} {p : Phase}
    (h : Step s (.handled before .pause (.finished (.ok ()))) s')
    (hp : p.Holds s.recorder s.world) :
    ∃ id, (Phase.paused id).Holds s'.recorder s'.world := by
  cases h with
  | request request now h =>
    have hturn := Recorder.turn_respond hp h
    obtain ⟨hfits, -, -⟩ := hturn.answered.accepted_iff.mp rfl
    cases p with
    | running id =>
      obtain ⟨p', hp'⟩ := hturn.holds
      have hsession := hturn.answered.session_eq (.paused id) rfl rfl
      obtain rfl : p' = .paused id :=
        Phase.session_injective (hp'.session_eq.symm.trans hsession)
      exact ⟨id, hp'⟩
    | _ => cases hfits

/-- All that a service tells stands in blocks, of which only the last may be open, and none is once
the service has ended. There is one block for each start that was accepted, and each block that is
closed tells how the status update of its own stop ended. If a step is cut, all that was told is
still the beginning of some blocks. A request that is refused tells nothing, and nothing is told
from a pause until the session is resumed or stopped. -/
theorem Run.told_in_blocks {config : RecorderConfig} {store : Store}
    (h : Run (fresh config store) happenings s) :
    (∃ (blocks : List Block) (rest : List Message),
      told s.world.calls = blocks.flatMap Block.messages ++ rest ∧
      Opened s.recorder.session.measurement rest ∧
      happenings.filterMap Happening.started? =
        blocks.map Block.id ++ s.recorder.session.measurement.toList ∧
      closings s.world.calls = blocks.map Block.closing ∧ (s.ended = true → rest = [])) ∧
    (∀ w, s.Interrupted w → ∃ blocks : List Block, told w.calls <+: blocks.flatMap Block.messages) ∧
    (∀ before request reply s', Step s (.handled before request reply) s' → reply.error? ≠ none →
      told s'.world.calls = told s.world.calls) ∧
    ∀ before later s₁ s₂, Step s (.handled before .pause (.finished (.ok ()))) s₁ →
      Run s₁ later s₂ → (∀ h ∈ later, h.endsPause = false) →
      told s₂.world.calls = told s₁.world.calls := by
  obtain ⟨⟨p, hp⟩, -⟩ := h.holds
  refine ⟨?_, ?_, ?_, ?_⟩
  · obtain ⟨blocks, rest, htold, hrest, hstarts, hclosings⟩ := h.inBlocks
    refine ⟨blocks, rest, htold, hrest, hstarts, hclosings, fun hended => ?_⟩
    rw [h.session_eq_idle hended] at hrest
    exact hrest
  · -- A step that is cut tells the beginning of what it would have told.
    intro w hcut
    obtain ⟨happening, s', hstep, hprefix⟩ := hcut.exists_step
    obtain ⟨blocks, hblocks⟩ := (h.snoc hstep).inBlocks.exists_prefix
    exact ⟨blocks, (List.IsPrefix.filterMap _ hprefix).trans hblocks⟩
  · intro before request reply s' hstep hrefused
    cases hstep with
    | request request now h =>
      exact ((Recorder.turn_respond hp h).answered.unchanged hrefused).2.2.2
  · intro before later s₁ s₂ hpause hlater hstays
    obtain ⟨id, hpaused⟩ := hpause.paused hp
    exact (hlater.quiet hpaused hstays).2

/-- A recorder that starts, pauses and stops tells one block. -/
theorem told_one_block :
    ∃ s, Run (fresh ⟨1, 1, 1, 1⟩ oneOpen)
        [.handled .idle (.start ⟨1⟩) (.finished (.ok ())),
          .handled .running .pause (.finished (.ok ())),
          .handled .paused .stop (.stopped (.ok ⟨⟨1⟩, true, 0⟩))] s ∧
      ∃ block : Block, told s.world.calls = block.messages ∧ block.closing = (⟨1⟩, true) := by
  have hrun := Run.nil (s := fresh ⟨1, 1, 1, 1⟩ oneOpen)
    |>.snoc (step_respond (.start ⟨1⟩) 0 rfl)
    |>.snoc (step_respond .pause 1 rfl)
    |>.snoc (step_respond .stop 2 rfl)
  obtain ⟨blocks, rest, htold, hrest, -, hclosings, -⟩ := hrun.told_in_blocks.1
  obtain ⟨block, rfl, hblock⟩ := List.map_eq_singleton_iff.mp hclosings.symm
  obtain rfl : rest = [] := hrest
  rw [List.flatMap_singleton, List.append_nil] at htold
  exact ⟨_, hrun, block, htold, hblock⟩

end Service

end TripRecorder
