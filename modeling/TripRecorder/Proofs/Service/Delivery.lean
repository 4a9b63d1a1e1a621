import Mathlib.Data.List.Basic
import TripRecorder.Proofs.Capture.History
import TripRecorder.Proofs.Service.Run

/-!
# What a recorder tells and stores

An event of a capture is told in messages, a batch of samples in one message for each of its chunks.
Before a message is told, its points are added to the measurement. The messages are told whether or
not the points could be stored.

## Main definitions

* `CaptureEvent.messages`, `Message.points` — what is told about an event, and stored for a message
* `told` — the messages among the calls of a recorder
* `LoggedCall.Refuses`, `LoggedCall.refused` — points were not stored
* `Logged.Told` — some messages were told, and unless a call refused their points were stored

## Main results

* `Recorder.told_handleFor`, `Recorder.told_handleAll`, `Recorder.told_detach` — the messages of
  events
* `Captured.samples_messages`, `Captured.locations_messages`, `size_of_mem_messages` — what the
  messages of a capture hold
-/

namespace TripRecorder

namespace Message

/-- The samples of a kind in a message. -/
def samples (kind : SampleKind) : Message → List Sample
  | .data b => b.ofKind kind
  | _ => []

/-- The locations in a message. -/
def locations : Message → List GeoLocation
  | .location l => [l]
  | _ => []

/-- The points a message tells of. -/
def points : Message → List Point
  | .data b => b.toList.map .sample
  | .location l => [.location l]
  | _ => []

end Message

/-- The messages in which an event is told. -/
def CaptureEvent.messages (chunkSize : Nat) : CaptureEvent → List Message
  | .location l => [.location l]
  | .data b => (b.chunks chunkSize).map .data
  | .fixAcquired => [.fixAcquired]
  | .fixLost => [.fixLost]
  | .failed e => [.error e.message]

namespace LoggedCall

/-- The message that was told with a call. -/
def message? : LoggedCall → Option Message
  | ⟨.deliver m, _⟩ => some m
  | _ => none

/-- Points were not stored: their measurement was not found to be open, or writing them failed. -/
def Refuses : LoggedCall → Prop
  | ⟨.store (.status _), answer⟩ => (answer : Except StoreError MeasurementStatus) ≠ .ok .opened
  | ⟨.store (.insert _ _), answer⟩ => (answer : Except String Unit) ≠ .ok ()
  | _ => False

/-- Whether a call shows that points were not stored. -/
def refused : LoggedCall → Bool
  | ⟨.store (.status _), answer⟩ =>
    match (answer : Except StoreError MeasurementStatus) with
    | .ok status => status ≠ .opened
    | .error _ => true
  | ⟨.store (.insert _ _), answer⟩ => !(answer : Except String Unit).isOk
  | _ => false

theorem refused_iff (c : LoggedCall) : c.refused = true ↔ c.Refuses := by
  obtain ⟨c, answer⟩ := c
  cases c with
  | store c =>
    cases c with
    | status i =>
      rcases (answer : Except StoreError MeasurementStatus) with e | status
      · exact ⟨fun _ => nofun, fun _ => rfl⟩
      · rw [refused, decide_eq_true_eq]
        exact not_congr ⟨congrArg _, Except.ok.inj⟩
    | insert i points =>
      rcases (answer : Except String Unit) with e | u
      · exact ⟨fun _ => nofun, fun _ => rfl⟩
      · exact ⟨nofun, fun hrefuses => absurd rfl hrefuses⟩
    | _ => exact ⟨nofun, False.elim⟩
  | _ => exact ⟨nofun, False.elim⟩

end LoggedCall

/-- The messages that were told, in their order. -/
def told (calls : List LoggedCall) : List Message := calls.filterMap LoggedCall.message?

namespace RecorderCall

/-- The calls that neither tell nor store anything. -/
def Silent : RecorderCall → Prop
  | .store c => match c with
    | .load _ | .setStatus _ _ => True
    | _ => False
  | .deliver _ => False
  | _ => True

theorem Attaching.silent {c : RecorderCall} (h : c.Attaching) : c.Silent := by
  cases c with
  | store c => cases c <;> trivial
  | hardware c => trivial
  | _ => exact h.elim

end RecorderCall

namespace Logged

variable {id : MeasurementId} {messages messages' : List Message} {points points' : List Point}
  {w w' w'' : Logged}

/-- Some messages were told, and some points were added to a measurement unless a call refused
it. -/
def Recorded (id : MeasurementId) (messages : List Message) (points : List Point)
    (w w' : Logged) : Prop :=
  ∃ calls, w'.calls = w.calls ++ calls ∧ told calls = messages ∧
    ((∀ c ∈ calls, ¬ c.Refuses) →
      ∀ t, w'.store.points id t = w.store.points id t ++ keptIn t points)

/-- Some messages were told, and their points were added unless a call refused it. -/
def Told (id : MeasurementId) (messages : List Message) (w w' : Logged) : Prop :=
  w.Recorded id messages (messages.flatMap Message.points) w'

theorem recorded_refl (id : MeasurementId) (w : Logged) : w.Recorded id [] [] w :=
  ⟨[], (List.append_nil _).symm, rfl, fun _ _ => (List.append_nil _).symm⟩

theorem Recorded.trans (h : w.Recorded id messages points w')
    (h' : w'.Recorded id messages' points' w'') :
    w.Recorded id (messages ++ messages') (points ++ points') w'' := by
  obtain ⟨calls, hcalls, htold, hpoints⟩ := h
  obtain ⟨calls', hcalls', htold', hpoints'⟩ := h'
  refine ⟨calls ++ calls', ?_, ?_, fun hrefuses t => ?_⟩
  · rw [hcalls', hcalls, List.append_assoc]
  · rw [told, List.filterMap_append, ← told, ← told, htold, htold']
  · rw [hpoints' fun c hc => hrefuses c (List.mem_append_right _ hc),
      hpoints fun c hc => hrefuses c (List.mem_append_left _ hc), keptIn_append, List.append_assoc]

theorem Recorded.told_eq (h : w.Recorded id messages points w') :
    TripRecorder.told w'.calls = TripRecorder.told w.calls ++ messages := by
  obtain ⟨calls, hcalls, rfl, -⟩ := h
  rw [hcalls, TripRecorder.told, List.filterMap_append]
  rfl

theorem told_refl (id : MeasurementId) (w : Logged) : w.Told id [] w := recorded_refl id w

theorem Told.trans (h : w.Told id messages w') (h' : w'.Told id messages' w'') :
    w.Told id (messages ++ messages') w'' := by
  rw [Told, List.flatMap_append]
  exact Recorded.trans h h'

/-! ### Single calls -/

theorem told_of_silent {c : RecorderCall} {answer : RecorderAnswer c} (h : Acts c w answer w')
    (hc : c.Silent) : w.Told id [] w' := by
  obtain ⟨hstore, hcalls⟩ := h
  refine ⟨[⟨c, answer⟩], hcalls, ?_, fun _ t => ?_⟩
  · cases c <;> first | rfl | exact hc.elim
  · rw [List.flatMap_nil, keptIn_nil, List.append_nil]
    cases c with
    | store c =>
      cases c with
      | load i => rw [Store.Answers.of_reads (c := .load i) trivial hstore]
      | setStatus i target =>
        rcases Store.Answers.of_setStatus hstore with ⟨-, -, hsame⟩ | ⟨-, -, -, hpoints⟩
        · rw [hsame]
        · exact hpoints id t
      | _ => exact hc.elim
    | _ => rw [show w'.store = w.store from hstore]

/-- Calls that are all silent tell nothing. -/
theorem told_of_asks {α : Type} {p : Recording α} {a : α} (h : p.Ends Acts w a w')
    (hp : p.Asks RecorderCall.Silent) : w.Told id [] w' :=
  h.of_asks hp (told_refl id) Told.trans
    fun _ _ _ _ hc hcall => told_of_silent hcall hc

theorem recorded_deliver {message : Message} {answer : Nat}
    (h : Acts (.deliver message) w answer w') : w.Recorded id [message] [] w' := by
  refine ⟨_, h.2, rfl, fun _ t => ?_⟩
  rw [show w'.store = w.store from h.1, keptIn_nil, List.append_nil]

theorem told_eq_of_silent {c : RecorderCall} {answer : RecorderAnswer c}
    (h : Acts c w answer w') (hc : c.Silent) :
    TripRecorder.told w'.calls = TripRecorder.told w.calls := by
  -- The messages are the same whatever measurement they are for.
  have hnothing : w.Told default [] w' := told_of_silent h hc
  exact hnothing.told_eq.trans (List.append_nil _)

theorem told_eq_deliver {message : Message} {answer : Nat}
    (h : Acts (.deliver message) w answer w') :
    TripRecorder.told w'.calls = TripRecorder.told w.calls ++ [message] := by
  have hmessage : w.Recorded default [message] [] w' := recorded_deliver h
  exact hmessage.told_eq

/-- After a call that refused, nothing is said about the points. -/
theorem recorded_of_refuses {c : StoreCall} {answer : StoreAnswer c}
    (h : Acts (.store c) w answer w') (hrefuses : LoggedCall.Refuses ⟨.store c, answer⟩) :
    w.Recorded id [] points w' :=
  ⟨_, h.2, rfl, fun hnone => absurd hrefuses (hnone _ List.mem_cons_self)⟩

theorem recorded_insert {answer : Except String Unit}
    (h : Acts (.store (.insert id points)) w answer w') : w.Recorded id [] points w' := by
  rcases Store.Answers.of_insert h.1 with ⟨e, rfl, -⟩ | ⟨rfl, -, hpoints⟩
  · exact recorded_of_refuses h nofun
  · refine ⟨_, h.2, rfl, fun _ t => ?_⟩
    rw [hpoints id t, if_pos rfl]

theorem recorded_status {answer : Except StoreError MeasurementStatus}
    (h : Acts (.store (.status id)) w answer w') : w.Recorded id [] [] w' := by
  have hstore : w'.store = w.store := Store.Answers.of_reads (c := .status id) trivial h.1
  refine ⟨_, h.2, rfl, fun _ t => ?_⟩
  rw [hstore, keptIn_nil, List.append_nil]

/-! ### Adding points -/

/-- A call of the store is answered and logged. -/
def StoreActs (c : StoreCall) (w : Logged) (answer : StoreAnswer c) (w' : Logged) : Prop :=
  Acts (.store c) w answer w'

theorem recorded_writeBatches {batches : List (List Point)} {done : AppendReport}
    {result : Except StoreError AppendReport}
    (h : (writeBatches id done batches).Ends StoreActs w result w') :
    w.Recorded id [] batches.flatten w' := by
  induction batches generalizing done w with
  | nil =>
    obtain ⟨-, rfl⟩ := Procedure.ends_done_iff.mp h
    exact recorded_refl id w'
  | cons batch rest ih =>
    obtain ⟨answer, middle, hcall, hnext⟩ := Procedure.ends_call_iff.mp h
    have hinsert : Acts (.store (.insert id batch)) w answer middle := hcall
    cases answer with
    | error e =>
      -- The later batches are not written, but a call has refused.
      obtain ⟨-, rfl⟩ := Procedure.ends_done_iff.mp hnext
      exact recorded_of_refuses hinsert nofun
    | ok u =>
      rw [List.flatten_cons]
      exact (recorded_insert hinsert).trans (ih hnext)

theorem recorded_appendPoints {batchLimit : Nat} {result : Except StoreError AppendReport}
    (h : (appendPoints batchLimit id points).Ends StoreActs w result w') :
    w.Recorded id [] points w' := by
  unfold appendPoints at h
  split at h
  · rename_i hempty
    obtain ⟨-, rfl⟩ := Procedure.ends_done_iff.mp h
    rw [List.isEmpty_iff.mp hempty]
    exact recorded_refl id w'
  · obtain ⟨answer, middle, hcall, hnext⟩ := Procedure.ends_call_iff.mp h
    have hstatus : Acts (.store (.status id)) w answer middle := hcall
    cases answer with
    | error e =>
      obtain ⟨-, rfl⟩ := Procedure.ends_done_iff.mp hnext
      exact recorded_of_refuses hstatus nofun
    | ok status =>
      simp only at hnext
      split at hnext
      · -- The batches make up the points, whatever their size.
        have hwritten := recorded_writeBatches hnext
        rw [flatten_inChunks] at hwritten
        exact (recorded_status hstatus).trans hwritten
      · rename_i hclosed
        obtain ⟨-, rfl⟩ := Procedure.ends_done_iff.mp hnext
        exact recorded_of_refuses hstatus fun hopen => hclosed (Except.ok.inj hopen)

end Logged

namespace Recorder

variable {r r' : Recorder} {id : MeasurementId} {config : RecorderConfig}
  {stats stats' : SessionStats} {w w' : Logged} {now : Nat}

/-- Points are saved if they are appended without an error. -/
theorem ends_save {batchLimit : Nat} {points : List Point} {saved : Bool}
    (h : (save batchLimit id points).Ends Logged.Acts w saved w') :
    ∃ result, (appendPoints batchLimit id points).Ends Logged.StoreActs w result w' ∧
      saved = result.isOk := by
  obtain ⟨result, middle, hmapped, hdone⟩ := Procedure.ends_bind_iff.mp h
  have happend : (appendPoints batchLimit id points).Ends Logged.StoreActs w result middle := by
    refine (Procedure.ends_mapCalls_iff.mp hmapped).mono ?_
    rintro c w answer w' ⟨_, hact, rfl⟩
    exact hact
  cases result with
  | error e =>
    obtain ⟨rfl, rfl⟩ := Procedure.ends_done_iff.mp hdone
    exact ⟨_, happend, rfl⟩
  | ok report =>
    obtain ⟨rfl, rfl⟩ := Procedure.ends_done_iff.mp hdone
    exact ⟨_, happend, rfl⟩

theorem recorded_save {batchLimit : Nat} {points : List Point} {saved : Bool}
    (h : (save batchLimit id points).Ends Logged.Acts w saved w') :
    w.Recorded id [] points w' := by
  obtain ⟨result, happend, -⟩ := ends_save h
  exact Logged.recorded_appendPoints happend

/-- Points are added, and their message is told. -/
theorem ends_save_tell {batchLimit : Nat} {points : List Point} {message : Message} {α : Type}
    {next : Bool → Recording α} {a : α}
    (h : ((save batchLimit id points).bind fun saved =>
      (tell message).bind fun () => next saved).Ends Logged.Acts w a w') :
    ∃ saved w₁ answer w₂, (save batchLimit id points).Ends Logged.Acts w saved w₁ ∧
      Logged.Acts (.deliver message) w₁ answer w₂ ∧ (next saved).Ends Logged.Acts w₂ a w' := by
  obtain ⟨saved, w₁, hsave, hrest⟩ := Procedure.ends_bind_iff.mp h
  obtain ⟨answer, w₂, hdeliver, hnext⟩ := Procedure.ends_call_iff.mp hrest
  exact ⟨saved, w₁, answer, w₂, hsave, hdeliver, hnext⟩

theorem recorded_save_tell {batchLimit : Nat} {points : List Point} {message : Message} {α : Type}
    {next : Bool → Recording α} {a : α}
    (h : ((save batchLimit id points).bind fun saved =>
      (tell message).bind fun () => next saved).Ends Logged.Acts w a w') :
    ∃ saved middle, w.Recorded id [message] points middle ∧
      (next saved).Ends Logged.Acts middle a w' := by
  obtain ⟨saved, w₁, answer, w₂, hsave, hdeliver, hnext⟩ := ends_save_tell h
  have hrecorded := (recorded_save hsave).trans (Logged.recorded_deliver hdeliver)
  rw [List.nil_append, List.append_nil] at hrecorded
  exact ⟨saved, w₂, hrecorded, hnext⟩

theorem told_handleChunks {chunks : List SampleBatch}
    (h : (handleChunks config id stats chunks).Ends Logged.Acts w stats' w') :
    w.Told id (chunks.map .data) w' := by
  induction chunks generalizing stats w with
  | nil =>
    obtain ⟨-, rfl⟩ := Procedure.ends_done_iff.mp h
    exact Logged.told_refl id w'
  | cons chunk rest ih =>
    obtain ⟨saved, middle, hchunk, hrest⟩ := recorded_save_tell h
    exact hchunk.trans (ih hrest)

/-- A message without points is told. -/
theorem told_tell {message : Message} {α : Type} {a b : α} (hpoints : message.points = [])
    (h : ((tell message).bind fun () => .done a).Ends Logged.Acts w b w') :
    w.Told id [message] w' := by
  obtain ⟨answer, middle, hdeliver, hdone⟩ := Procedure.ends_call_iff.mp h
  obtain ⟨-, rfl⟩ := Procedure.ends_done_iff.mp hdone
  rw [Logged.Told, List.flatMap_singleton, hpoints]
  exact Logged.recorded_deliver hdeliver

/-- An event is told in its messages. -/
theorem told_handleFor {event : CaptureEvent}
    (h : (handleFor config id stats event).Ends Logged.Acts w stats' w') :
    w.Told id (event.messages config.chunkSize) w' := by
  cases event with
  | location l =>
    obtain ⟨saved, middle, hlocation, hdone⟩ := recorded_save_tell h
    obtain ⟨-, rfl⟩ := Procedure.ends_done_iff.mp hdone
    exact hlocation
  | data batch => exact told_handleChunks h
  | fixAcquired => exact told_tell rfl h
  | fixLost => exact told_tell rfl h
  | failed e => exact told_tell rfl h

theorem told_handleAll {events : List CaptureEvent} (hid : r.session.measurement = some id)
    (h : (r.handleAll events).Ends Logged.Acts w r' w') :
    w.Told id (events.flatMap (CaptureEvent.messages r.config.chunkSize)) w' := by
  induction events generalizing r w with
  | nil =>
    obtain ⟨-, rfl⟩ := Procedure.ends_done_iff.mp h
    exact Logged.told_refl id w'
  | cons event rest ih =>
    obtain ⟨r₁, w₁, hfirst, hrest⟩ := Procedure.ends_bind_iff.mp h
    rcases ends_handle hfirst with ⟨hnone, -, -⟩ | ⟨id', stats, hid', hfor, rfl⟩
    · rw [hid] at hnone
      cases hnone
    · obtain rfl := Option.some.inj (hid.symm.trans hid')
      exact (told_handleFor hfor).trans (ih (r := { r with stats := stats }) hid hrest)

/-- Nothing is told while sensors are attached. -/
theorem told_attachTo {id' : MeasurementId} {attached : Except CaptureError Nat}
    (h : (attachTo id').run.Ends Logged.Acts w attached w') : w.Told id [] w' :=
  Logged.told_of_asks h ((asks_attachTo id').mono fun _ hc => hc.silent)

theorem told_eq_attachTo {attached : Except CaptureError Nat}
    (h : (attachTo id).run.Ends Logged.Acts w attached w') : told w'.calls = told w.calls := by
  have hnothing : w.Told id [] w' := told_attachTo h
  exact hnothing.told_eq.trans (List.append_nil _)

/-- When sensors are detached, all their events are told that were not told before. -/
theorem told_detach {c : HeldCapture} (hc : r.capture = some c)
    (hid : r.session.measurement = some id) (h : (r.detach now).Ends Logged.Acts w r' w') :
    w.Told id ((c.events ++ (c.pump.close now).2).flatMap
      (CaptureEvent.messages r.config.chunkSize)) w' := by
  rcases ends_detach h with ⟨hnone, -, -⟩ | ⟨c', w₁, hc', hhardware, hevents⟩
  · rw [hc] at hnone
    cases hnone
  · obtain rfl := Option.some.inj (hc.symm.trans hc')
    have hdetached : w.Told id [] w₁ := Logged.told_of_asks hhardware
      ((Procedure.asks_true _).mapCalls fun _ _ => trivial)
    exact hdetached.trans (told_handleAll (r := { r with capture := none }) hid hevents)

end Recorder

/-! ### What the messages hold -/

namespace CaptureEvent

variable {event : CaptureEvent} {chunkSize : Nat}

/-- Cutting a batch into chunks keeps the samples of each kind in their order. -/
theorem samples_messages (hsorted : ∀ b, event = .data b → b.Sorted) (kind : SampleKind) :
    (event.messages chunkSize).flatMap (Message.samples kind) = event.samples kind := by
  cases event with
  | data b =>
    rw [messages, List.flatMap_map]
    exact (hsorted b rfl).flatMap_chunks chunkSize kind
  | _ => rfl

theorem locations_messages : (event.messages chunkSize).flatMap Message.locations =
    event.locations := by
  cases event with
  | data b =>
    rw [messages, List.flatMap_map]
    exact List.flatMap_eq_nil_iff.mpr fun _ _ => rfl
  | _ => rfl

/-- A message about samples is about a chunk of a batch. -/
theorem mem_chunks_of_mem_messages {c : SampleBatch} (h : .data c ∈ event.messages chunkSize) :
    ∃ b, event = .data b ∧ c ∈ b.chunks chunkSize := by
  cases event with
  | data b =>
    obtain ⟨c', hc', heq⟩ := List.mem_map.mp h
    exact ⟨b, rfl, Message.data.inj heq ▸ hc'⟩
  | _ => simp [messages] at h

end CaptureEvent

/-- A message about sorted samples or about a location stores its points by their kinds. -/
theorem Message.keptIn_points {message : Message} (hsorted : ∀ b, message = .data b → b.Sorted) :
    (keptIn .locations message.points =
      message.locations.map fun l => (Point.location l).kept) ∧
    ∀ kind, keptIn (.samples kind) message.points =
      (message.samples kind).map fun s => (Point.sample s).kept := by
  cases message with
  | data b =>
    refine ⟨?_, fun kind => ?_⟩
    · simp [keptIn, points, locations, List.filter_map, Function.comp_def, Point.table]
    · rw [samples, ← (hsorted b rfl).filter_toList]
      simp [keptIn, points, List.filter_map, Function.comp_def, Point.table]
  | location l => exact ⟨rfl, fun kind => rfl⟩
  | _ => exact ⟨rfl, fun _ => rfl⟩

section Events

variable {captures : List (List Reading)} {events : List CaptureEvent}

/-- The messages about captures hold the samples that were captured, kind by kind. -/
theorem Captured.samples_messages (h : Captured captures events) (chunkSize : Nat)
    (kind : SampleKind) :
    (events.flatMap (CaptureEvent.messages chunkSize)).flatMap (Message.samples kind) =
      captures.flatten.flatMap (Reading.samples kind) := by
  rw [List.flatMap_assoc, ← h.samples kind]
  exact List.flatMap_congr fun event hevent =>
    CaptureEvent.samples_messages (fun b hb => h.sorted b (hb ▸ hevent)) kind

/-- They hold the locations that were captured and do not repeat a position. -/
theorem Captured.locations_messages (h : Captured captures events) (chunkSize : Nat) :
    (events.flatMap (CaptureEvent.messages chunkSize)).flatMap Message.locations =
      captures.flatMap fun readings => unrepeated (readings.flatMap Reading.locations) := by
  rw [List.flatMap_assoc, ← h.locations]
  exact List.flatMap_congr fun event _ => CaptureEvent.locations_messages

/-- No event of a capture is told as a start or a stop. -/
theorem kind_of_mem_messages {chunkSize : Nat} {message : Message}
    (h : message ∈ events.flatMap (CaptureEvent.messages chunkSize)) :
    message.kind ≠ .captureStarted ∧ message.kind ≠ .captureStopped := by
  obtain ⟨event, -, hmessage⟩ := List.mem_flatMap.mp h
  cases event with
  | data b =>
    obtain ⟨c, -, rfl⟩ := List.mem_map.mp hmessage
    exact ⟨nofun, nofun⟩
  | _ =>
    rw [List.mem_singleton.mp hmessage]
    exact ⟨nofun, nofun⟩

/-- No message holds more samples than a chunk may have. -/
theorem size_of_mem_messages {chunkSize : Nat} {c : SampleBatch}
    (h : .data c ∈ events.flatMap (CaptureEvent.messages chunkSize)) :
    0 < c.size ∧ c.size ≤ max chunkSize 1 := by
  obtain ⟨event, -, hmessage⟩ := List.mem_flatMap.mp h
  obtain ⟨b, -, hchunk⟩ := CaptureEvent.mem_chunks_of_mem_messages hmessage
  exact SampleBatch.size_of_mem_chunks hchunk

theorem Captured.sorted_of_mem_messages (h : Captured captures events) {chunkSize : Nat}
    {c : SampleBatch} (hc : .data c ∈ events.flatMap (CaptureEvent.messages chunkSize)) :
    c.Sorted := by
  obtain ⟨event, hevent, hmessage⟩ := List.mem_flatMap.mp hc
  obtain ⟨b, rfl, hchunk⟩ := CaptureEvent.mem_chunks_of_mem_messages hmessage
  exact (h.sorted b hevent).of_mem_chunks hchunk

end Events

/-- Messages about sorted samples and about locations store their points by their kinds. -/
theorem keptIn_flatMap_points {messages : List Message}
    (hsorted : ∀ b, .data b ∈ messages → b.Sorted) :
    (keptIn .locations (messages.flatMap Message.points) =
      (messages.flatMap Message.locations).map fun l => (Point.location l).kept) ∧
    ∀ kind, keptIn (.samples kind) (messages.flatMap Message.points) =
      (messages.flatMap (Message.samples kind)).map fun s => (Point.sample s).kept := by
  induction messages with
  | nil => exact ⟨rfl, fun _ => rfl⟩
  | cons message rest ih =>
    obtain ⟨hlocations, hsamples⟩ := ih fun b hb => hsorted b (List.mem_cons_of_mem _ hb)
    obtain ⟨hlocation, hsample⟩ := message.keptIn_points
      fun b hb => hsorted b (hb ▸ List.mem_cons_self)
    refine ⟨?_, fun kind => ?_⟩
    · rw [List.flatMap_cons, keptIn_append, hlocation, hlocations, List.flatMap_cons,
        List.map_append]
    · rw [List.flatMap_cons, keptIn_append, hsample, hsamples, List.flatMap_cons, List.map_append]

end TripRecorder
