import TripRecorder.Proofs.Service.Blocks

/-!
# Counters of a session

A recorder counts what it tells and what it could not store. The counters begin anew with each start
that is accepted. They can be checked against the log of all calls: they are what the messages that
were told since then, and the appends that were made since then, amount to.

## Main definitions

* `Appended` — the appends among some calls, each with its result
* `tally` — what messages and appends amount to
* `Logged.Counts` — counters that went on by what the calls in between amount to
* `Service.Begun` — a service that begins to count

## Main results

* `Recorder.counts_detach`, `Recorder.counts_stop` — the last events of a capture are counted
* `Service.Step.counts`, `Service.Step.stats_started` — every step goes on counting, but for a start
  that is accepted
* `Service.Run.stats_eq_tally` — the counters in every state of a service, and where they are told
-/

namespace TripRecorder

/-! ### Appends in a log -/

/-- The calls with which points are saved. -/
def RecorderCall.Saves : RecorderCall → Prop
  | .store (.status _) => True
  | .store (.insert _ _) => True
  | _ => False

theorem RecorderCall.Silent.not_saves {c : RecorderCall} (h : c.Silent) : ¬ c.Saves := by
  cases c with
  | store c => cases c <;> first | exact id | exact h.elim
  | _ => exact id

/-- The appends among some calls, each with its result. Every call with which points are saved
belongs to one of them. -/
inductive Appended : List LoggedCall → List (Except StoreError AppendReport) → Prop where
  | none : Appended [] []
  | other {c : LoggedCall} {calls : List LoggedCall}
      {results : List (Except StoreError AppendReport)} :
      ¬ c.call.Saves → Appended calls results → Appended (c :: calls) results
  | append {batchLimit : Nat} {id : MeasurementId} {points : List Point} {w w' : Logged}
      {result : Except StoreError AppendReport} {first calls : List LoggedCall}
      {results : List (Except StoreError AppendReport)} :
      (appendPoints batchLimit id points).Ends Logged.StoreActs w result w' →
      w'.calls = w.calls ++ first → Appended calls results →
      Appended (first ++ calls) (result :: results)

theorem Appended.trans {calls calls' : List LoggedCall}
    {results results' : List (Except StoreError AppendReport)} (h : Appended calls results)
    (h' : Appended calls' results') : Appended (calls ++ calls') (results ++ results') := by
  induction h with
  | none => exact h'
  | other hc _ ih => exact .other hc ih
  | append happend hcalls _ ih =>
    rw [List.append_assoc]
    exact .append happend hcalls ih

/-- The number of appends that failed. -/
def failedAppends (results : List (Except StoreError AppendReport)) : Nat :=
  results.countP fun result => !result.isOk

theorem LoggedCall.refused_of_not_saves {c : LoggedCall} (h : ¬ c.call.Saves) :
    c.refused = false := by
  obtain ⟨c, answer⟩ := c
  cases c with
  | store c => cases c <;> first | rfl | exact absurd trivial h
  | _ => rfl

namespace Logged

variable {w w' : Logged} {id : MeasurementId}

/-- Batches are written until one of them is refused. -/
theorem refused_writeBatches {batches : List (List Point)} {done : AppendReport}
    {result : Except StoreError AppendReport}
    (h : (writeBatches id done batches).Ends StoreActs w result w') :
    ∃ calls, w'.calls = w.calls ++ calls ∧
      calls.countP LoggedCall.refused = failedAppends [result] := by
  induction batches generalizing done w with
  | nil =>
    obtain ⟨rfl, rfl⟩ := Procedure.ends_done_iff.mp h
    exact ⟨[], (List.append_nil _).symm, rfl⟩
  | cons batch rest ih =>
    obtain ⟨answer, middle, hcall, hnext⟩ := Procedure.ends_call_iff.mp h
    obtain ⟨-, hinsert⟩ := hcall
    cases answer with
    | error e =>
      obtain ⟨rfl, rfl⟩ := Procedure.ends_done_iff.mp hnext
      exact ⟨_, hinsert, rfl⟩
    | ok u =>
      obtain ⟨calls, hcalls, hcount⟩ := ih hnext
      refine ⟨⟨.store (.insert id batch), .ok u⟩ :: calls, ?_, hcount⟩
      rw [hcalls, hinsert, List.append_assoc, List.singleton_append]

/-- An append fails with the first call that refuses, and makes no other calls after it. -/
theorem refused_appendPoints {batchLimit : Nat} {points : List Point}
    {result : Except StoreError AppendReport}
    (h : (appendPoints batchLimit id points).Ends StoreActs w result w') :
    ∃ calls, w'.calls = w.calls ++ calls ∧
      calls.countP LoggedCall.refused = failedAppends [result] := by
  unfold appendPoints at h
  split at h
  · obtain ⟨rfl, rfl⟩ := Procedure.ends_done_iff.mp h
    exact ⟨[], (List.append_nil _).symm, rfl⟩
  · obtain ⟨answer, middle, hcall, hnext⟩ := Procedure.ends_call_iff.mp h
    obtain ⟨-, hstatus⟩ := hcall
    cases answer with
    | error e =>
      obtain ⟨rfl, rfl⟩ := Procedure.ends_done_iff.mp hnext
      exact ⟨_, hstatus, rfl⟩
    | ok status =>
      simp only at hnext
      split at hnext
      · rename_i hopen
        obtain ⟨calls, hcalls, hcount⟩ := refused_writeBatches hnext
        refine ⟨⟨.store (.status id), .ok status⟩ :: calls, ?_, ?_⟩
        · rw [hcalls, hstatus, List.append_assoc, List.singleton_append]
        · rw [List.countP_cons_of_neg (by simp [LoggedCall.refused, hopen]), hcount]
      · rename_i hclosed
        obtain ⟨rfl, rfl⟩ := Procedure.ends_done_iff.mp hnext
        refine ⟨_, hstatus, ?_⟩
        simp [LoggedCall.refused, hclosed, failedAppends, Except.isOk, Except.toBool]

end Logged

/-- Each append that failed is one call that refused. -/
theorem Appended.countP_refused {calls : List LoggedCall}
    {results : List (Except StoreError AppendReport)} (h : Appended calls results) :
    calls.countP LoggedCall.refused = failedAppends results := by
  induction h with
  | none => rfl
  | other hc _ ih =>
    rw [List.countP_cons_of_neg (by simp [LoggedCall.refused_of_not_saves hc]), ih]
  | @append _ _ _ _ _ result first calls results happend hcalls _ ih =>
    obtain ⟨made, hmade, hcount⟩ := Logged.refused_appendPoints happend
    -- The log says which calls belong to the append.
    obtain rfl : made = first := List.append_cancel_left (hmade.symm.trans hcalls)
    rw [List.countP_append, hcount, ih, failedAppends, failedAppends, failedAppends,
      ← List.countP_append, List.singleton_append]

/-! ### What the calls amount to -/

/-- The number of samples in a message. -/
def Message.size : Message → Nat
  | .data b => b.size
  | _ => 0

/-- The number of samples in some messages. -/
def totalSize : List Message → Nat
  | [] => 0
  | m :: rest => m.size + totalSize rest

theorem totalSize_append (first rest : List Message) :
    totalSize (first ++ rest) = totalSize first + totalSize rest := by
  induction first with
  | nil => exact (Nat.zero_add _).symm
  | cons m first ih => rw [List.cons_append, totalSize, totalSize, ih, Nat.add_assoc]

/-- What messages and appends amount to. -/
def tally (calls : List LoggedCall) (results : List (Except StoreError AppendReport)) :
    SessionStats where
  locationsCaptured := (told calls).countP fun m => m.kind = .locationCaptured
  samplesCaptured := totalSize (told calls)
  chunksDelivered := (told calls).countP fun m => m.kind = .dataCaptured
  persistenceFailures := failedAppends results
  captureFailures := (told calls).countP fun m => m.kind = .captureError

namespace SessionStats

instance : Add SessionStats where
  add a b := ⟨a.locationsCaptured + b.locationsCaptured, a.samplesCaptured + b.samplesCaptured,
    a.chunksDelivered + b.chunksDelivered, a.persistenceFailures + b.persistenceFailures,
    a.captureFailures + b.captureFailures⟩

theorem add_def (a b : SessionStats) : a + b =
    ⟨a.locationsCaptured + b.locationsCaptured, a.samplesCaptured + b.samplesCaptured,
      a.chunksDelivered + b.chunksDelivered, a.persistenceFailures + b.persistenceFailures,
      a.captureFailures + b.captureFailures⟩ := rfl

theorem add_zero (a : SessionStats) : a + zero = a := rfl

theorem zero_add (a : SessionStats) : zero + a = a := by
  simp only [add_def, zero, Nat.zero_add]

theorem add_assoc (a b c : SessionStats) : a + b + c = a + (b + c) := by
  simp only [add_def, Nat.add_assoc]

end SessionStats

theorem tally_append (calls calls' : List LoggedCall)
    (results results' : List (Except StoreError AppendReport)) :
    tally (calls ++ calls') (results ++ results') =
      tally calls results + tally calls' results' := by
  simp only [tally, told, failedAppends, List.filterMap_append, List.countP_append,
    totalSize_append, SessionStats.add_def]

theorem tally_of_told_eq_nil {calls : List LoggedCall} (h : told calls = [])
    (results : List (Except StoreError AppendReport)) :
    tally calls results = ⟨0, 0, 0, failedAppends results, 0⟩ := by
  rw [tally, h]
  rfl

/-- What a message counts for. -/
def Message.counted : Message → SessionStats
  | .data b => ⟨0, b.size, 1, 0, 0⟩
  | .location _ => ⟨1, 0, 0, 0, 0⟩
  | .error _ => ⟨0, 0, 0, 0, 1⟩
  | _ => .zero

theorem tally_deliver (message : Message) (answer : Nat) :
    tally [⟨.deliver message, answer⟩] [] = message.counted := by
  cases message <;> rfl

theorem tally_silent {c : RecorderCall} (h : c.Silent) (answer : RecorderAnswer c) :
    tally [⟨c, answer⟩] [] = .zero := by
  cases c with
  | deliver message => exact h.elim
  | _ => rfl

/-! ### Procedures that count -/

namespace Logged

variable {w w' w'' : Logged} {stats stats' stats'' : SessionStats}

/-- Counters went on by what the calls in between amount to. -/
def Counts (w : Logged) (stats : SessionStats) (w' : Logged) (stats' : SessionStats) : Prop :=
  ∃ calls results, w'.calls = w.calls ++ calls ∧ Appended calls results ∧
    stats' = stats + tally calls results

theorem counts_refl (w : Logged) (stats : SessionStats) : w.Counts stats w stats :=
  ⟨[], [], (List.append_nil _).symm, .none, rfl⟩

theorem Counts.trans (h : w.Counts stats w' stats') (h' : w'.Counts stats' w'' stats'') :
    w.Counts stats w'' stats'' := by
  obtain ⟨calls, results, hcalls, happended, rfl⟩ := h
  obtain ⟨calls', results', hcalls', happended', rfl⟩ := h'
  refine ⟨calls ++ calls', results ++ results', ?_, happended.trans happended', ?_⟩
  · rw [hcalls', hcalls, List.append_assoc]
  · rw [tally_append, SessionStats.add_assoc]

theorem counts_silent {c : RecorderCall} {answer : RecorderAnswer c} (h : Acts c w answer w')
    (hc : c.Silent) (stats : SessionStats) : w.Counts stats w' stats := by
  refine ⟨[⟨c, answer⟩], [], h.2, .other hc.not_saves .none, ?_⟩
  rw [tally_silent hc, SessionStats.add_zero]

theorem counts_deliver {message : Message} {answer : Nat} (h : Acts (.deliver message) w answer w')
    (stats : SessionStats) : w.Counts stats w' (stats + message.counted) := by
  refine ⟨[⟨.deliver message, answer⟩], [], h.2, .other id .none, ?_⟩
  rw [tally_deliver]

/-- Nothing is counted while nothing is told or stored. -/
theorem counts_of_asks {α : Type} {p : Recording α} {a : α} (h : p.Ends Acts w a w')
    (hp : p.Asks RecorderCall.Silent) (stats : SessionStats) : w.Counts stats w' stats := by
  have hkeeps : ∀ c w answer w', RecorderCall.Silent c → Acts c w answer w' →
      w.Counts stats w' stats :=
    fun _ _ _ _ hc hcall => counts_silent hcall hc stats
  refine h.of_asks hp ?_ ?_ hkeeps
  · exact fun w => counts_refl w stats
  · exact Counts.trans

end Logged

namespace Recorder

open Logged

variable {r r' : Recorder} {id : MeasurementId} {config : RecorderConfig}
  {stats stats' : SessionStats} {w w' : Logged} {now : Nat}

/-- What is not stored is counted once, whatever else is counted. -/
theorem countUnsaved_add (stats more : SessionStats) (saved : Bool) :
    countUnsaved stats saved + more = countUnsaved (stats + more) saved := by
  cases saved with
  | true => rfl
  | false => simp only [countUnsaved, SessionStats.add_def, Bool.false_eq_true, if_false,
      Nat.add_right_comm]

/-- An append that fails is counted. -/
theorem counts_save {batchLimit : Nat} {points : List Point} {saved : Bool}
    (h : (save batchLimit id points).Ends Acts w saved w') (stats : SessionStats) :
    w.Counts stats w' (countUnsaved stats saved) := by
  obtain ⟨result, happend, rfl⟩ := ends_save h
  obtain ⟨calls, hcalls, htold, -⟩ := recorded_appendPoints happend
  have happended : Appended (calls ++ []) [result] := .append happend hcalls .none
  rw [List.append_nil] at happended
  refine ⟨calls, [result], hcalls, happended, ?_⟩
  rw [tally_of_told_eq_nil htold]
  cases result <;> rfl

/-- Points are saved, and their message is told. -/
theorem counts_save_tell {batchLimit : Nat} {points : List Point} {message : Message} {α : Type}
    {next : Bool → Recording α} {a : α} (stats : SessionStats)
    (h : ((save batchLimit id points).bind fun saved =>
      (tell message).bind fun () => next saved).Ends Acts w a w') :
    ∃ saved middle, w.Counts stats middle (countUnsaved (stats + message.counted) saved) ∧
      (next saved).Ends Acts middle a w' := by
  obtain ⟨saved, w₁, answer, w₂, hsave, hdeliver, hnext⟩ := ends_save_tell h
  refine ⟨saved, w₂, ?_, hnext⟩
  rw [← countUnsaved_add]
  exact (counts_save hsave stats).trans (counts_deliver hdeliver _)

theorem counts_handleChunks {chunks : List SampleBatch}
    (h : (handleChunks config id stats chunks).Ends Acts w stats' w') :
    w.Counts stats w' stats' := by
  induction chunks generalizing stats w with
  | nil =>
    obtain ⟨rfl, rfl⟩ := Procedure.ends_done_iff.mp h
    exact counts_refl _ _
  | cons chunk rest ih =>
    -- The other chunks go on from what this one is counted for.
    obtain ⟨saved, middle, hchunk, hrest⟩ := counts_save_tell stats h
    exact hchunk.trans (ih hrest)

/-- A message without points is told. -/
theorem counts_tell {message : Message} (hcounted : stats' = stats + message.counted)
    (h : ((tell message).bind fun () => .done stats').Ends Acts w stats'' w') :
    w.Counts stats w' stats'' := by
  obtain ⟨answer, middle, hdeliver, hdone⟩ := Procedure.ends_call_iff.mp h
  obtain ⟨rfl, rfl⟩ := Procedure.ends_done_iff.mp hdone
  rw [hcounted]
  exact counts_deliver hdeliver stats

theorem counts_handleFor {event : CaptureEvent}
    (h : (handleFor config id stats event).Ends Acts w stats' w') :
    w.Counts stats w' stats' := by
  cases event with
  | location l =>
    obtain ⟨saved, middle, hlocation, hdone⟩ := counts_save_tell stats h
    obtain ⟨rfl, rfl⟩ := Procedure.ends_done_iff.mp hdone
    exact hlocation
  | data batch => exact counts_handleChunks h
  | fixAcquired => exact counts_tell rfl h
  | fixLost => exact counts_tell rfl h
  | failed e => exact counts_tell rfl h

theorem counts_handle {event : CaptureEvent} (h : (r.handle event).Ends Acts w r' w') :
    w.Counts r.stats w' r'.stats := by
  rcases ends_handle h with ⟨-, rfl, rfl⟩ | ⟨id, stats, -, hfor, rfl⟩
  · exact counts_refl _ _
  · exact counts_handleFor hfor

theorem counts_handleNext (h : r.handleNext.Ends Acts w r' w') :
    w.Counts r.stats w' r'.stats := by
  unfold handleNext at h
  split at h
  · obtain ⟨rfl, rfl⟩ := Procedure.ends_done_iff.mp h
    exact counts_refl _ _
  · exact counts_handle (r := r.withPending _) h

theorem counts_handleAll {events : List CaptureEvent}
    (h : (r.handleAll events).Ends Acts w r' w') : w.Counts r.stats w' r'.stats := by
  induction events generalizing r w with
  | nil =>
    obtain ⟨rfl, rfl⟩ := Procedure.ends_done_iff.mp h
    exact counts_refl _ _
  | cons event rest ih =>
    obtain ⟨middle, w₁, hfirst, hrest⟩ := Procedure.ends_bind_iff.mp h
    exact (counts_handle hfirst).trans (ih hrest)

/-- When sensors are detached, the events that are still handled are counted. -/
theorem counts_detach (h : (r.detach now).Ends Acts w r' w') :
    w.Counts r.stats w' r'.stats := by
  rcases ends_detach h with ⟨-, rfl, rfl⟩ | ⟨c, w₁, -, hhardware, hevents⟩
  · exact counts_refl _ _
  · have hdetached : w.Counts r.stats w₁ r.stats :=
      counts_of_asks hhardware ((Procedure.asks_true _).mapCalls fun _ _ => trivial) r.stats
    exact hdetached.trans (counts_handleAll (r := { r with capture := none }) hevents)

theorem counts_attachTo {attached : Except CaptureError Nat}
    (h : (attachTo id).run.Ends Acts w attached w') (stats : SessionStats) :
    w.Counts stats w' stats :=
  counts_of_asks h ((asks_attachTo id).mono fun _ hc => hc.silent) stats

/-! ### Requests that count -/

theorem counts_pause {result : Except CaptureError Unit}
    (h : (r.pause now).Ends Acts w (result, r') w') : w.Counts r.stats w' r'.stats := by
  rcases ends_pause h with ⟨-, -, rfl, rfl⟩ | ⟨id, w₁, -, hdetach, hrelease, -⟩
  · exact counts_refl _ _
  · exact (counts_detach hdetach).trans (counts_silent hrelease trivial _)

theorem counts_resume {result : Except CaptureError Unit}
    (h : (r.resume now).Ends Acts w (result, r') w') : w.Counts r.stats w' r'.stats := by
  rcases ends_resume h with ⟨-, -, rfl, rfl⟩ | ⟨id, attached, w₁, -, hattach, hrest⟩
  · exact counts_refl _ _
  · have hattached := counts_attachTo hattach r.stats
    rcases hrest with ⟨e, -, -, rfl, rfl⟩ | ⟨sources, -, hacquire, -, rfl⟩
    · exact hattached
    · exact hattached.trans (counts_silent hacquire trivial _)

/-- A stop reports the appends that failed, those of the last events included. -/
theorem counts_stop {result : Except CaptureError StopReport}
    (h : (r.stop now).Ends Acts w (result, r') w') :
    w.Counts r.stats w' r'.stats ∧
      ∀ report, result = .ok report →
        report.persistenceFailures = r'.stats.persistenceFailures := by
  rcases ends_stop h with ⟨-, rfl, rfl, rfl⟩ |
    ⟨id, stats, w₁, w₂, w₃, answer, told, -, -, hdetach, hrelease, hfinish, hdeliver, rfl, rfl⟩
  · exact ⟨counts_refl _ _, nofun⟩
  · -- Only the last events and the end of the session are told, and the end counts for nothing.
    have hreleased : w.Counts r.stats w₂ stats :=
      (counts_detach hdetach).trans (counts_silent hrelease trivial _)
    have hfinished : w.Counts r.stats w₃ stats := hreleased.trans (counts_silent hfinish trivial _)
    refine ⟨hfinished.trans (counts_deliver hdeliver stats), ?_⟩
    rintro report ⟨⟩
    rfl

/-- A start that is not accepted leaves the counters alone, and one that is accepted begins anew. -/
theorem counts_start {result : Except CaptureError Unit}
    (h : (r.start id now).Ends Acts w (result, r') w') :
    (∃ e, result = .error e ∧ w.Counts r.stats w' r'.stats) ∨
      result = .ok () ∧ r'.stats = .zero := by
  rcases ends_start h with ⟨-, rfl, rfl, rfl⟩ | ⟨-, attached, w₁, hattach, ⟨e, -, rfl, rfl, rfl⟩ |
    ⟨sources, w₂, told, -, -, -, rfl, rfl⟩⟩
  · exact .inl ⟨_, rfl, counts_refl _ _⟩
  · exact .inl ⟨e, rfl, counts_attachTo hattach r.stats⟩
  · exact .inr ⟨rfl, rfl⟩

@[simp] theorem stats_move (r : Recorder) (now : Nat) (move : CaptureMove) :
    (r.move now move).stats = r.stats := by
  cases move <;> simp only [Recorder.move, offer, starve, onPump] <;> split <;> rfl

end Recorder

/-! ### Services that count -/

namespace Service

variable {s s' s₀ : Service} {happening : Happening} {happenings first later : List Happening}
  {config : RecorderConfig} {store : Store}

/-- Every step but a start that is accepted goes on counting. -/
theorem Step.counts (h : Step s happening s') (hgoing : happening.started? = none) :
    s.world.Counts s.recorder.stats s'.world s'.recorder.stats := by
  cases h with
  | @request r w reply r' w' request now h =>
    have hrespond := Recorder.ends_respond h
    cases request with
    | start id =>
      obtain ⟨result, rfl, hstart⟩ := hrespond
      rcases Recorder.counts_start hstart with ⟨e, -, hcounts⟩ | ⟨rfl, -⟩
      · exact hcounts
      · cases hgoing
    | pause =>
      obtain ⟨result, -, hpause⟩ := hrespond
      exact Recorder.counts_pause hpause
    | resume =>
      obtain ⟨result, -, hresume⟩ := hrespond
      exact Recorder.counts_resume hresume
    | stop =>
      obtain ⟨result, -, hstop⟩ := hrespond
      exact (Recorder.counts_stop hstop).1
    | ping =>
      obtain ⟨-, rfl, rfl⟩ := hrespond
      exact Logged.counts_refl _ _
    | shutDown =>
      obtain ⟨-, hshutDown⟩ := hrespond
      rcases Recorder.ends_shutDown hshutDown with ⟨-, rfl, rfl⟩ | ⟨-, result, hstop⟩
      · exact Logged.counts_refl _ _
      · exact (Recorder.counts_stop hstop).1
  | event h => exact Recorder.counts_handleNext h
  | @capture r w move now =>
    have hsame : w.Counts r.stats w (r.move now move).stats := by
      rw [Recorder.stats_move]
      exact Logged.counts_refl _ _
    exact hsame

/-- A start that is accepted begins to count. -/
theorem Step.stats_started (h : Step s happening s') (hstarted : happening.started? ≠ none) :
    s'.recorder.stats = .zero := by
  cases h with
  | @request r w reply r' w' request now h =>
    cases request with
    | start id =>
      obtain ⟨result, rfl, hstart⟩ := Recorder.ends_respond h
      rcases Recorder.counts_start hstart with ⟨e, rfl, -⟩ | ⟨-, hzero⟩
      · exact absurd rfl hstarted
      · exact hzero
    | _ => exact absurd rfl hstarted
  | event h => exact absurd rfl hstarted
  | capture move now => exact absurd rfl hstarted

theorem Run.counts (h : Run s happenings s')
    (hgoing : ∀ happening ∈ happenings, happening.started? = none) :
    s.world.Counts s.recorder.stats s'.world s'.recorder.stats := by
  induction h with
  | nil => exact Logged.counts_refl _ _
  | snoc _ hstep ih =>
    exact (ih fun happening hmem => hgoing happening (List.mem_append_left _ hmem)).trans
      (hstep.counts (hgoing _ (List.mem_append_right _ List.mem_cons_self)))

/-- A service that begins to count: it is new, or it has just accepted a start. -/
inductive Begun (config : RecorderConfig) (store : Store) : List Happening → Service → Prop where
  | fresh : Begun config store [] (fresh config store)
  | started {s s' : Service} {happenings : List Happening} {happening : Happening} :
      Run (Service.fresh config store) happenings s → Step s happening s' →
      happening.started? ≠ none → Begun config store (happenings ++ [happening]) s'

theorem Begun.stats_eq (h : Begun config store first s₀) : s₀.recorder.stats = .zero := by
  cases h with
  | fresh => rfl
  | started _ hstep hstarted => exact hstep.stats_started hstarted

/-- Every state comes some steps after the last start that was accepted, or after the service was
new. -/
theorem Run.exists_begun (h : Run (fresh config store) happenings s) :
    ∃ first later s₀, happenings = first ++ later ∧ Begun config store first s₀ ∧
      Run s₀ later s ∧ ∀ happening ∈ later, happening.started? = none := by
  generalize hfresh : fresh config store = origin at h
  induction h with
  | nil =>
    subst hfresh
    exact ⟨[], [], _, rfl, .fresh, .nil, List.forall_mem_nil _⟩
  | @snoc happenings s happening s' hrun hstep ih =>
    subst hfresh
    -- Counting goes on with the last step, or it begins with it.
    by_cases hstarted : happening.started? = none
    · obtain ⟨first, later, s₀, rfl, hbegun, hlater, hnone⟩ := ih
      refine ⟨first, later ++ [happening], s₀, List.append_assoc .., hbegun, hlater.snoc hstep, ?_⟩
      intro other hother
      rcases List.mem_append.mp hother with hother | hother
      · exact hnone other hother
      · rwa [List.mem_singleton.mp hother]
    · exact ⟨_, [], s', (List.append_nil _).symm, .started hrun hstep hstarted, .nil,
        List.forall_mem_nil _⟩

end Service

/-- Everything is in order exactly if no append failed and no error was told. -/
theorem Snapshot.isHealthy_iff {timestamp : String} {uptime : Nat} {status : ServiceStatus}
    {calls : List LoggedCall} {results : List (Except StoreError AppendReport)}
    (h : status.stats = tally calls results) :
    (Snapshot.mk timestamp uptime status).isHealthy = true ↔
      (∀ result ∈ results, result.isOk = true) ∧
        ∀ message ∈ told calls, message.kind ≠ .captureError := by
  rw [isHealthy, Bool.and_eq_true, beq_iff_eq, beq_iff_eq, h]
  simp [tally, failedAppends, List.countP_eq_zero]

namespace Service

variable {s : Service} {happenings : List Happening} {config : RecorderConfig} {store : Store}

/-- In every state of a service, the counters are what was told and appended since the last start
that was accepted. Only such a start makes them begin anew, and every other step goes on counting. A
stop reports the appends that failed, those of the last events included. A ping tells the counters,
and they show that everything is in order exactly if no append failed and no error was told. -/
theorem Run.stats_eq_tally (h : Run (fresh config store) happenings s) :
    ∃ first later s₀ calls results,
      happenings = first ++ later ∧ Begun config store first s₀ ∧ Run s₀ later s ∧
      (∀ happening ∈ later, happening.started? = none) ∧
      s.world.calls = s₀.world.calls ++ calls ∧ Appended calls results ∧
      calls.countP LoggedCall.refused = failedAppends results ∧
      s.recorder.stats = tally calls results ∧
      (∀ happening s', Step s happening s' →
        (happening.started? ≠ none → s'.recorder.stats = .zero) ∧
        (happening.started? = none → ∃ last lastResults,
          s'.world.calls = s.world.calls ++ last ∧ Appended last lastResults ∧
          s'.recorder.stats = tally (calls ++ last) (results ++ lastResults))) ∧
      (∀ before report s', Step s (.handled before .stop (.stopped (.ok report))) s' →
        ∃ last lastResults, s'.world.calls = s.world.calls ++ last ∧ Appended last lastResults ∧
          report.persistenceFailures = failedAppends (results ++ lastResults)) ∧
      ∀ before status s', Step s (.handled before .ping (.status status)) s' →
        s'.world = s.world ∧ status.stats = tally calls results ∧
        ∀ timestamp uptime, (Snapshot.mk timestamp uptime status).isHealthy = true ↔
          (∀ result ∈ results, result.isOk = true) ∧
            ∀ message ∈ told calls, message.kind ≠ .captureError := by
  obtain ⟨first, later, s₀, hsplit, hbegun, hlater, hnone⟩ := h.exists_begun
  obtain ⟨calls, results, hcalls, happended, hstats⟩ := hlater.counts hnone
  rw [hbegun.stats_eq, SessionStats.zero_add] at hstats
  have hgoes : ∀ happening s', Step s happening s' → happening.started? = none →
      ∃ last lastResults, s'.world.calls = s.world.calls ++ last ∧ Appended last lastResults ∧
        s'.recorder.stats = tally (calls ++ last) (results ++ lastResults) := by
    intro happening s' hstep hgoing
    obtain ⟨last, lastResults, hlast, happended', hstats'⟩ := hstep.counts hgoing
    rw [hstats, ← tally_append] at hstats'
    exact ⟨last, lastResults, hlast, happended', hstats'⟩
  refine ⟨first, later, s₀, calls, results, hsplit, hbegun, hlater, hnone, hcalls, happended,
    happended.countP_refused, hstats, ?_, ?_, ?_⟩
  · exact fun happening s' hstep => ⟨hstep.stats_started, hgoes happening s' hstep⟩
  · intro before report s' hstep
    obtain ⟨last, lastResults, hlast, happended', hstats'⟩ := hgoes _ s' hstep rfl
    refine ⟨last, lastResults, hlast, happended', ?_⟩
    cases hstep with
    | request request now hresponds =>
      obtain ⟨result, hreply, hstop⟩ := Recorder.ends_respond hresponds
      rw [(Recorder.counts_stop hstop).2 report (RecorderReply.stopped.inj hreply).symm]
      exact congrArg SessionStats.persistenceFailures hstats'
  · intro before status s' hstep
    cases hstep with
    | request request now hresponds =>
      obtain ⟨hreply, -, hworld⟩ := Recorder.ends_respond hresponds
      have hstatus : status.stats = tally calls results := by
        rw [RecorderReply.status.inj hreply]
        exact hstats
      exact ⟨hworld, hstatus, fun timestamp uptime => Snapshot.isHealthy_iff hstatus⟩

end Service

namespace Logged

/-- Nothing fails but the look at the status of a measurement. -/
def serveBlind : (c : RecorderCall) → Logged → RecorderAnswer c × Logged
  | .store (.status id), w =>
    let answer := StoreCall.failure "disk I/O error" (.status id)
    (answer, ⟨w.store, w.calls ++ [⟨.store (.status id), answer⟩]⟩)
  | c, w => serve c w

theorem acts_serveBlind (c : RecorderCall) (w : Logged) :
    Acts c w (serveBlind c w).1 (serveBlind c w).2 := by
  cases c with
  | store c =>
    cases c with
    | status id => exact ⟨.inr ⟨"disk I/O error", rfl, rfl⟩, rfl⟩
    | _ => exact acts_serve _ w
  | _ => exact acts_serve _ w

end Logged

namespace Service

/-- A location and a sample. -/
def placeAndTurn : List Reading :=
  [.location ⟨0, .zero, .zero, .zero, .zero⟩, .sample ⟨.rotation, .zero, .zero, .zero, 0⟩]

/-- The database fails, so neither can be stored. The sample is handled while the session is
stopped, and is counted in the report. -/
theorem stats_eq_tally_placeAndTurn :
    ∃ s s' calls results last lastResults,
      Run (fresh ⟨1, 1, 1, 1⟩ oneOpen) [.handled .idle (.start ⟨1⟩) (.finished (.ok ())),
        .captured placeAndTurn, .captured [], .event] s ∧
      Appended calls results ∧ tally calls results = ⟨1, 0, 0, 1, 0⟩ ∧
      Step s (.handled .running .stop (.stopped (.ok ⟨⟨1⟩, true, 2⟩))) s' ∧
      Appended last lastResults ∧ failedAppends (results ++ lastResults) = 2 := by
  obtain ⟨r, w, hrun, hstats, hrunning, hreply⟩ : ∃ r w,
      Run (fresh ⟨1, 1, 1, 1⟩ oneOpen) [.handled .idle (.start ⟨1⟩) (.finished (.ok ())),
        .captured placeAndTurn, .captured [], .event] ⟨r, w, false⟩ ∧
      r.stats = ⟨1, 0, 0, 1, 0⟩ ∧ r.session.state = .running ∧
      ((r.respond 3 .stop).run Logged.serveBlind w).1.1 = .stopped (.ok ⟨⟨1⟩, true, 2⟩) :=
    ⟨_, _, Run.nil |>.snoc (step_respond (.start ⟨1⟩) 0 rfl)
        |>.snoc (.capture (.offer placeAndTurn) 1) |>.snoc (.capture .take 2)
        |>.snoc (.event (.of_run Logged.acts_serveBlind _ _)), rfl, rfl, rfl⟩
  have hstop := step_served Logged.acts_serveBlind (r := r) (w := w) .stop 3 rfl
  rw [hrunning, hreply] at hstop
  obtain ⟨first, later, s₀, calls, results, -, -, -, -, -, happended, -, htally, -, hreport, -⟩ :=
    hrun.stats_eq_tally
  obtain ⟨last, lastResults, -, happended', hfailed⟩ := hreport _ _ _ hstop
  exact ⟨_, _, calls, results, last, lastResults, hrun, happended, htally.symm.trans hstats,
    hstop, happended', hfailed.symm⟩

end Service

end TripRecorder
