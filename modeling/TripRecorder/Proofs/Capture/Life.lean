import TripRecorder.Proofs.Capture.Attachment
import TripRecorder.Proofs.Capture.Calls
import TripRecorder.Proofs.Capture.Moves

/-!
# The life of a capture

A capture is started, readings arrive and are taken in, and it is closed, perhaps more than once. A
start that fails leaves nothing attached. After one that succeeds, nothing is detached until the
first time the capture is closed, and then everything is, once. Whether the pump still ran then, or
had ended because no sink was left, every reading that it had accepted was taken in once, in the
order of arrival, and what was buffered was released at the end.

## Main definitions

* `AttachedCapture.start`, `AttachedCapture.close` — what a start and a closing ask of the hardware
* `CaptureLife`, `CaptureLife.Lived` — all that happened to a capture since its start
* `Pump.Fed` — every reading was taken in once, or waits

## Main results

* `Pump.Fed.move` — a move of the pump takes in readings that waited, each once
* `CaptureBench.exists_lived` — what is done with a capture on the bench is a life
* `AttachedCapture.start_close_balanced` — attaching and detaching are balanced
-/

namespace TripRecorder

/-! ### What a pump was fed with -/

namespace Pump

variable {p : Pump} {i : Intake} {accepted : List Reading} {events : List CaptureEvent} {now : Nat}

/-- The readings that were accepted and the events that were emitted are those of an intake that was
called with the readings, each once and in their order. While the pump runs, the last of them may
wait in the queue; when it ended, the buffer was released for the last time. -/
def Fed (p : Pump) (i : Intake) (accepted : List Reading) (events : List CaptureEvent) : Prop :=
  if p.isRunning then
    ∃ calls, accepted = calls.flatMap IntakeCall.readings ++ p.queue ∧
      p.intake = i.after calls ∧ events = i.emitted calls
  else
    ∃ calls last, accepted = calls.flatMap IntakeCall.readings ∧
      events = i.emitted (calls ++ [.flush last])

theorem fed_iff_of_running (h : p.isRunning = true) : p.Fed i accepted events ↔
    ∃ calls, accepted = calls.flatMap IntakeCall.readings ++ p.queue ∧
      p.intake = i.after calls ∧ events = i.emitted calls := by
  rw [Fed, if_pos h]

theorem fed_iff_of_ended (h : p.isRunning = false) : p.Fed i accepted events ↔
    ∃ calls last, accepted = calls.flatMap IntakeCall.readings ∧
      events = i.emitted (calls ++ [.flush last]) := by
  rw [Fed, if_neg (ne_true_of_eq_false h)]

theorem fed_start (threshold intervalMs now : Nat) :
    (start threshold intervalMs now).Fed (Intake.fresh threshold intervalMs now) [] [] := by
  unfold Fed
  split
  · exact ⟨[], rfl, rfl, rfl⟩
  · -- A pump that never ran has an empty buffer to release.
    exact ⟨[], now, rfl, rfl⟩

theorem Fed.offer (h : p.Fed i accepted events) (readings : List Reading) :
    (p.offer readings).1.Fed i (accepted ++ p.accepted (.offer readings)) events := by
  cases hrunning : p.isRunning with
  | false => simpa [Pump.accepted, offer_of_ended hrunning] using h
  | true =>
    obtain ⟨calls, rfl, hintake, hevents⟩ := (fed_iff_of_running hrunning).mp h
    have hlonger : ({ p with queue := p.queue ++ readings } : Pump).isRunning = true := hrunning
    rw [Pump.accepted, offer_of_running hrunning]
    refine (fed_iff_of_running hlonger).mpr ⟨calls, ?_, hintake, hevents⟩
    simp

theorem Fed.step (h : p.Fed i accepted events) :
    (p.step now).1.Fed i accepted (events ++ (p.step now).2) := by
  unfold Pump.step
  split
  · rename_i r rest hrunning hqueue
    obtain ⟨calls, rfl, hintake, rfl⟩ := (fed_iff_of_running hrunning).mp h
    have hshorter : ({ p with intake := (p.intake.handle now r).1, queue := rest } :
        Pump).isRunning = true := hrunning
    -- The reading that waited longest is the next call.
    refine (fed_iff_of_running hshorter).mpr ⟨calls ++ [.handle now r], ?_, ?_, ?_⟩
    · simp [hqueue, IntakeCall.readings]
    · rw [Intake.after_append, ← hintake]
      rfl
    · rw [Intake.emitted_append, ← hintake]
      simp [Intake.call]
  · simpa using h

theorem Fed.tick (h : p.Fed i accepted events) :
    (p.tick now).1.Fed i accepted (events ++ (p.tick now).2) := by
  rcases tick_cases p now with hnone | ⟨t, ht, -, htick⟩
  · rw [hnone]
    simpa using h
  · have hrunning : p.isRunning = true := by rw [isRunning, ht, Option.isSome_some]
    obtain ⟨calls, rfl, hintake, rfl⟩ := (fed_iff_of_running hrunning).mp h
    rw [htick]
    refine (fed_iff_of_running rfl).mpr ⟨calls ++ [.tick now], ?_, ?_, ?_⟩
    · simp [IntakeCall.readings]
    · rw [Intake.after_append, ← hintake]
      rfl
    · rw [Intake.emitted_append, ← hintake]
      simp [Intake.call]

theorem Fed.close (h : p.Fed i accepted events) :
    (p.close now).1.Fed i accepted (events ++ (p.close now).2) := by
  cases hrunning : p.isRunning with
  | false => simpa [Pump.close, hrunning] using h
  | true =>
    obtain ⟨calls, rfl, hintake, rfl⟩ := (fed_iff_of_running hrunning).mp h
    -- What waits is taken in before the last release.
    refine (fed_iff_of_ended isRunning_close).mpr ⟨calls ++ p.queue.map (.handle now), now, ?_, ?_⟩
    · simp [List.flatMap_map, IntakeCall.readings]
    · rw [List.append_assoc, Intake.emitted_append, Intake.emitted_append, ← hintake, Pump.close,
        if_pos hrunning, Intake.handleAll_eq]
      simp [Intake.call]

theorem Fed.move (h : p.Fed i accepted events) (m : CaptureMove) :
    (p.move now m).1.Fed i (accepted ++ p.accepted m) (events ++ (p.move now m).2) := by
  cases m with
  | offer readings => simpa [Pump.move] using h.offer readings
  | take => simpa [Pump.move, Pump.accepted] using h.step
  | tick => simpa [Pump.move, Pump.accepted] using h.tick
  | starve => simpa [Pump.move, Pump.accepted] using h.close

end Pump

/-! ### Start and closing -/

/-- A capture whose sensors were attached. -/
structure AttachedCapture where
  /-- Sources of readings beside the fix source. -/
  sources : Nat
  pump : Pump
  /-- It was closed by request. -/
  closed : Bool
deriving DecidableEq, Repr

namespace AttachedCapture

/-- Attaches the sensors, and starts the pump if that succeeds. -/
def start (config : CaptureConfig) (sources now : Nat) :
    Procedure HardwareAnswer (Except CaptureError AttachedCapture) :=
  (attachSensors sources).bind fun
    | .error e => .done (.error e)
    | .ok () =>
      .done (.ok ⟨sources, Pump.start config.flushThreshold config.flushIntervalMs now, false⟩)

/-- Detaches the sensors and ends the pump, the first time. -/
def close (c : AttachedCapture) (now : Nat) :
    Procedure HardwareAnswer (AttachedCapture × List CaptureEvent) :=
  if c.closed then .done (c, [])
  else (detachSensors c.sources).bind fun () =>
    .done (⟨c.sources, (c.pump.close now).1, true⟩, (c.pump.close now).2)

variable {config : CaptureConfig} {sources now : Nat} {c : AttachedCapture}
  {log : List (AnsweredCall HardwareAnswer)}

theorem follows_start {result : Except CaptureError AttachedCapture}
    (h : (start config sources now).Follows log (.done result)) :
    (result = .ok ⟨sources, Pump.start config.flushThreshold config.flushIntervalMs now, false⟩ ∧
      AttachedAll (SensorSlot.all sources) log) ∨
    ∃ e, result = .error e ∧ RolledBack [] (SensorSlot.all sources) e log := by
  obtain ⟨first, rest, attached, rfl, hattach, hdone⟩ := Procedure.follows_bind_done_iff.mp h
  rcases follows_attachSensors hattach with ⟨rfl, hall⟩ | ⟨e, rfl, hback⟩
  · obtain ⟨rfl, heq⟩ := Procedure.follows_done_iff.mp hdone
    cases heq
    exact .inl ⟨rfl, (List.append_nil first).symm ▸ hall⟩
  · obtain ⟨rfl, heq⟩ := Procedure.follows_done_iff.mp hdone
    cases heq
    exact .inr ⟨e, rfl, (List.append_nil first).symm ▸ hback⟩

/-- A capture that was closed stays as it is, and any other is detached. -/
theorem follows_close {c' : AttachedCapture} {events : List CaptureEvent}
    (h : (c.close now).Follows log (.done (c', events))) :
    (c.closed = true ∧ log = [] ∧ c' = c ∧ events = []) ∨
    c.closed = false ∧ attempts log = [] ∧ (detached log).Perm (SensorSlot.all c.sources) ∧
      c' = ⟨c.sources, (c.pump.close now).1, true⟩ ∧ events = (c.pump.close now).2 := by
  unfold close at h
  split at h
  · rename_i hclosed
    obtain ⟨rfl, heq⟩ := Procedure.follows_done_iff.mp h
    cases heq
    exact .inl ⟨hclosed, rfl, rfl, rfl⟩
  · rename_i hopen
    obtain ⟨first, rest, ⟨⟩, rfl, hdetach, hdone⟩ := Procedure.follows_bind_done_iff.mp h
    obtain ⟨rfl, heq⟩ := Procedure.follows_done_iff.mp hdone
    cases heq
    obtain ⟨hattempts, hdetached⟩ := follows_detachSensors hdetach
    rw [List.append_nil]
    exact .inr ⟨eq_false_of_ne_true hopen, hattempts, hdetached, rfl, rfl⟩

end AttachedCapture

/-! ### Lives -/

/-- What happened to a capture so far. -/
structure CaptureLife where
  capture : AttachedCapture
  /-- What was asked of the hardware, and answered. -/
  log : List (AnsweredCall HardwareAnswer)
  /-- The readings that came in. -/
  accepted : List Reading
  events : List CaptureEvent
  /-- So often it was closed. -/
  closings : Nat

namespace CaptureLife

/-- The life after a move of the pump. -/
def move (life : CaptureLife) (now : Nat) (m : CaptureMove) : CaptureLife :=
  { life with
    capture := { life.capture with pump := (life.capture.pump.move now m).1 }
    accepted := life.accepted ++ life.capture.pump.accepted m
    events := life.events ++ (life.capture.pump.move now m).2 }

/-- All that can happen to a capture that was started: its pump makes moves, and it is closed, at
any times and in any order. -/
inductive Lived (config : CaptureConfig) (sources start : Nat) : CaptureLife → Prop where
  | start {c : AttachedCapture} {log : List (AnsweredCall HardwareAnswer)} :
      (AttachedCapture.start config sources start).Follows log (.done (.ok c)) →
      Lived config sources start ⟨c, log, [], [], 0⟩
  | move {life : CaptureLife} (now : Nat) (m : CaptureMove) :
      Lived config sources start life → Lived config sources start (life.move now m)
  | close {life : CaptureLife} {c : AttachedCapture} {events : List CaptureEvent}
      {log : List (AnsweredCall HardwareAnswer)} (now : Nat) :
      Lived config sources start life →
      (life.capture.close now).Follows log (.done (c, events)) →
      Lived config sources start
        ⟨c, life.log ++ log, life.accepted, life.events ++ events, life.closings + 1⟩

variable {config : CaptureConfig} {sources start : Nat} {life : CaptureLife}

/-- What holds of a capture all its life: its sensors were attached once, and detached with the
first closing, which ended the pump; and its pump was fed with every reading once. -/
structure Orderly (config : CaptureConfig) (sources start : Nat) (life : CaptureLife) : Prop where
  sources_eq : life.capture.sources = sources
  attempts_eq : attempts life.log = (SensorSlot.all sources).map (·, .ok ())
  opened : life.capture.closed = false → life.closings = 0 ∧ detached life.log = []
  closed : life.capture.closed = true → 0 < life.closings ∧
    (detached life.log).Perm (SensorSlot.all sources) ∧ life.capture.pump.isRunning = false
  fed : life.capture.pump.Fed (Intake.fresh config.flushThreshold config.flushIntervalMs start)
    life.accepted life.events

/-- A pump that has ended does not run again. -/
theorem isRunning_move {p : Pump} (h : p.isRunning = false) (now : Nat) (m : CaptureMove) :
    (p.move now m).1.isRunning = false := by
  cases m with
  | offer readings => rwa [Pump.move, Pump.offer_of_ended h]
  | take => exact Pump.isRunning_step.trans h
  | tick => exact Pump.isRunning_tick.trans h
  | starve => exact Pump.isRunning_close

theorem Orderly.move (h : Orderly config sources start life) (now : Nat) (m : CaptureMove) :
    Orderly config sources start (life.move now m) where
  sources_eq := h.sources_eq
  attempts_eq := h.attempts_eq
  opened := h.opened
  closed hclosed := by
    obtain ⟨hclosings, hdetached, hended⟩ := h.closed hclosed
    exact ⟨hclosings, hdetached, isRunning_move hended now m⟩
  fed := h.fed.move m

theorem Orderly.close (h : Orderly config sources start life) {now : Nat} {c : AttachedCapture}
    {events : List CaptureEvent} {log : List (AnsweredCall HardwareAnswer)}
    (hclose : (life.capture.close now).Follows log (.done (c, events))) :
    Orderly config sources start
      ⟨c, life.log ++ log, life.accepted, life.events ++ events, life.closings + 1⟩ := by
  rcases AttachedCapture.follows_close hclose with ⟨hclosed, rfl, rfl, rfl⟩ |
    ⟨hopen, hattempts, hdetached, rfl, rfl⟩
  · -- It was closed before, and stays as it is.
    obtain ⟨hclosings, hdetached, hended⟩ := h.closed hclosed
    rw [List.append_nil, List.append_nil]
    refine ⟨h.sources_eq, h.attempts_eq, fun hopen => ?_, fun _ => ?_, h.fed⟩
    · rw [hclosed] at hopen
      cases hopen
    · exact ⟨Nat.succ_pos _, hdetached, hended⟩
  · obtain ⟨hclosings, hnone⟩ := h.opened hopen
    refine ⟨h.sources_eq, ?_, fun hopen => ?_, fun _ => ⟨Nat.succ_pos _, ?_, ?_⟩, h.fed.close⟩
    · rw [attempts_append, hattempts, List.append_nil, h.attempts_eq]
    · cases hopen
    · rw [detached_append, hnone, List.nil_append, ← h.sources_eq]
      exact hdetached
    · exact Pump.isRunning_close

theorem Lived.orderly (h : Lived config sources start life) :
    Orderly config sources start life := by
  induction h with
  | start hstart =>
    rcases AttachedCapture.follows_start hstart with ⟨heq, hattempts, hdetached⟩ | ⟨e, heq, -⟩
    · cases heq
      exact ⟨rfl, hattempts, fun _ => ⟨rfl, hdetached⟩, nofun, Pump.fed_start _ _ start⟩
    · cases heq
  | move now m _ ih => exact ih.move now m
  | close now _ hclose ih => exact ih.close hclose

end CaptureLife

/-! ### Balance -/

namespace AttachedCapture

/-- A sensor before one that is attached later is another one. -/
theorem not_mem_before {sources : Nat} {before after : List SensorSlot} {failing : SensorSlot}
    (h : SensorSlot.all sources = before ++ failing :: after) : failing ∉ before := by
  have hnodup := SensorSlot.nodup_all sources
  rw [h, List.nodup_append] at hnodup
  obtain ⟨-, -, hdisjoint⟩ := hnodup
  exact fun hmem => hdisjoint failing hmem failing List.mem_cons_self rfl

/-- Whatever the hardware answers, a start comes to an end. If it fails, then with the error of a
sensor that could not be attached: those before it were attached and have been detached, each once,
that one was not detached, and none after it was asked for. If it succeeds, every sensor was
attached, and none has been detached as long as the capture was not closed. Closing it comes to an
end whenever that is asked for, and once it was closed, however often and whatever else happened to
it, every sensor has been detached exactly once, its stream of events has ended, and the events are
those of an intake that took in every reading exactly once, in the order of arrival, and then
released what was buffered. -/
theorem start_close_balanced (config : CaptureConfig) (sources start : Nat) :
    (∀ give : List (AnsweredCall HardwareAnswer) → (c : HardwareCall) → HardwareAnswer c,
      ∃ log result, (AttachedCapture.start config sources start).Follows log (.done result) ∧
        ∀ before e after, log = before ++ e :: after → e.answer = give before e.call) ∧
    (∀ log e, (AttachedCapture.start config sources start).Follows log (.done (.error e)) →
      ∃ before failing after, SensorSlot.all sources = before ++ failing :: after ∧
        attempts log = before.map (·, .ok ()) ++ [(failing, .error e)] ∧ failing ∉ before ∧
        ∀ slot, (detached log).count slot = if slot ∈ before then 1 else 0) ∧
    ∀ life, CaptureLife.Lived config sources start life →
      attempts life.log = (SensorSlot.all sources).map (·, .ok ()) ∧
      (life.closings = 0 → detached life.log = []) ∧
      (∀ now, ∃ log c events, (life.capture.close now).Follows log (.done (c, events))) ∧
      (0 < life.closings →
        (∀ slot, (detached life.log).count slot =
          if slot ∈ SensorSlot.all sources then 1 else 0) ∧
        life.capture.pump.isRunning = false ∧ Captured [life.accepted] life.events ∧
        ∃ calls last, life.accepted = calls.flatMap IntakeCall.readings ∧
          life.events = (Intake.fresh config.flushThreshold config.flushIntervalMs start).emitted
            (calls ++ [.flush last])) := by
  -- Where sensors are detached in some order without repetition, each is detached once.
  have hcount {slots : List SensorSlot} {log : List (AnsweredCall HardwareAnswer)}
      (hnodup : slots.Nodup) (hperm : (detached log).Perm slots) (slot : SensorSlot) :
      (detached log).count slot = if slot ∈ slots then 1 else 0 := by
    rw [hperm.count_eq, hnodup.count]
  refine ⟨fun give => Procedure.exists_follows_done give _, fun log e hfailed => ?_,
    fun life hlived => ?_⟩
  · rcases follows_start hfailed with ⟨heq, -⟩ |
      ⟨e', heq, before, failing, after, hslots, hattempts, hdetached⟩
    · cases heq
    · cases heq
      have hnodup : before.Nodup := by
        have hall := SensorSlot.nodup_all sources
        rw [hslots] at hall
        exact hall.of_append_left
      exact ⟨before, failing, after, hslots, hattempts, not_mem_before hslots,
        hcount hnodup hdetached⟩
  · have horderly := hlived.orderly
    refine ⟨horderly.attempts_eq, fun hnever => ?_, fun now => ?_, fun hclosings => ?_⟩
    · cases hclosed : life.capture.closed with
      | false => exact (horderly.opened hclosed).2
      | true => exact absurd hnever (Nat.ne_of_gt (horderly.closed hclosed).1)
    · -- A detached sensor has nothing to answer, so any hardware will do.
      obtain ⟨log, hclose⟩ := Procedure.exists_follows_run ScriptedSensors.serve
        (life.capture.close now) (ScriptedSensors.fresh 0 false .works)
      exact ⟨log, _, _, hclose⟩
    · have hclosed : life.capture.closed = true := by
        by_contra hopen
        exact Nat.ne_of_gt hclosings (horderly.opened (eq_false_of_ne_true hopen)).1
      obtain ⟨-, hdetached, hended⟩ := horderly.closed hclosed
      obtain ⟨calls, last, haccepted, hevents⟩ :=
        (Pump.fed_iff_of_ended hended).mp horderly.fed
      refine ⟨hcount (SensorSlot.nodup_all sources) hdetached, hended, ?_, calls, last, haccepted,
        hevents⟩
      -- The last call released what was buffered, so that nothing was left.
      have hhistory := (Intake.history_fresh config.flushThreshold config.flushIntervalMs
        start).calls calls
      have hcaptured := hhistory.captured_flush last
      rw [haccepted, hevents, Intake.emitted_append]
      simpa [Intake.call] using hcaptured

/-- Two sources, of which the second one cannot be attached. -/
def secondRefuses : List (AnsweredCall HardwareAnswer) :=
  [⟨.attachFix, .ok ()⟩, ⟨.attachSource 0, .ok ()⟩,
    ⟨.attachSource 1, .error (.capabilityUnavailable "gone")⟩, ⟨.detachSource 0, ()⟩,
    ⟨.detachFix, ()⟩]

/-- A capture with one source that is closed while a sample waits to be taken in, and once more. -/
def closedTwice : CaptureLife :=
  let sample : Sample := ⟨.rotation, .zero, .zero, .zero, 0⟩
  ⟨⟨1, ⟨(Intake.fresh 2 10 5).reset, [], none⟩, true⟩,
    [⟨.attachFix, .ok ()⟩, ⟨.attachSource 0, .ok ()⟩, ⟨.detachSource 0, ()⟩, ⟨.detachFix, ()⟩],
    [.sample sample], [.data ⟨[], [sample], []⟩], 2⟩

theorem lived_closedTwice : CaptureLife.Lived ⟨1, 2, 10, 0, 0, 0, 0⟩ 1 0 closedTwice := by
  let attached : List (AnsweredCall HardwareAnswer) :=
    [⟨.attachFix, .ok ()⟩, ⟨.attachSource 0, .ok ()⟩]
  have hstart : (AttachedCapture.start ⟨1, 2, 10, 0, 0, 0, 0⟩ 1 0).Follows attached
      (.done (.ok ⟨1, Pump.start 2 10 0, false⟩)) := .cons (.cons (.nil _))
  have hoffered := (CaptureLife.Lived.start hstart).move 1
    (.offer [.sample ⟨.rotation, .zero, .zero, .zero, 0⟩])
  have hclose : (AttachedCapture.close ⟨1, ⟨Intake.fresh 2 10 0,
      [.sample ⟨.rotation, .zero, .zero, .zero, 0⟩], some ⟨10, 0⟩⟩, false⟩ 5).Follows
      [⟨.detachSource 0, ()⟩, ⟨.detachFix, ()⟩]
      (.done (closedTwice.capture, closedTwice.events)) := .cons (.cons (.nil _))
  exact (hoffered.close 5 hclose).close 6 (.nil _)

/-- The sensors before the one that refused are detached once, and so are those of the capture that
was closed twice. -/
theorem balanced_closedTwice :
    (∀ slot, (detached secondRefuses).count slot = if slot ∈ [.fix, .source 0] then 1 else 0) ∧
    ∀ slot, (detached closedTwice.log).count slot =
      if slot ∈ SensorSlot.all 1 then 1 else 0 := by
  obtain ⟨-, hfailed, -⟩ := start_close_balanced ⟨1, 2, 10, 0, 0, 0, 0⟩ 2 0
  obtain ⟨-, -, hlived⟩ := start_close_balanced ⟨1, 2, 10, 0, 0, 0, 0⟩ 1 0
  obtain ⟨-, -, -, hclosed⟩ := hlived closedTwice lived_closedTwice
  refine ⟨?_, (hclosed (by decide)).1⟩
  obtain ⟨before, failing, after, -, hattempts, -, hdetached⟩ := hfailed secondRefuses _
    (.cons (.cons (.cons (.cons (.cons (.nil _))))))
  -- Those that were attached are the first ones that the transcript names.
  have hbefore : before = [.fix, .source 0] := by
    have hnames := congrArg (List.map Prod.fst) hattempts
    rw [List.map_append, List.map_map] at hnames
    have hfirst : [.fix, .source 0] ++ [.source 1] = before.map id ++ [failing] := hnames
    rw [List.map_id] at hfirst
    exact (List.append_inj' hfirst rfl).1.symm
  rwa [hbefore] at hdetached

end AttachedCapture

/-! ### Captures on the bench -/

theorem ScriptedSensors.count_run {α : Type} (p : Procedure HardwareAnswer α)
    (s : ScriptedSensors) :
    (p.run ScriptedSensors.serve s).2.count = s.count := by
  have hcall (c : HardwareCall) (s' : ScriptedSensors) (_ : True) (hs' : s'.count = s.count) :
      (ScriptedSensors.serve c s').2.count = s.count := by
    cases c with
    | attachFix =>
      simp only [ScriptedSensors.serve]
      split <;> exact hs'
    | attachSource index =>
      simp only [ScriptedSensors.serve]
      split <;> exact hs'
    | _ => exact hs'
  exact p.asks_true.run_keeps hcall rfl

namespace CaptureBench

variable {config : CaptureConfig} {sensors : ScriptedSensors} {b : CaptureBench}

/-- A capture on the bench without its sensors. -/
def attached (b : CaptureBench) : AttachedCapture := ⟨b.sensors.count, b.pump, b.closed⟩

/-- A start on the bench is a start that the scripted sensors answer. -/
theorem run_of_start (h : CaptureBench.start config sensors = .ok b) :
    (AttachedCapture.start config sensors.count 0).run ScriptedSensors.serve sensors =
      (.ok b.attached, b.sensors) := by
  have hcount := ScriptedSensors.count_run (attachSensors sensors.count) sensors
  rw [AttachedCapture.start, Procedure.run_bind]
  unfold CaptureBench.start at h
  split at h
  · cases h
  · rename_i s hattach
    rw [hattach] at hcount ⊢
    obtain rfl := Except.ok.inj h
    rw [attached, hcount]
    rfl

/-- A start that fails on the bench is one that the scripted sensors refuse. -/
theorem run_of_start_error {e : CaptureError} {sensors' : ScriptedSensors}
    (h : CaptureBench.start config sensors = .error (e, sensors')) :
    (AttachedCapture.start config sensors.count 0).run ScriptedSensors.serve sensors =
      (.error e, sensors') := by
  rw [AttachedCapture.start, Procedure.run_bind]
  unfold CaptureBench.start at h
  split at h
  · rename_i e' s hattach
    rw [hattach]
    cases h
    rfl
  · cases h

/-- So is a closing. -/
theorem run_close (b : CaptureBench) :
    (b.attached.close b.now).run ScriptedSensors.serve b.sensors =
      (((b.step true .close).1.attached, (b.step true .close).2.events),
        (b.step true .close).1.sensors) := by
  have hcount := ScriptedSensors.count_run (detachSensors b.sensors.count) b.sensors
  rw [AttachedCapture.close]
  cases hclosed : b.closed with
  | true => simp [attached, step, hclosed]
  | false => simp [attached, step, hclosed, Procedure.run_bind, hcount]

/-- Moves of the pump are moves of the capture. -/
theorem lived_moves {sources start : Nat} {life : CaptureLife}
    (h : CaptureLife.Lived config sources start life) (moves : List (Nat × CaptureMove)) :
    ∃ life', CaptureLife.Lived config sources start life' ∧
      life'.capture = { life.capture with pump := life.capture.pump.after moves } ∧
      life'.events = life.events ++ (life.capture.pump.emissions moves).map Prod.snd := by
  induction moves generalizing life with
  | nil => exact ⟨life, h, rfl, by simp [Pump.emissions]⟩
  | cons m rest ih =>
    obtain ⟨life', hlived, hcapture, hevents⟩ := ih (h.move m.1 m.2)
    refine ⟨life', hlived, hcapture, hevents.trans ?_⟩
    simp [CaptureLife.move, Pump.emissions, Function.comp_def]

theorem lived_plays {sources start now later : Nat} {life : CaptureLife}
    {moves : List (Nat × CaptureMove)} {events : List CaptureEvent} {p : Pump}
    (h : CaptureLife.Lived config sources start life)
    (hplays : life.capture.pump.Plays now moves events p later) :
    ∃ life', CaptureLife.Lived config sources start life' ∧
      life'.capture = { life.capture with pump := p } ∧ life'.events = life.events ++ events := by
  obtain ⟨life', hlived, hcapture, hevents⟩ := lived_moves h moves
  rw [hplays.after] at hcapture
  rw [hplays.events] at hevents
  exact ⟨life', hlived, hcapture, hevents⟩

/-- What a step of the bench does to a capture is a part of its life. -/
theorem lived_step {sources start : Nat} {life : CaptureLife}
    (h : CaptureLife.Lived config sources start life) (hcapture : life.capture = b.attached)
    (hgrid : b.pump.OnGrid 0 config.flushIntervalMs b.now) (hold : Bool) (s : CaptureStep) :
    ∃ life', CaptureLife.Lived config sources start life' ∧
      life'.capture = (b.step hold s).1.attached ∧
      life'.events = life.events ++ (b.step hold s).2.events := by
  -- Readings that are not held back are moves that come after the step itself.
  suffices hheld : ∃ life', CaptureLife.Lived config sources start life' ∧
      life'.capture = (b.step true s).1.attached ∧
      life'.events = life.events ++ (b.step true s).2.events by
    cases hold with
    | true => exact hheld
    | false =>
      obtain ⟨life', hlived, hattached, hevents⟩ := hheld
      obtain ⟨moves, hsettle⟩ := (b.step true s).1.pump.exists_plays_settle (b.step true s).1.now
      have hpump : life'.capture.pump = (b.step true s).1.pump := by rw [hattached]; rfl
      rw [← hpump] at hsettle
      obtain ⟨life'', hthen, hlast, hall⟩ := lived_plays hlived hsettle
      refine ⟨life'', hthen, ?_, ?_⟩
      · rw [hlast, hattached]
        rfl
      · rw [hall, hevents, List.append_assoc, hpump]
        rfl
  have hpump : life.capture.pump = b.pump := by rw [hcapture]; rfl
  cases s with
  | close =>
    obtain ⟨log, hlog⟩ := Procedure.exists_follows_run ScriptedSensors.serve
      (b.attached.close b.now) b.sensors
    rw [run_close, ← hcapture] at hlog
    exact ⟨_, h.close b.now hlog, rfl, rfl⟩
  | _ =>
    obtain ⟨moves, hplays⟩ := exists_plays_step hgrid true _
    rw [← hpump] at hplays
    obtain ⟨life', hlived, hlast, hevents⟩ := lived_plays h hplays
    exact ⟨life', hlived, by rw [hlast, hcapture]; rfl, hevents⟩

/-- Whatever is done with a capture on the bench is a life of it. -/
theorem exists_lived (hstart : CaptureBench.start config sensors = .ok b)
    (script : List (Bool × CaptureStep)) :
    ∃ life, CaptureLife.Lived config sensors.count 0 life ∧
      life.capture = (b.steps script).attached ∧ life.events = b.emitted script := by
  obtain ⟨log, hlog⟩ := Procedure.exists_follows_run ScriptedSensors.serve
    (AttachedCapture.start config sensors.count 0) sensors
  rw [run_of_start hstart] at hlog
  have hgrid : b.pump.OnGrid 0 config.flushIntervalMs b.now := by
    rw [(start_eq_ok hstart).2, now_of_start hstart]
    exact Pump.onGrid_start _ _ 0
  suffices hsteps : ∀ life, CaptureLife.Lived config sensors.count 0 life →
      life.capture = b.attached → ∃ life', CaptureLife.Lived config sensors.count 0 life' ∧
        life'.capture = (b.steps script).attached ∧
        life'.events = life.events ++ b.emitted script from
    hsteps _ (.start hlog) rfl
  clear hstart hlog
  induction script generalizing b with
  | nil => exact fun life h hcapture => ⟨life, h, hcapture, (List.append_nil _).symm⟩
  | cons x rest ih =>
    intro life h hcapture
    obtain ⟨life', hlived, hthen, hevents⟩ := lived_step h hcapture hgrid x.1 x.2
    obtain ⟨moves, hplays⟩ := exists_plays_step hgrid x.1 x.2
    have hlater := hgrid.after hplays.punctual
    rw [hplays.after] at hlater
    obtain ⟨life'', hlast, hend, hall⟩ := ih hlater life' hlived hthen
    refine ⟨life'', hlast, hend, ?_⟩
    rw [hall, hevents, List.append_assoc]
    rfl

end CaptureBench

end TripRecorder
