import TripRecorder.Proofs.Capture.Fix
import TripRecorder.Proofs.Capture.Moves

/-!
# A watched fix

The watcher of a location feed and the intake of its capture each keep whether there is a fix. The
watcher signals every location and the first silence after one. The signals wait in the queue of the
pump, and the intake drops those that change nothing. Once the signals that wait are taken in, both
agree.

## Main definitions

* `Pump.settledFix` — the fix and its changes once all that waits is taken in
* `WatchedCapture`, `WatchMove` — a capture with the watcher of its only fix source, and its moves
* `WatchEvent.turns` — the changes of the fix that the events of a feed amount to
* `WatchedCapture.Agrees` — the watcher and the capture agree

## Main results

* `Pump.settles_move` — a move without signals settles what waits at most
* `WatchedCapture.Agrees.step`, `WatchedCapture.Agrees.run` — agreement is kept
* `WatchedCapture.agrees_start` — agreement and the changes of the fix after any moves
-/

namespace TripRecorder

/-! ### The fix once all that waits is taken in -/

namespace FixBench

theorem changes_cons (state : FixState) (s : FixSignal) (rest : List FixSignal) :
    changes state (s :: rest) =
      ((changes (state.after s).1 rest).1,
        (state.after s).2.toList ++ (changes (state.after s).1 rest).2) := rfl

theorem changes_append (state : FixState) (first rest : List FixSignal) :
    changes state (first ++ rest) =
      ((changes (changes state first).1 rest).1,
        (changes state first).2 ++ (changes (changes state first).1 rest).2) := by
  induction first generalizing state with
  | nil => rfl
  | cons s first ih => rw [List.cons_append, changes_cons, changes_cons, ih, List.append_assoc]

end FixBench

namespace Intake

/-- A reading that is taken in makes the changes of its signals. -/
theorem changes_handle (i : Intake) (now : Nat) (r : Reading) :
    ((i.handle now r).1.fix, (i.handle now r).2.flatMap CaptureEvent.changes) =
      FixBench.changes i.fix r.signals := by
  rcases signals_cases (.handle now r) with hnone | ⟨now', s, hcall, -⟩
  · have hsignals : r.signals = [] := (List.append_nil _).symm.trans hnone
    obtain ⟨hfix, hsilent⟩ := call_of_no_signal hnone i
    rw [hsignals]
    exact Prod.ext hfix hsilent
  · obtain ⟨rfl, rfl⟩ := IntakeCall.handle.inj hcall
    have hchange (change : Option FixSignal) :
        (change.map CaptureEvent.ofSignal).toList.flatMap CaptureEvent.changes =
          change.toList := by
      cases change with
      | none => rfl
      | some s => exact (List.flatMap_singleton _ _).trans (CaptureEvent.changes_ofSignal s)
    rw [Reading.signals, FixBench.changes_cons]
    exact Prod.ext rfl ((hchange _).trans (List.append_nil _).symm)

/-- Readings that are taken in make the changes of their signals. -/
theorem changes_handleAll (i : Intake) (now : Nat) (readings : List Reading) :
    ((i.handleAll now readings).1.fix,
      (i.handleAll now readings).2.flatMap CaptureEvent.changes) =
      FixBench.changes i.fix (readings.flatMap Reading.signals) := by
  induction readings generalizing i with
  | nil => rfl
  | cons r rest ih =>
    have hfirst := changes_handle i now r
    have hrest := ih (i.handle now r).1
    rw [List.flatMap_cons, FixBench.changes_append, ← hfirst, ← hrest, ← List.flatMap_append]
    rfl

end Intake

/-- The move offers no signals of a fix. -/
def CaptureMove.Unsignalled : CaptureMove → Prop
  | .offer readings => ∀ r ∈ readings, r.signals = []
  | _ => True

namespace Pump

variable {p : Pump} {now : Nat} {m : CaptureMove}

/-- The fix once all that waits is taken in, and the changes on the way. A pump that does not run
takes in nothing. -/
def settledFix (p : Pump) : FixState × List FixSignal :=
  if p.isRunning then FixBench.changes p.intake.fix (p.queue.flatMap Reading.signals)
  else (p.intake.fix, [])

theorem settledFix_of_running (h : p.isRunning = true) :
    p.settledFix = FixBench.changes p.intake.fix (p.queue.flatMap Reading.signals) := if_pos h

theorem settledFix_of_ended (h : p.isRunning = false) : p.settledFix = (p.intake.fix, []) := by
  rw [settledFix, h]
  rfl

theorem settle_of_running (h : p.isRunning = true) (now : Nat) :
    p.settle now = ({ p with intake := (p.intake.handleAll now p.queue).1, queue := [] },
      (p.intake.handleAll now p.queue).2) := if_pos h

theorem settle_of_ended (h : p.isRunning = false) (now : Nat) : p.settle now = (p, []) := by
  rw [settle, h]
  rfl

theorem settledFix_settle (p : Pump) (now : Nat) :
    ((p.settle now).1.intake.fix, (p.settle now).2.flatMap CaptureEvent.changes) =
      p.settledFix := by
  cases h : p.isRunning with
  | true =>
    rw [settle_of_running h, settledFix_of_running h]
    exact p.intake.changes_handleAll now p.queue
  | false =>
    rw [settle_of_ended h, settledFix_of_ended h]
    rfl

/-- Nothing is left to be taken in. -/
theorem settledFix_of_settled (p : Pump) (now : Nat) : (p.settle now).1.settledFix.2 = [] := by
  cases h : p.isRunning with
  | true =>
    have hrunning : (p.settle now).1.isRunning = true := isRunning_settle.trans h
    rw [settledFix_of_running hrunning, queue_settle h]
    rfl
  | false => rw [settle_of_ended h, settledFix_of_ended h]

/-- A pump that ended does not move. -/
theorem move_of_ended (h : p.isRunning = false) (now : Nat) (m : CaptureMove) :
    p.move now m = (p, []) := by
  obtain ⟨intake, queue, ticker⟩ := p
  cases ticker with
  | some t => cases h
  | none => cases m <;> rfl

/-- The pump takes in a reading. -/
theorem step_cons {r : Reading} {rest : List Reading} (h : p.isRunning = true)
    (hqueue : p.queue = r :: rest) (now : Nat) :
    p.step now = ({ p with intake := (p.intake.handle now r).1, queue := rest },
      (p.intake.handle now r).2) := by
  rw [step, h, hqueue]

theorem close_of_running (h : p.isRunning = true) (now : Nat) :
    p.close now =
      (⟨((p.intake.handleAll now p.queue).1.flush now).1.reset, [], none⟩,
        (p.intake.handleAll now p.queue).2 ++
          ((p.intake.handleAll now p.queue).1.flush now).2) := if_pos h

/-- What was to come of the signals that wait came, or is still to come. A pump that goes on comes
to the same fix, and one that ends has none. -/
structure Settles (p : Pump) (events : List CaptureEvent) (p' : Pump) : Prop where
  changes : events.flatMap CaptureEvent.changes ++ p'.settledFix.2 = p.settledFix.2
  fix : p'.isRunning = true → p'.settledFix.1 = p.settledFix.1
  ended : p'.isRunning = false → p'.intake.fix = .noFix

theorem settles_of_running {p' : Pump} {events : List CaptureEvent} (h : p'.isRunning = true)
    (hsame : (p'.settledFix.1, events.flatMap CaptureEvent.changes ++ p'.settledFix.2) =
      p.settledFix) : p.Settles events p' where
  changes := by rw [← hsame]
  fix _ := by rw [← hsame]
  ended hended := by
    rw [h] at hended
    cases hended

theorem settles_refl (h : p.isRunning = true) : p.Settles [] p := settles_of_running h rfl

/-- A move without signals settles signals that wait at most. -/
theorem settles_move (hm : m.Unsignalled) (h : p.isRunning = true) (now : Nat) :
    p.Settles (p.move now m).2 (p.move now m).1 := by
  -- A tick and the last release are calls without signals.
  have hsilent (c : IntakeCall) (hc : c.signals = []) (i : Intake) :
      (i.call c).1.fix = i.fix ∧ (i.call c).2.flatMap CaptureEvent.changes = [] :=
    Intake.call_of_no_signal hc i
  cases m with
  | offer readings =>
    have hsignals : readings.flatMap Reading.signals = [] := List.flatMap_eq_nil_iff.mpr hm
    have hrunning : isRunning { p with queue := p.queue ++ readings } = true := h
    rw [move, offer_of_running h]
    refine settles_of_running hrunning ?_
    rw [settledFix_of_running h, settledFix_of_running hrunning, List.flatMap_append, hsignals,
      List.append_nil]
    rfl
  | take =>
    cases hqueue : p.queue with
    | nil =>
      have hsame : p.step now = (p, []) := by rw [step, h, hqueue]
      rw [move, hsame]
      exact settles_refl h
    | cons r rest =>
      have hrunning :
          isRunning { p with intake := (p.intake.handle now r).1, queue := rest } = true := h
      rw [move, step_cons h hqueue]
      refine settles_of_running hrunning ?_
      rw [settledFix_of_running h, settledFix_of_running hrunning, hqueue, List.flatMap_cons,
        FixBench.changes_append, ← Intake.changes_handle p.intake now r]
  | tick =>
    rw [move]
    rcases tick_cases p now with hsame | ⟨t, -, -, htick⟩
    · rw [hsame]
      exact settles_refl h
    · obtain ⟨hfix, hnone⟩ := hsilent (.tick now) rfl p.intake
      have hrunning : (p.tick now).1.isRunning = true := isRunning_tick.trans h
      rw [htick] at hrunning ⊢
      refine settles_of_running hrunning ?_
      rw [settledFix_of_running h, settledFix_of_running hrunning]
      exact Prod.ext (by rw [← hfix]; rfl) (by rw [← hfix]; exact congrArg (· ++ _) hnone)
  | starve =>
    obtain ⟨-, hnone⟩ := hsilent (.flush now) rfl (p.intake.handleAll now p.queue).1
    have hchanges := congrArg Prod.snd (p.intake.changes_handleAll now p.queue)
    rw [move, close_of_running h]
    refine ⟨?_, fun hrunning => absurd hrunning Bool.false_ne_true, fun _ => rfl⟩
    rw [settledFix_of_running h, settledFix_of_ended rfl, List.flatMap_append, List.append_nil]
    exact (congrArg₂ _ hchanges hnone).trans (List.append_nil _)

theorem isRunning_offer (p : Pump) (readings : List Reading) :
    (p.offer readings).1.isRunning = p.isRunning :=
  congrArg Option.isSome (ticker_offer readings)

theorem offer_nil (p : Pump) : (p.offer []).1 = p := by
  unfold offer
  split
  · rw [List.append_nil]
  · rfl

/-- A signal that is offered is one more to come. -/
theorem settledFix_offer_fix (h : p.isRunning = true) (s : FixSignal) :
    (p.offer [.fix s]).1.settledFix =
      ((p.settledFix.1.after s).1, p.settledFix.2 ++ (p.settledFix.1.after s).2.toList) := by
  have hrunning : isRunning { p with queue := p.queue ++ [.fix s] } = true := h
  rw [offer_of_running h, settledFix_of_running h, settledFix_of_running hrunning,
    List.flatMap_append, FixBench.changes_append]
  refine Prod.ext rfl ?_
  exact congrArg (_ ++ ·) (List.append_nil _)

end Pump

/-! ### A capture and the watcher of its fix -/

/-- A capture with the watcher of its only fix source, until the watcher ends. -/
structure WatchedCapture where
  watcher : Option LocationWatcher
  pump : Pump
deriving DecidableEq, Repr

/-- What happens to a watched capture. -/
inductive WatchMove where
  /-- Something happens to the watcher. -/
  | watch (event : WatchEvent Unit)
  /-- The capture makes a move that brings no signals from elsewhere. -/
  | capture (m : CaptureMove) (unsignalled : m.Unsignalled)

namespace WatchedCapture

/-- A capture that starts, with a watcher that was just attached. -/
def start (threshold intervalMs now : Nat) : WatchedCapture :=
  ⟨some .fresh, Pump.start threshold intervalMs now⟩

/-- A move. What the watcher signals joins the queue of the pump, as long as it runs. -/
def step (c : WatchedCapture) (now : Nat) : WatchMove → WatchedCapture × List CaptureEvent
  | .watch event =>
    match c.watcher with
    | none => (c, [])
    | some w =>
      let (watcher, signal) := w.step c.pump.isRunning event
      (⟨watcher, (c.pump.offer (signal.toList.map .fix)).1⟩, [])
  | .capture m _ =>
    let (pump, events) := c.pump.move now m
    ({ c with pump := pump }, events)

/-- The capture after some moves. -/
def after (c : WatchedCapture) (moves : List (Nat × WatchMove)) : WatchedCapture :=
  moves.foldl (fun c m => (c.step m.1 m.2).1) c

/-- The capture after it took in all that waits. -/
def settle (c : WatchedCapture) (now : Nat) : WatchedCapture :=
  { c with pump := (c.pump.settle now).1 }

/-- The events that the capture emits with some moves. -/
def emitted (c : WatchedCapture) : List (Nat × WatchMove) → List CaptureEvent
  | [] => []
  | (now, m) :: rest => (c.step now m).2 ++ (c.step now m).1.emitted rest

/-- The event of a move that a watcher sees while the capture runs. -/
def sees (c : WatchedCapture) : WatchMove → List (WatchEvent Unit)
  | .watch event => if c.watcher.isSome && c.pump.isRunning then [event] else []
  | .capture _ _ => []

/-- The events that the watcher sees while the capture runs. -/
def seen (c : WatchedCapture) : List (Nat × WatchMove) → List (WatchEvent Unit)
  | [] => []
  | (now, m) :: rest => c.sees m ++ (c.step now m).1.seen rest

end WatchedCapture

namespace WatchEvent

/-- The change of the fix that an event amounts to, after the event before it: a location that does
not follow on another one, and a silence that follows on a location. -/
def turn (before : WatchEvent Unit) : WatchEvent Unit → List FixSignal
  | .report () => if before = .report () then [] else [.acquired]
  | .silence => if before = .report () then [.lost] else []
  | .ended => []

/-- The changes of the fix that events amount to. -/
def turns (before : WatchEvent Unit) : List (WatchEvent Unit) → List FixSignal
  | [] => []
  | event :: rest => turn before event ++ turns event rest

theorem turns_append (before : WatchEvent Unit) (first rest : List (WatchEvent Unit)) :
    turns before (first ++ rest) =
      turns before first ++ turns (first.getLastD before) rest := by
  induction first generalizing before with
  | nil => rfl
  | cons event first ih =>
    rw [List.cons_append, turns, turns, ih, List.append_assoc, List.getLastD_cons]

end WatchEvent

namespace WatchedCapture

variable {c : WatchedCapture} {before : WatchEvent Unit} {now : Nat}

/-- The watcher has a fix if a location was the last event it saw, and so will the capture once it
has taken in what waits. A capture that ended has none. -/
structure Agrees (c : WatchedCapture) (before : WatchEvent Unit) : Prop where
  watcher : c.pump.isRunning = true → ∀ w, c.watcher = some w →
    (w.hasFix = true ↔ before = .report ()) ∧ (w.hasFix = true ↔ c.pump.settledFix.1 = .fixed)
  ended : c.pump.isRunning = false → c.pump.intake.fix = .noFix

theorem step_watch_of_unwatched (hw : c.watcher = none) (now : Nat) (event : WatchEvent Unit) :
    c.step now (.watch event) = (c, []) := by
  rw [step, hw]

theorem step_capture_of_ended (hended : c.pump.isRunning = false) (now : Nat) {m : CaptureMove}
    (unsignalled : m.Unsignalled) : c.step now (.capture m unsignalled) = (c, []) := by
  rw [step, Pump.move_of_ended hended]

theorem sees_of_unwatched (hw : c.watcher = none) (m : WatchMove) : c.sees m = [] := by
  cases m with
  | watch event =>
    rw [sees, hw]
    rfl
  | capture m unsignalled => rfl

theorem sees_of_ended (hended : c.pump.isRunning = false) (m : WatchMove) : c.sees m = [] := by
  cases m with
  | watch event =>
    rw [sees, hended, Bool.and_false]
    rfl
  | capture m unsignalled => rfl

theorem step_watch (w : LocationWatcher) (hw : c.watcher = some w) (now : Nat)
    (event : WatchEvent Unit) :
    c.step now (.watch event) =
      (⟨(w.step c.pump.isRunning event).1,
        (c.pump.offer ((w.step c.pump.isRunning event).2.toList.map .fix)).1⟩, []) := by
  rw [step, hw]

theorem step_watch_of_no_signal (w : LocationWatcher) (hw : c.watcher = some w) (now : Nat)
    {event : WatchEvent Unit} (hnone : (w.step c.pump.isRunning event).2 = none) :
    c.step now (.watch event) = (⟨(w.step c.pump.isRunning event).1, c.pump⟩, []) := by
  rw [step_watch w hw, hnone, Option.toList_none, List.map_nil, Pump.offer_nil]

/-- A signal that differs from the one before it is a change. -/
theorem changes_after (state : FixState) (s : FixSignal) :
    (state.after s).2.toList = if state.signal = s then [] else [s] := by
  rw [FixState.after_eq]
  split_ifs <;> rfl

/-- A watcher that signalled an event agrees with a capture that was offered the signal. -/
theorem agrees_offer {p : Pump} (h : p.isRunning = true) (s : FixSignal)
    {event : WatchEvent Unit} (hevent : s = .acquired ↔ event = .report ()) :
    Agrees ⟨some ⟨s == .acquired⟩, (p.offer [.fix s]).1⟩ event where
  watcher _ w hw := by
    obtain rfl := Option.some.inj hw
    have hfix : (p.offer [.fix s]).1.settledFix.1 = .ofSignal s := by
      rw [Pump.settledFix_offer_fix h, FixState.after_eq]
    rw [hfix, FixState.eq_fixed_iff, FixState.signal_ofSignal, beq_iff_eq]
    exact ⟨hevent, Iff.rfl⟩
  ended hended := by
    rw [Pump.isRunning_offer, h] at hended
    cases hended

/-- An event that the watcher sees while the capture runs is signalled where it amounts to a change,
and changes nothing otherwise. -/
theorem Agrees.sees (h : c.Agrees before) (hrunning : c.pump.isRunning = true)
    {w : LocationWatcher} (hw : c.watcher = some w) (now : Nat) (event : WatchEvent Unit) :
    (c.step now (.watch event)).1.Agrees event ∧
      (c.step now (.watch event)).1.pump.settledFix.2 =
        c.pump.settledFix.2 ++ before.turn event := by
  obtain ⟨hbefore, hfix⟩ := h.watcher hrunning w hw
  -- The last signal that waits is that of the event before.
  have hsignal : c.pump.settledFix.1.signal = .acquired ↔ before = .report () :=
    FixState.eq_fixed_iff.symm.trans (hfix.symm.trans hbefore)
  have hchanges (s : FixSignal) : (c.pump.offer [.fix s]).1.settledFix.2 =
      c.pump.settledFix.2 ++ if c.pump.settledFix.1.signal = s then [] else [s] := by
    rw [Pump.settledFix_offer_fix hrunning, changes_after]
  have hstep := step_watch w hw now event
  rw [hrunning] at hstep
  cases event with
  | report =>
    rw [hstep]
    refine ⟨agrees_offer hrunning .acquired (iff_of_true rfl rfl), ?_⟩
    exact (hchanges .acquired).trans (congrArg (_ ++ ·) (if_congr hsignal rfl rfl))
  | silence =>
    obtain ⟨hasFix⟩ := w
    cases hasFix with
    | true =>
      -- The silence follows on a location, so the fix is lost.
      have hlast : before = .report () := hbefore.mp rfl
      have hacquired : ¬ c.pump.settledFix.1.signal = .lost := by
        rw [hsignal.mpr hlast]
        exact nofun
      rw [hstep]
      refine ⟨agrees_offer hrunning .lost (iff_of_false nofun nofun), ?_⟩
      refine (hchanges .lost).trans (congrArg (_ ++ ·) ?_)
      rw [if_neg hacquired, WatchEvent.turn, if_pos hlast]
    | false =>
      -- No location came since the fix was lost, or none at all.
      have hnone : before.turn .silence = [] := if_neg fun hlast => nomatch hbefore.mpr hlast
      have hsame : c.step now (.watch .silence) = (⟨some ⟨false⟩, c.pump⟩, []) :=
        step_watch_of_no_signal ⟨false⟩ hw now rfl
      rw [hsame, hnone, List.append_nil]
      refine ⟨⟨fun _ w hw => ?_, h.ended⟩, rfl⟩
      obtain rfl := Option.some.inj hw
      exact ⟨iff_of_false nofun nofun, hfix⟩
  | ended =>
    have hsame : c.step now (.watch .ended) = (⟨none, c.pump⟩, []) :=
      step_watch_of_no_signal w hw now rfl
    rw [hsame, WatchEvent.turn, List.append_nil]
    exact ⟨⟨fun _ _ hw => (nomatch hw), h.ended⟩, rfl⟩

theorem snd_step_watch (c : WatchedCapture) (now : Nat) (event : WatchEvent Unit) :
    (c.step now (.watch event)).2 = [] := by
  cases hw : c.watcher with
  | none => rw [step_watch_of_unwatched hw]
  | some w => rw [step_watch w hw]

theorem isRunning_step_watch (c : WatchedCapture) (now : Nat) (event : WatchEvent Unit) :
    (c.step now (.watch event)).1.pump.isRunning = c.pump.isRunning := by
  cases hw : c.watcher with
  | none => rw [step_watch_of_unwatched hw]
  | some w =>
    rw [step_watch w hw]
    exact Pump.isRunning_offer _ _

/-- A watcher that sees an event after the capture ended leaves the capture alone, and goes on only
without a fix. -/
theorem step_watch_of_ended (hended : c.pump.isRunning = false) (now : Nat)
    (event : WatchEvent Unit) :
    (c.step now (.watch event)).1.pump = c.pump ∧
      ∀ w, (c.step now (.watch event)).1.watcher = some w → w.hasFix = false := by
  cases hw : c.watcher with
  | none =>
    rw [step_watch_of_unwatched hw]
    exact ⟨rfl, fun w h => nomatch hw.symm.trans h⟩
  | some w =>
    rw [step_watch w hw, hended, Pump.offer_of_ended hended]
    refine ⟨rfl, fun w' hw' => ?_⟩
    -- A signal ends it, and only a silence without a fix sends none.
    obtain ⟨hasFix⟩ := w
    cases event <;> cases hasFix <;> first | cases hw'; rfl | cases hw'

/-- Every move keeps the agreement, and emits changes that were to come or that an event the watcher
sees amounts to. -/
theorem Agrees.step (h : c.Agrees before) (now : Nat) (m : WatchMove) :
    (c.step now m).1.Agrees ((c.sees m).getLastD before) ∧
      (c.step now m).2.flatMap CaptureEvent.changes ++ (c.step now m).1.pump.settledFix.2 =
        c.pump.settledFix.2 ++ before.turns (c.sees m) := by
  cases m with
  | watch event =>
    cases hw : c.watcher with
    | none =>
      rw [step_watch_of_unwatched hw, sees_of_unwatched hw]
      exact ⟨h, (List.append_nil _).symm⟩
    | some w =>
      rw [snd_step_watch]
      cases hrunning : c.pump.isRunning with
      | true =>
        obtain ⟨hagrees, hchanges⟩ := h.sees hrunning hw now event
        have hseen : c.sees (.watch event) = [event] := by
          rw [WatchedCapture.sees, hw, hrunning]
          rfl
        rw [hseen, WatchEvent.turns, WatchEvent.turns, List.append_nil]
        exact ⟨hagrees, hchanges⟩
      | false =>
        obtain ⟨hsame, -⟩ := step_watch_of_ended hrunning now event
        rw [sees_of_ended hrunning, WatchEvent.turns, List.append_nil, hsame]
        refine ⟨⟨fun hr => ?_, fun _ => hsame.symm ▸ h.ended hrunning⟩, rfl⟩
        rw [hsame, hrunning] at hr
        cases hr
  | capture m unsignalled =>
    rw [WatchedCapture.sees, WatchEvent.turns, List.append_nil]
    cases hrunning : c.pump.isRunning with
    | true =>
      have hsettles := Pump.settles_move unsignalled hrunning now
      refine ⟨⟨fun hr w hw => ?_, hsettles.ended⟩, hsettles.changes⟩
      obtain ⟨hbefore, hfix⟩ := h.watcher hrunning w hw
      exact ⟨hbefore, hfix.trans (by rw [← hsettles.fix hr]; rfl)⟩
    | false =>
      rw [step_capture_of_ended hrunning]
      exact ⟨h, rfl⟩

/-- Moves keep the agreement, and emit changes that were to come or that the events the watcher sees
amount to. -/
theorem Agrees.run (h : c.Agrees before) (moves : List (Nat × WatchMove)) :
    (c.after moves).Agrees ((c.seen moves).getLastD before) ∧
      (c.emitted moves).flatMap CaptureEvent.changes ++ (c.after moves).pump.settledFix.2 =
        c.pump.settledFix.2 ++ before.turns (c.seen moves) := by
  induction moves generalizing c before with
  | nil => exact ⟨h, (List.append_nil _).symm⟩
  | cons m rest ih =>
    obtain ⟨now, m⟩ := m
    obtain ⟨hfirst, hchanges⟩ := h.step now m
    obtain ⟨hrest, hothers⟩ := ih hfirst
    have hlast : (c.sees m ++ (c.step now m).1.seen rest).getLastD before =
        ((c.step now m).1.seen rest).getLastD ((c.sees m).getLastD before) := by
      rw [List.getLastD_eq_getLast?, List.getLast?_append, Option.getD_or,
        List.getLastD_eq_getLast?, List.getLastD_eq_getLast?]
    rw [emitted, seen, WatchEvent.turns_append, List.flatMap_append, hlast]
    refine ⟨hrest, ?_⟩
    calc (c.step now m).2.flatMap CaptureEvent.changes ++
          ((c.step now m).1.emitted rest).flatMap CaptureEvent.changes ++
          (c.after ((now, m) :: rest)).pump.settledFix.2
        = (c.step now m).2.flatMap CaptureEvent.changes ++
            ((c.step now m).1.pump.settledFix.2 ++
              ((c.sees m).getLastD before).turns ((c.step now m).1.seen rest)) := by
          rw [List.append_assoc, ← hothers]
          rfl
      _ = c.pump.settledFix.2 ++ (before.turns (c.sees m) ++
            ((c.sees m).getLastD before).turns ((c.step now m).1.seen rest)) := by
          rw [← List.append_assoc, hchanges, List.append_assoc]

theorem start_agrees (threshold intervalMs now : Nat) :
    (start threshold intervalMs now).Agrees .silence ∧
      (start threshold intervalMs now).pump.settledFix = (.noFix, []) := by
  have hsettled : (start threshold intervalMs now).pump.settledFix = (.noFix, []) := by
    cases hrunning : (start threshold intervalMs now).pump.isRunning with
    | true => exact Pump.settledFix_of_running hrunning
    | false => exact Pump.settledFix_of_ended hrunning
  refine ⟨⟨fun _ w hw => ?_, fun _ => rfl⟩, hsettled⟩
  obtain rfl := Option.some.inj hw
  rw [hsettled]
  exact ⟨iff_of_false nofun nofun, iff_of_false nofun nofun⟩

/-- What agreement says once a capture has taken in what waits. -/
theorem Agrees.fix_settle (h : c.Agrees before) (hrunning : c.pump.isRunning = true)
    {w : LocationWatcher} (hw : c.watcher = some w) (now : Nat) :
    (c.settle now).pump.intake.fix = .fixed ↔ w.hasFix = true := by
  have hfix := congrArg Prod.fst (c.pump.settledFix_settle now)
  exact (iff_of_eq (congrArg (· = FixState.fixed) hfix)).trans
    (h.watcher hrunning w hw).2.symm

/-- After a step of the watcher it agrees with the capture, also when this has ended. -/
theorem Agrees.fix_settle_step (h : c.Agrees before) (now : Nat) (event : WatchEvent Unit)
    {w : LocationWatcher} (hw : (c.step now (.watch event)).1.watcher = some w) (later : Nat) :
    ((c.step now (.watch event)).1.settle later).pump.intake.fix = .fixed ↔ w.hasFix = true := by
  cases hrunning : c.pump.isRunning with
  | true =>
    have hgoesOn := (isRunning_step_watch c now event).trans hrunning
    exact (h.step now (.watch event)).1.fix_settle hgoesOn hw later
  | false =>
    obtain ⟨hsame, hnone⟩ := step_watch_of_ended hrunning now event
    rw [settle, hsame, Pump.settle_of_ended hrunning, h.ended hrunning, hnone w hw]
    exact iff_of_false nofun nofun

/-! ### After the end -/

theorem seen_of_unwatched (h : c.watcher = none) (moves : List (Nat × WatchMove)) :
    c.seen moves = [] := by
  induction moves generalizing c with
  | nil => rfl
  | cons m rest ih =>
    obtain ⟨now, m⟩ := m
    have hrest : (c.step now m).1.watcher = none := by
      cases m with
      | watch event =>
        rw [step_watch_of_unwatched h]
        exact h
      | capture m unsignalled => exact h
    rw [seen, sees_of_unwatched h, ih hrest, List.append_nil]

/-- A capture that ended emits nothing. -/
theorem emitted_of_ended (h : c.pump.isRunning = false) (moves : List (Nat × WatchMove)) :
    c.emitted moves = [] := by
  induction moves generalizing c with
  | nil => rfl
  | cons m rest ih =>
    obtain ⟨now, m⟩ := m
    cases m with
    | watch event =>
      have hrest := (isRunning_step_watch c now event).trans h
      rw [emitted, snd_step_watch, ih hrest, List.append_nil]
    | capture m unsignalled =>
      rw [emitted, step_capture_of_ended h, ih h, List.append_nil]

/-- Once the watcher has ended and what waits is taken in, no change of the fix is emitted. -/
theorem Agrees.changes_of_unwatched (h : c.Agrees before) (hw : c.watcher = none) (now : Nat)
    (moves : List (Nat × WatchMove)) :
    ((c.settle now).emitted moves).flatMap CaptureEvent.changes = [] := by
  have hended (hr : (c.settle now).pump.isRunning = false) :
      (c.settle now).pump.intake.fix = .noFix := by
    have hr : c.pump.isRunning = false := Pump.isRunning_settle.symm.trans hr
    rw [settle, Pump.settle_of_ended hr, h.ended hr]
  have hagrees : (c.settle now).Agrees before :=
    ⟨fun _ _ hw' => (nomatch hw.symm.trans hw'), hended⟩
  have hunwatched : (c.settle now).watcher = none := hw
  have hnothing : (c.settle now).pump.settledFix.2 = [] := Pump.settledFix_of_settled c.pump now
  obtain ⟨-, hrun⟩ := hagrees.run moves
  rw [seen_of_unwatched hunwatched, WatchEvent.turns, List.append_nil, hnothing] at hrun
  exact (List.append_eq_nil_iff.mp hrun).1

/-- One attachment of a location watcher to a capture that starts, through any moves. The watcher
has a fix exactly if the last event it saw is a location, and exactly if the capture has one once it
has taken in what waits: at any time while the capture runs, and after each step of the watcher even
if it does not. The changes of the fix that the capture emitted, and those that are still to come
from what waits, are the turns of what the watcher saw: one where a location does not follow on
another, and one where a silence follows on a location. After the watcher ended no other changes are
emitted, and after the capture ended nothing at all. -/
theorem agrees_start (threshold intervalMs now : Nat) (moves : List (Nat × WatchMove)) :
    let c := (start threshold intervalMs now).after moves
    let seen := (start threshold intervalMs now).seen moves
    let emitted := (start threshold intervalMs now).emitted moves
    (c.pump.isRunning = true → ∀ w, c.watcher = some w →
      (w.hasFix = true ↔ seen.getLast? = some (.report ())) ∧
      ∀ later, (c.settle later).pump.intake.fix = .fixed ↔ w.hasFix = true) ∧
    (∀ time event w, (c.step time (.watch event)).1.watcher = some w → ∀ later,
      ((c.step time (.watch event)).1.settle later).pump.intake.fix = .fixed ↔
        w.hasFix = true) ∧
    (∀ later, emitted.flatMap CaptureEvent.changes ++
      (c.pump.settle later).2.flatMap CaptureEvent.changes = WatchEvent.silence.turns seen) ∧
    (c.watcher = none → ∀ later more,
      ((c.settle later).emitted more).flatMap CaptureEvent.changes = []) ∧
    (c.pump.isRunning = false → ∀ more, c.emitted more = []) := by
  intro c seen emitted
  obtain ⟨hstart, hsettled⟩ := start_agrees threshold intervalMs now
  obtain ⟨hagrees, hchanges⟩ := hstart.run moves
  refine ⟨fun hrunning w hw => ⟨?_, hagrees.fix_settle hrunning hw⟩,
    fun time event w hw => hagrees.fix_settle_step time event hw, fun later => ?_,
    hagrees.changes_of_unwatched, emitted_of_ended⟩
  · refine (hagrees.watcher hrunning w hw).1.trans ?_
    rw [List.getLastD_eq_getLast?, Option.getD_eq_iff]
    exact or_iff_left fun hnone => nomatch hnone.2
  · have hwaiting := congrArg Prod.snd (c.pump.settledFix_settle later)
    rw [hsettled, List.nil_append] at hchanges
    exact (congrArg (_ ++ ·) hwaiting).trans hchanges

/-- Two locations, a silence of more than two timeouts, and the end of the feed. -/
def walk : List (Nat × WatchMove) :=
  [(1, .watch (.report ())), (1, .capture .take trivial), (2, .watch (.report ())),
    (22, .watch .silence), (23, .capture .take trivial), (42, .watch .silence),
    (43, .capture .take trivial), (44, .watch .ended)]

/-- The fix is acquired once and lost once, and nothing comes after the end. -/
theorem agrees_start_walk :
    ((start 10 1000 0).emitted walk).flatMap CaptureEvent.changes = [.acquired, .lost] ∧
      ∀ more, ((((start 10 1000 0).after walk).settle 44).emitted more).flatMap
        CaptureEvent.changes = [] := by
  obtain ⟨-, -, hchanges, hended, -⟩ := agrees_start 10 1000 0 walk
  exact ⟨hchanges 44, hended rfl 44⟩

end WatchedCapture

end TripRecorder
