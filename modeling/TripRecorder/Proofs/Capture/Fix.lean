import Mathlib.Data.List.Destutter
import TripRecorder.Bench.FixSource
import TripRecorder.Proofs.Capture.Calls

/-!
# Changes of the fix

A fix source signals the state it sees, over and over. The intake reports a signal only where it
differs from the one before it, the first one from a lost fix, and whatever else is taken in between
two signals makes no difference. So the reports of an attached satellite source are the places at
which enough satellites came to contribute to the position, or no longer did.

## Main definitions

* `Reading.signals`, `CaptureEvent.changes` — the signals that come in, and the changes that go out
* `signalEvents` — the events that each signal led to
* `WatchEvent.reported` — what a feed reports until it ends

## Main results

* `Intake.call_of_no_signal`, `Intake.call_fix` — what a call does to the fix
* `Intake.fix_after`, `Intake.signalEvents_log` — the fix and its changes after any calls
* `FixBench.signals_satellite` — a satellite source signals every report of its feed
* `Intake.Renewed.reports_changes` — the changes that are emitted, after any calls
-/

namespace TripRecorder

/-- The signals among what comes in. -/
def Reading.signals : Reading → List FixSignal
  | .fix signal => [signal]
  | _ => []

/-- The changes of the fix among what goes out. -/
def CaptureEvent.changes : CaptureEvent → List FixSignal
  | .fixAcquired => [.acquired]
  | .fixLost => [.lost]
  | _ => []

@[simp] theorem CaptureEvent.changes_ofSignal (s : FixSignal) : (ofSignal s).changes = [s] := by
  cases s <;> rfl

/-- The signals that are taken in with a call. -/
def IntakeCall.signals (c : IntakeCall) : List FixSignal := c.readings.flatMap Reading.signals

/-- The signal that asserts a state. -/
def FixState.signal : FixState → FixSignal
  | noFix => .lost
  | fixed => .acquired

@[simp] theorem FixState.signal_ofSignal (s : FixSignal) : (ofSignal s).signal = s := by
  cases s <;> rfl

theorem FixState.eq_fixed_iff {state : FixState} : state = fixed ↔ state.signal = .acquired := by
  cases state <;> decide

theorem FixState.after_eq (state : FixState) (s : FixSignal) :
    state.after s = (ofSignal s, if state.signal = s then none else some s) := by
  cases state <;> cases s <;> rfl

/-- The events that each signal led to. -/
def signalEvents (log : List (IntakeCall × List CaptureEvent)) : List (List CaptureEvent) :=
  (log.filter fun e => !e.1.signals.isEmpty).map Prod.snd

/-! ### The fix after any calls -/

namespace Intake

section

variable {i : Intake} {c : IntakeCall}

/-- Without a signal the fix stays as it is, and no change of it is reported. -/
theorem call_of_no_signal (h : c.signals = []) (i : Intake) :
    (i.call c).1.fix = i.fix ∧ (i.call c).2.flatMap CaptureEvent.changes = [] := by
  have hflush (i : Intake) (now : Nat) : (i.flush now).2.flatMap CaptureEvent.changes = [] := by
    unfold flush
    split <;> rfl
  cases c with
  | handle now reading =>
    cases reading with
    | fix signal => cases h
    | location l =>
      simp only [call, handle]
      split <;> exact ⟨rfl, rfl⟩
    | sample s =>
      simp only [call, handle_sample]
      split
      · exact ⟨rfl, hflush _ now⟩
      · exact ⟨rfl, rfl⟩
    | unavailable source reason => exact ⟨rfl, rfl⟩
  | tick now =>
    simp only [call, tick]
    split
    · exact ⟨rfl, hflush i now⟩
    · exact ⟨rfl, rfl⟩
  | flush now => exact ⟨rfl, hflush i now⟩

/-- A signal decides on the fix, and is passed on if it differs from the one before it. -/
theorem call_fix (i : Intake) (now : Nat) (s : FixSignal) :
    (i.call (.handle now (.fix s))).1.fix = .ofSignal s ∧
      (i.call (.handle now (.fix s))).2 =
        if s = i.fix.signal then [] else [CaptureEvent.ofSignal s] := by
  simp only [call, handle, FixState.after_eq, true_and]
  by_cases heq : i.fix.signal = s
  · rw [if_pos heq, if_pos heq.symm]
    rfl
  · rw [if_neg heq, if_neg (Ne.symm heq)]
    rfl

/-- A call either brings no signal or is one. -/
theorem signals_cases (c : IntakeCall) :
    c.signals = [] ∨ ∃ now s, c = .handle now (.fix s) ∧ c.signals = [s] := by
  cases c with
  | handle now reading =>
    cases reading with
    | fix s => exact .inr ⟨now, s, rfl, rfl⟩
    | _ => exact .inl rfl
  | _ => exact .inl rfl

end

/-- The fix is what the last signal asserts, and the changes are the signals without those that
repeat the one before them. -/
theorem fix_after (i : Intake) (calls : List IntakeCall) :
    (i.after calls).fix.signal = (calls.flatMap IntakeCall.signals).getLastD i.fix.signal ∧
      i.fix.signal :: (i.emitted calls).flatMap CaptureEvent.changes =
        (calls.flatMap IntakeCall.signals).destutter' (· ≠ ·) i.fix.signal := by
  induction calls generalizing i with
  | nil => exact ⟨rfl, rfl⟩
  | cons c rest ih =>
    obtain ⟨hfix, hchanges⟩ := ih (i.call c).1
    rw [after_cons, emitted_cons, List.flatMap_append, List.flatMap_cons]
    rcases signals_cases c with hnone | ⟨now, s, rfl, hsignal⟩
    · obtain ⟨hkept, hsilent⟩ := call_of_no_signal hnone i
      rw [hkept] at hfix hchanges
      rw [hnone, hsilent, List.nil_append, List.nil_append]
      exact ⟨hfix, hchanges⟩
    · obtain ⟨hnow, hevents⟩ := call_fix i now s
      rw [hnow, FixState.signal_ofSignal] at hfix hchanges
      rw [hsignal, List.singleton_append, List.getLastD_cons, hevents]
      refine ⟨hfix, ?_⟩
      by_cases heq : s = i.fix.signal
      · rw [if_pos heq, List.destutter'_cons_neg _ (not_not.mpr heq.symm), ← heq, ← hchanges]
        rfl
      · rw [if_neg heq, List.destutter'_cons_pos _ (Ne.symm heq), ← hchanges]
        simp

/-- A signal leads to its event where it differs from the one before it. -/
theorem signalEvents_log (i : Intake) (calls : List IntakeCall) :
    signalEvents (i.log calls) =
      List.zipWith (fun before s => if s = before then [] else [CaptureEvent.ofSignal s])
        (i.fix.signal :: calls.flatMap IntakeCall.signals) (calls.flatMap IntakeCall.signals) := by
  induction calls generalizing i with
  | nil => rfl
  | cons c rest ih =>
    have hrest := ih (i.call c).1
    rw [List.flatMap_cons, log, signalEvents, List.filter_cons]
    rcases signals_cases c with hnone | ⟨now, s, rfl, hsignal⟩
    · rw [(call_of_no_signal hnone i).1] at hrest
      rw [hnone]
      exact hrest
    · obtain ⟨hnow, hevents⟩ := call_fix i now s
      rw [hnow, FixState.signal_ofSignal] at hrest
      rw [hsignal, hevents, List.singleton_append, List.zipWith_cons_cons, ← hrest]
      rfl

theorem Renewed.fix_eq {i : Intake} (h : i.Renewed) : i.fix = .noFix := by
  cases h <;> rfl

end Intake

/-! ### Satellite sources -/

/-- What a feed reports until it ends. -/
def WatchEvent.reported {Report : Type} : List (WatchEvent Report) → List Report
  | [] => []
  | .report value :: rest => value :: reported rest
  | .silence :: rest => reported rest
  | .ended :: _ => []

/-- A satellite source signals every report of its feed, as long as somebody listens. -/
theorem FixBench.signals_satellite (w : SatelliteWatcher)
    (feed : List (WatchEvent SatelliteStatus)) :
    FixBench.signals (fun w : SatelliteWatcher => w.step true) (some w) feed =
      (WatchEvent.reported feed).map w.signal := by
  induction feed with
  | nil => rfl
  | cons event rest ih =>
    cases event with
    | report status => exact congrArg (w.signal status :: ·) ih
    | silence => exact ih
    | ended => cases rest <;> rfl

namespace SatelliteWatcher

/-- Enough satellites contribute to the position. -/
def enough (w : SatelliteWatcher) (status : SatelliteStatus) : Bool := w.minimum ≤ status.used

/-- The signal that says whether enough satellites contribute. -/
def signalOf (enough : Bool) : FixSignal := if enough then .acquired else .lost

theorem signal_eq (w : SatelliteWatcher) (status : SatelliteStatus) :
    w.signal status = signalOf (w.enough status) := by
  simp only [signal, signalOf, enough, decide_eq_true_eq]

theorem signalOf_inj {a b : Bool} : signalOf a = signalOf b ↔ a = b := by
  cases a <;> cases b <;> decide

end SatelliteWatcher

namespace Intake

variable {i : Intake}

/-- Whatever an intake is called for since it was new or reset: the changes that it reports are the
signals it took in without those that repeat the one before them, where before the first one the fix
counts as lost. So they alternate and begin with a fix that was acquired. The fix is there exactly
if the last signal was that it was acquired, and a call without a signal neither touches it nor
leads to a change. When the signals are those of a satellite source, each report leads to a change
exactly if enough satellites contribute and did not at the report before, or the other way round. -/
theorem Renewed.reports_changes (h : i.Renewed) (calls : List IntakeCall) :
    let j := i.after calls
    let signals := calls.flatMap IntakeCall.signals
    let changes := (i.emitted calls).flatMap CaptureEvent.changes
    .lost :: changes = signals.destutter' (· ≠ ·) .lost ∧
    (FixSignal.lost :: changes).IsChain (· ≠ ·) ∧ changes.head? ≠ some .lost ∧
    (j.fix = .fixed ↔ signals.getLast? = some .acquired) ∧
    (∀ c : IntakeCall, c.signals = [] →
      (j.call c).1.fix = j.fix ∧ (j.call c).2.flatMap CaptureEvent.changes = []) ∧
    ∀ (w : SatelliteWatcher) (feed : List (WatchEvent SatelliteStatus)),
      signals = FixBench.signals (fun w : SatelliteWatcher => w.step true) (some w) feed →
      let enough := (WatchEvent.reported feed).map w.enough
      signalEvents (i.log calls) =
        List.zipWith (fun before now =>
          if now = before then [] else [if now then .fixAcquired else .fixLost])
          (false :: enough) enough := by
  intro j signals changes
  obtain ⟨hfix, hchanges⟩ := fix_after i calls
  rw [h.fix_eq] at hfix hchanges
  have hchain : (FixSignal.lost :: changes).IsChain (· ≠ ·) := by
    rw [show FixSignal.lost :: changes = _ from hchanges]
    exact List.isChain_destutter' _ _ _
  refine ⟨hchanges, hchain, fun hlost => ?_, ?_, fun c hc => call_of_no_signal hc j,
    fun w feed hsignals => ?_⟩
  · -- The first change would repeat that the fix is lost.
    obtain ⟨later, hlater⟩ := List.head?_eq_some_iff.mp hlost
    rw [hlater, List.isChain_cons_cons] at hchain
    exact hchain.1 rfl
  · have hlast : j.fix.signal = signals.getLast?.getD .lost :=
      hfix.trans List.getLastD_eq_getLast?
    rw [FixState.eq_fixed_iff, hlast, Option.getD_eq_iff]
    exact or_iff_left fun hnone => FixSignal.noConfusion hnone.2
  · have hreported : signals = (WatchEvent.reported feed).map w.signal :=
      hsignals.trans (FixBench.signals_satellite w feed)
    have hbits : signals = ((WatchEvent.reported feed).map w.enough).map
        SatelliteWatcher.signalOf := by
      rw [hreported, List.map_map]
      exact List.map_congr_left fun status _ => w.signal_eq status
    have hlog := signalEvents_log i calls
    rw [h.fix_eq, show calls.flatMap IntakeCall.signals = _ from hbits] at hlog
    rw [hlog, show FixState.signal .noFix = SatelliteWatcher.signalOf false from rfl,
      ← List.map_cons, List.zipWith_map]
    refine congrArg (fun f => List.zipWith f _ _) (funext₂ fun before now => ?_)
    simp only [SatelliteWatcher.signalOf_inj]
    cases now <;> rfl

/-- Reports of five, six and three satellites, with a sample and a tick in between. -/
def receding : List IntakeCall :=
  [.handle 1 (.fix .acquired), .handle 2 (.sample ⟨.rotation, .zero, .zero, .zero, 0⟩),
    .handle 3 (.fix .acquired), .tick 4, .handle 5 (.fix .lost)]

/-- Four satellites are enough: the fix is acquired with the first report and lost with the last. -/
theorem changes_receding :
    signalEvents ((fresh 2 100 0).log receding) = [[.fixAcquired], [], [.fixLost]] := by
  obtain ⟨-, -, -, -, -, hreports⟩ := (Renewed.fresh 2 100 0).reports_changes receding
  exact hreports ⟨4⟩ [.report ⟨9, 5⟩, .report ⟨9, 6⟩, .silence, .report ⟨9, 3⟩, .ended] rfl

end Intake

end TripRecorder
