import Mathlib.Data.List.Induction
import TripRecorder.Bench.Capture

/-!
# Captures that keep running

A pump that runs goes on running, whatever arrives and however much time passes, until it is closed
or its last sink vanishes. So whether a capture takes what comes in through an attached sink is
decided when it starts, by the time between flushes. Without such a time there is no ticker, and the
attachment of the sensors succeeds all the same.

## Main definitions

* `Injection.ReachesIn`, `Injection.reaching`, `Injection.missing` — what comes in through an
  attached sink, and what does not
* `CaptureStep.GoesOn` — a step that ends no capture
* `CaptureBench.steps` — a capture after some steps
* `CaptureConfig.RunsOn` — captures run and take readings until they are made to end

## Main results

* `Pump.isRunning_advance` — time ends no pump
* `CaptureBench.isRunning_steps_iff` — a capture runs exactly as long as no step ends it
* `CaptureConfig.runsOn_iff` — captures run on exactly where there is a time between flushes
-/

namespace TripRecorder

/-! ### Pumps -/

/-- There is a ticker exactly where there is a period. -/
theorem Ticker.isSome_start?_iff {period now : Nat} :
    (Ticker.start? period now).isSome = true ↔ period ≠ 0 := by
  unfold start?
  split <;> simp_all

namespace Pump

variable {p : Pump} {now : Nat}

theorem isRunning_start_iff {threshold intervalMs : Nat} :
    (start threshold intervalMs now).isRunning = true ↔ intervalMs ≠ 0 :=
  Ticker.isSome_start?_iff

theorem offer_of_running (h : p.isRunning = true) (readings : List Reading) :
    p.offer readings = ({ p with queue := p.queue ++ readings }, true) := if_pos h

theorem offer_of_ended (h : p.isRunning = false) (readings : List Reading) :
    p.offer readings = (p, false) := by
  rw [offer, h]
  rfl

@[simp] theorem isRunning_step : (p.step now).1.isRunning = p.isRunning := by
  unfold step
  split <;> rfl

@[simp] theorem isRunning_settle : (p.settle now).1.isRunning = p.isRunning := by
  unfold settle
  split <;> rfl

/-- A tick is followed by another one. -/
@[simp] theorem isRunning_tick : (p.tick now).1.isRunning = p.isRunning := by
  obtain ⟨intake, queue, ticker⟩ := p
  cases ticker with
  | none => rfl
  | some t =>
    unfold tick
    simp only
    split <;> rfl

@[simp] theorem isRunning_ticksUntil (time fuel : Nat) :
    (ticksUntil time fuel p).1.isRunning = p.isRunning := by
  -- By the ticks that are left; each of them leaves a pump that runs as well.
  induction fuel generalizing p with
  | zero => rfl
  | succ fuel ih =>
    unfold ticksUntil
    cases p.ticker with
    | none => rfl
    | some t =>
      simp only
      split
      · rw [ih, isRunning_tick]
      · rfl

/-- Time ends no pump. -/
@[simp] theorem isRunning_advance (ms : Nat) : (p.advance now ms).1.isRunning = p.isRunning := by
  unfold advance
  simp only
  rw [isRunning_ticksUntil, isRunning_settle]

@[simp] theorem isRunning_close : (p.close now).1.isRunning = false := by
  unfold close
  split
  · rfl
  · rename_i hended
    exact Bool.not_eq_true _ ▸ hended

end Pump

/-! ### Injections -/

namespace Injection

variable {sensors : ScriptedSensors} {attachment source : Nat} {i : Injection}

/-- It comes in through a sink of some attachment. -/
def ReachesIn (sensors : ScriptedSensors) (attachment source : Nat) (i : Injection) : Prop :=
  i.target sensors source = some attachment

instance (i : Injection) : Decidable (i.ReachesIn sensors attachment source) :=
  inferInstanceAs (Decidable (_ = _))

/-- The readings that come in through a sink of some attachment. -/
def reaching (sensors : ScriptedSensors) (attachment source : Nat) (what : List Injection) :
    List Reading :=
  (what.filter fun i => i.ReachesIn sensors attachment source).flatMap fun i => i.toReadings source

/-- The readings that do not. -/
def missing (sensors : ScriptedSensors) (attachment source : Nat) (what : List Injection) :
    List Reading :=
  (what.filter fun i => ¬ i.ReachesIn sensors attachment source).flatMap fun i =>
    i.toReadings source

theorem reaching_concat (h : i.ReachesIn sensors attachment source) (what : List Injection) :
    reaching sensors attachment source (what ++ [i]) =
        reaching sensors attachment source what ++ i.toReadings source ∧
      missing sensors attachment source (what ++ [i]) = missing sensors attachment source what := by
  simp [reaching, missing, h]

theorem missing_concat (h : ¬ i.ReachesIn sensors attachment source) (what : List Injection) :
    reaching sensors attachment source (what ++ [i]) = reaching sensors attachment source what ∧
      missing sensors attachment source (what ++ [i]) =
        missing sensors attachment source what ++ i.toReadings source := by
  simp [reaching, missing, h]

end Injection

section

open Injection

variable {sensors : ScriptedSensors} {attachment source : Nat} {p : Pump}

/-- A pump that runs takes everything that comes in through a sink of its attachment. -/
theorem injectAll_of_running (h : p.isRunning = true) (what : List Injection) :
    injectAll sensors attachment source p what =
      ({ p with queue := p.queue ++ reaching sensors attachment source what },
        ⟨(reaching sensors attachment source what).length,
          (missing sensors attachment source what).length⟩) := by
  -- By the last injection, so that the counts need no generalization.
  induction what using List.reverseRecOn with
  | nil => simp [injectAll, reaching, missing]
  | append_singleton what i ih =>
    have hrunning : ({ p with queue := p.queue ++ reaching sensors attachment source what } :
        Pump).isRunning = true := h
    rw [injectAll, List.foldl_append, ← injectAll, ih]
    by_cases hi : i.ReachesIn sensors attachment source
    · obtain ⟨hreaching, hmissing⟩ := reaching_concat hi what
      have htarget : i.target sensors source = some attachment := hi
      rw [hreaching, hmissing]
      simp only [List.foldl_cons, List.foldl_nil, if_pos htarget, Pump.offer_of_running hrunning,
        if_true, List.append_assoc, List.length_append]
    · obtain ⟨hreaching, hmissing⟩ := missing_concat hi what
      have htarget : ¬ i.target sensors source = some attachment := hi
      rw [hreaching, hmissing]
      simp [htarget]

/-- A pump that does not run takes nothing. -/
theorem injectAll_of_ended (h : p.isRunning = false) (what : List Injection) :
    injectAll sensors attachment source p what =
      (p, ⟨0, (what.flatMap fun i => i.toReadings source).length⟩) := by
  induction what using List.reverseRecOn with
  | nil => rfl
  | append_singleton what i ih =>
    rw [injectAll, List.foldl_append, ← injectAll, ih]
    simp [Pump.offer_of_ended h]

@[simp] theorem isRunning_injectAll (what : List Injection) :
    (injectAll sensors attachment source p what).1.isRunning = p.isRunning := by
  cases h : p.isRunning with
  | true => rw [injectAll_of_running h]; exact h
  | false => rw [injectAll_of_ended h]; exact h

end

/-! ### Captures -/

/-- A step that ends no capture. -/
def CaptureStep.GoesOn : CaptureStep → Prop
  | inject _ _ | advance _ => True
  | dropSinks | close => False

namespace CaptureBench

variable {b : CaptureBench}

/-- A capture after some steps, of which some hold back the readings that wait. -/
def steps (b : CaptureBench) (script : List (Bool × CaptureStep)) : CaptureBench :=
  script.foldl (fun b x => (b.step x.1 x.2).1) b

/-- A capture that was closed does not run. -/
def Fits (b : CaptureBench) : Prop := b.closed = true → b.pump.isRunning = false

/-- Whether a capture runs is not changed by taking in the readings that wait. -/
theorem isRunning_step_hold (hold : Bool) (s : CaptureStep) :
    (b.step hold s).1.pump.isRunning = (b.step true s).1.pump.isRunning := by
  cases hold with
  | true => rfl
  | false => simp [step]

/-- A capture runs after a step if it ran before and the step does not end it. -/
theorem isRunning_step_iff (h : b.Fits) (hold : Bool) (s : CaptureStep) :
    (b.step hold s).1.pump.isRunning = true ↔ b.pump.isRunning = true ∧ s.GoesOn := by
  rw [isRunning_step_hold]
  cases s with
  | inject source what => simp [step, CaptureStep.GoesOn]
  | advance ms => simp [step, CaptureStep.GoesOn]
  | dropSinks => simp [step, CaptureStep.GoesOn]
  | close =>
    -- A second close does nothing, and finds a pump that the first one has ended.
    cases hclosed : b.closed with
    | true => simp [step, CaptureStep.GoesOn, hclosed, h hclosed]
    | false => simp [step, CaptureStep.GoesOn, hclosed]

/-- A step that ends no capture neither closes it nor touches its sinks. -/
theorem step_of_goesOn {s : CaptureStep} (hs : s.GoesOn) (hold : Bool) :
    (b.step hold s).1.closed = b.closed ∧ (b.step hold s).1.sensors = b.sensors := by
  cases s with
  | inject source what => cases hold <;> exact ⟨rfl, rfl⟩
  | advance ms => cases hold <;> exact ⟨rfl, rfl⟩
  | dropSinks => exact hs.elim
  | close => exact hs.elim

theorem Fits.step (h : b.Fits) (hold : Bool) (s : CaptureStep) : (b.step hold s).1.Fits := by
  intro hclosed
  -- If it ran, the step would have gone on, and the capture would have run while it was closed.
  by_contra hrunning
  obtain ⟨hbefore, hs⟩ := (isRunning_step_iff h hold s).mp (by simpa using hrunning)
  rw [(step_of_goesOn hs hold).1] at hclosed
  rw [h hclosed] at hbefore
  cases hbefore

/-- A capture runs exactly as long as no step ends it. -/
theorem isRunning_steps_iff (h : b.Fits) (script : List (Bool × CaptureStep)) :
    (b.steps script).pump.isRunning = true ↔
      b.pump.isRunning = true ∧ ∀ x ∈ script, x.2.GoesOn := by
  induction script generalizing b with
  | nil => simp [steps]
  | cons x rest ih =>
    rw [steps, List.foldl_cons, ← steps, ih (h.step x.1 x.2), isRunning_step_iff h,
      List.forall_mem_cons, and_assoc]

/-- The sinks are those of the start. -/
theorem sensors_steps {script : List (Bool × CaptureStep)} (h : ∀ x ∈ script, x.2.GoesOn) :
    (b.steps script).sensors = b.sensors := by
  induction script generalizing b with
  | nil => rfl
  | cons x rest ih =>
    obtain ⟨hx, hrest⟩ := List.forall_mem_cons.mp h
    rw [steps, List.foldl_cons, ← steps, ih hrest, (step_of_goesOn hx x.1).2]

/-- A capture that was started has not been closed, and its pump starts with it. -/
theorem start_eq_ok {config : CaptureConfig} {sensors : ScriptedSensors}
    (h : start config sensors = .ok b) :
    b.Fits ∧ b.pump = Pump.start config.flushThreshold config.flushIntervalMs 0 := by
  unfold start at h
  split at h
  · cases h
  · obtain rfl := Except.ok.inj h
    exact ⟨nofun, rfl⟩

/-- A capture without a time between flushes takes nothing, whatever is done with it. -/
theorem count_of_no_interval {config : CaptureConfig} {sensors : ScriptedSensors}
    (h : start config sensors = .ok b) (hinterval : config.flushIntervalMs = 0)
    (script : List (Bool × CaptureStep)) (hold : Bool) (source : Nat) (what : List Injection) :
    ((b.steps script).step hold (.inject source what)).2.count =
      some ⟨0, (what.flatMap fun i => i.toReadings source).length⟩ := by
  obtain ⟨hfits, hpump⟩ := start_eq_ok h
  have hended : (b.steps script).pump.isRunning = false := by
    rw [← Bool.not_eq_true, isRunning_steps_iff hfits, hpump, Pump.isRunning_start_iff]
    exact fun hrunning => hrunning.1 hinterval
  cases hold <;> simp only [step, injectAll_of_ended hended] <;> rfl

end CaptureBench

open Injection in
/-- Captures run until a step ends them, and take everything that comes in through the sinks of
their start. -/
def CaptureConfig.RunsOn (config : CaptureConfig) : Prop :=
  ∀ sensors b, CaptureBench.start config sensors = .ok b →
    ∀ script : List (Bool × CaptureStep), (∀ x ∈ script, x.2.GoesOn) →
      (b.steps script).pump.isRunning = true ∧ ∀ hold source what,
        ((b.steps script).step hold (.inject source what)).2.count =
          some ⟨(reaching b.sensors b.sensors.attachment source what).length,
            (missing b.sensors b.sensors.attachment source what).length⟩

/-- Captures run on exactly where there is a time between flushes. -/
theorem CaptureConfig.runsOn_iff {config : CaptureConfig} :
    config.RunsOn ↔ config.flushIntervalMs ≠ 0 := by
  constructor
  · -- A capture without sources runs no better than others.
    intro h
    obtain ⟨hrunning, -⟩ := h (ScriptedSensors.fresh 0 false .works) _ rfl [] nofun
    exact Pump.isRunning_start_iff.mp hrunning
  · intro hinterval sensors b hstart script hscript
    obtain ⟨hfits, hpump⟩ := CaptureBench.start_eq_ok hstart
    have hrunning : (b.steps script).pump.isRunning = true := by
      rw [CaptureBench.isRunning_steps_iff hfits, hpump, Pump.isRunning_start_iff]
      exact ⟨hinterval, hscript⟩
    refine ⟨hrunning, fun hold source what => ?_⟩
    rw [← CaptureBench.sensors_steps hscript]
    cases hold <;> simp only [CaptureBench.step, injectAll_of_running hrunning] <;> rfl

end TripRecorder
