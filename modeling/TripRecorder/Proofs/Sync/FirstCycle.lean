import Mathlib.Data.List.Basic
import TripRecorder.Bench.Device
import TripRecorder.Proofs.Procedure

/-!
# The first cycle of a scheduler

A scheduler is due as soon as it starts, so its first cycle runs before any time passes. That needs
a ticker, and there is none without a time between cycles: such a scheduler starts no cycle at all,
not at a trigger either.

## Main definitions

* `DeviceBench.cyclesStarted` — how many cycles the scheduler of a device has started
* `ScheduleMove`, `DeviceBench.after` — time passes, and the scheduler is triggered
* `SyncConfig.scheduled` — a device whose scheduler was just started
* `SyncConfig.CyclesAtOnce` — the first cycle starts before any time passes

## Main results

* `DeviceBench.settleSchedule_keeps` — no cycle is taken back, and no time passes
* `SyncConfig.cyclesStarted_of_no_interval` — without a time between cycles there is never one
* `SyncConfig.cyclesAtOnce_iff` — the first cycle starts at once exactly where there is such a time
-/

namespace TripRecorder

namespace Scheduler

variable {s s' : Scheduler}

theorem cycles_complete (s : Scheduler) : s.complete.cycles = s.cycles := by
  unfold complete
  split <;> rfl

theorem cycles_end (h : s.end? = some s') : s'.cycles = s.cycles := by
  unfold end? at h
  split at h
  · obtain rfl := Option.some.inj h
    rfl
  · cases h

theorem cycles_start {cause : StartCause} (h : s.start? cause = some s') :
    s'.cycles = s.cycles + 1 := by
  unfold start? at h
  split at h
  · cases cause with
    | tick =>
      obtain rfl := Option.some.inj h
      rfl
    | trigger =>
      simp only at h
      split at h
      · cases h
      · obtain rfl := Option.some.inj h
        rfl
  · cases h

/-- A scheduler that cannot tick is not woken by a trigger. -/
theorem trigger_dead : dead.trigger = dead := rfl

end Scheduler

namespace DeviceBench

variable {b b' : DeviceBench} {plan : Schedule}

/-- How many cycles the scheduler has started. -/
def cyclesStarted (b : DeviceBench) : Nat := (b.plan.map fun p => p.scheduler.cycles).getD 0

theorem cyclesStarted_of_plan (h : b.plan = some plan) :
    b.cyclesStarted = plan.scheduler.cycles := by
  rw [cyclesStarted, h]
  rfl

/-! ### The recorder -/

theorem serve_keeps (c : RecorderCall) (b : DeviceBench) :
    (serve c b).2.plan = b.plan ∧ (serve c b).2.now = b.now := by
  cases c with
  | store c => exact ⟨rfl, rfl⟩
  | hardware c => exact ⟨rfl, rfl⟩
  | acquire => constructor <;> simp only [serve, hold] <;> split <;> rfl
  | release => constructor <;> simp only [serve, hold] <;> split <;> rfl
  | deliver message => exact ⟨rfl, rfl⟩

theorem run_serve_keeps {α : Type} (p : Recording α) (b : DeviceBench) :
    (p.run serve b).2.plan = b.plan ∧ (p.run serve b).2.now = b.now := by
  have hcall (c : RecorderCall) (b' : DeviceBench) (_ : True)
      (h : b'.plan = b.plan ∧ b'.now = b.now) :
      (serve c b').2.plan = b.plan ∧ (serve c b').2.now = b.now :=
    ⟨(serve_keeps c b').1.trans h.1, (serve_keeps c b').2.trans h.2⟩
  exact (Procedure.asks_true p).run_keeps hcall ⟨rfl, rfl⟩

/-- The recorder neither touches the scheduler nor the clock. -/
theorem settleCapture_keeps (b : DeviceBench) :
    b.settleCapture.plan = b.plan ∧ b.settleCapture.now = b.now := by
  unfold settleCapture move
  cases b.service with
  | none => exact ⟨rfl, rfl⟩
  | some s => exact run_serve_keeps _ b

/-! ### What the scheduler does next -/

/-- The scheduler goes on with a cycle whose wait is over, ends, or starts a cycle. -/
theorem stepSchedule_cases (h : b.stepSchedule plan = some b') :
    (∃ cycle, plan.cycle = some cycle ∧ b' = b.finishCycle plan cycle) ∨
    (∃ scheduler, plan.scheduler.end? = some scheduler ∧
      b' = { b with plan := some { plan with scheduler := scheduler } }) ∨
    ∃ cause scheduler ticker, plan.scheduler.start? cause = some scheduler ∧
      b' = b.startCycle plan scheduler ticker := by
  unfold stepSchedule at h
  cases hcycle : plan.cycle with
  | some cycle =>
    rw [hcycle] at h
    simp only at h
    split at h
    · exact .inl ⟨cycle, rfl, (Option.some.inj h).symm⟩
    · cases h
  | none =>
    rw [hcycle] at h
    cases hend : plan.scheduler.end? with
    | some scheduler =>
      rw [hend] at h
      exact .inr (.inl ⟨scheduler, rfl, (Option.some.inj h).symm⟩)
    | none =>
      rw [hend] at h
      simp only at h
      split at h
      · rename_i hstart
        exact .inr (.inr ⟨.tick, _, _, hstart, (Option.some.inj h).symm⟩)
      · -- No tick is due, so only a trigger can have started it.
        split at h
        · rename_i hstart
          exact .inr (.inr ⟨.trigger, _, _, hstart, (Option.some.inj h).symm⟩)
        · cases h

/-- What the scheduler does next takes no cycle back, and no time. -/
theorem stepSchedule_keeps (h : b.stepSchedule plan = some b') :
    plan.scheduler.cycles ≤ b'.cyclesStarted ∧ b'.now = b.now := by
  rcases stepSchedule_cases h with
    ⟨cycle, -, rfl⟩ | ⟨scheduler, hend, rfl⟩ | ⟨cause, scheduler, ticker, hstart, rfl⟩
  · exact ⟨Nat.le_of_eq plan.scheduler.cycles_complete.symm, rfl⟩
  · exact ⟨Nat.le_of_eq (Scheduler.cycles_end hend).symm, rfl⟩
  · refine ⟨?_, rfl⟩
    have hcycles := Scheduler.cycles_start hstart
    show plan.scheduler.cycles ≤ scheduler.cycles
    omega

/-- No cycle is taken back, and no time passes. -/
theorem settleSchedule_keeps (fuel : Nat) (b : DeviceBench) :
    b.cyclesStarted ≤ (settleSchedule fuel b).cyclesStarted ∧
      (settleSchedule fuel b).now = b.now := by
  induction fuel generalizing b with
  | zero => exact ⟨Nat.le_refl _, rfl⟩
  | succ fuel ih =>
    unfold settleSchedule
    cases hstep : b.plan.bind b.stepSchedule with
    | none => exact ⟨Nat.le_refl _, rfl⟩
    | some b' =>
      obtain ⟨plan, hplan, hnext⟩ := Option.bind_eq_some_iff.mp hstep
      obtain ⟨hcycles, hnow⟩ := stepSchedule_keeps hnext
      rw [cyclesStarted_of_plan hplan]
      exact ⟨Nat.le_trans hcycles (ih b').1, (ih b').2.trans hnow⟩

/-- A scheduler with a time between cycles starts its first one before any time passes. -/
theorem cyclesStarted_settle_schedule (b : DeviceBench) {intervalMs : Nat}
    (hinterval : intervalMs ≠ 0) (credentials : Option Credentials) (timeoutMs : Nat)
    (account : String) :
    0 < (b.schedule intervalMs credentials timeoutMs account).settle.cyclesStarted ∧
      (b.schedule intervalMs credentials timeoutMs account).settle.now = b.now := by
  obtain ⟨hplan, hnow⟩ := settleCapture_keeps (b.schedule intervalMs credentials timeoutMs account)
  show 0 < (settleSchedule _ _).cyclesStarted ∧ (settleSchedule _ _).now = b.now
  generalize (b.schedule intervalMs credentials timeoutMs account).settleCapture = d at hplan hnow ⊢
  -- There is fuel for the first step, and the ticker is due.
  obtain ⟨fuel, hfuel⟩ : ∃ fuel, d.scheduleFuel = fuel + 1 := by
    rw [scheduleFuel, hplan]
    exact ⟨_, rfl⟩
  have hstep : ∃ b', d.plan.bind d.stepSchedule = some b' ∧ b'.cyclesStarted = 1 ∧
      b'.now = b.now := by
    have hdue : (Ticker.start? intervalMs b.now).filter (fun t => t.isDue d.now) =
        some ⟨intervalMs, b.now⟩ := by
      rw [Ticker.start?, if_neg hinterval, hnow]
      simp [Ticker.isDue, schedule]
    have hfresh : (if intervalMs = 0 then Scheduler.dead else Scheduler.fresh) = .fresh :=
      if_neg hinterval
    rw [hplan]
    simp only [schedule, hfresh, Option.bind_some, stepSchedule, hdue]
    exact ⟨_, rfl, rfl, hnow⟩
  obtain ⟨b', hstep, hcycles, hlater⟩ := hstep
  obtain ⟨hmore, hsame⟩ := settleSchedule_keeps fuel b'
  rw [hfuel, settleSchedule, hstep]
  exact ⟨Nat.lt_of_lt_of_le (by omega) hmore, hsame.trans hlater⟩

/-! ### Schedulers that cannot tick -/

/-- There is no scheduler, or one that cannot tick. -/
def Dormant (b : DeviceBench) : Prop :=
  ∀ plan, b.plan = some plan → plan.scheduler = .dead ∧ plan.cycle = none

theorem Dormant.cyclesStarted_eq_zero (h : b.Dormant) : b.cyclesStarted = 0 := by
  unfold cyclesStarted
  cases hplan : b.plan with
  | none => rfl
  | some plan =>
    show plan.scheduler.cycles = 0
    rw [(h plan hplan).1]
    rfl

theorem Dormant.settle (h : b.Dormant) : b.settle.Dormant := by
  obtain ⟨hplan, -⟩ := settleCapture_keeps b
  have hdormant : b.settleCapture.Dormant := fun plan hsome => h plan (hplan ▸ hsome)
  have hstep : b.settleCapture.plan.bind b.settleCapture.stepSchedule = none := by
    rw [Option.bind_eq_none_iff]
    intro plan hsome
    obtain ⟨hscheduler, hcycle⟩ := hdormant plan hsome
    cases hstep : b.settleCapture.stepSchedule plan with
    | none => rfl
    | some b' =>
      -- It neither has a cycle to go on with, nor ends a second time, nor starts one.
      rcases stepSchedule_cases hstep with
        ⟨cycle, hsome, -⟩ | ⟨scheduler, hend, -⟩ | ⟨cause, scheduler, ticker, hstart, -⟩
      · rw [hcycle] at hsome
        cases hsome
      · rw [hscheduler] at hend
        cases hend
      · rw [hscheduler] at hstart
        cases hstart
  show (settleSchedule _ _).Dormant
  cases b.settleCapture.scheduleFuel with
  | zero => exact hdormant
  | succ fuel =>
    rw [settleSchedule, hstep]
    exact hdormant

theorem Dormant.passUntil (h : b.Dormant) (time fuel : Nat) :
    (passUntil time fuel b).Dormant := by
  induction fuel generalizing b with
  | zero => exact h
  | succ fuel ih =>
    unfold DeviceBench.passUntil
    split
    · split
      · exact ih (Dormant.settle h)
      · exact h
    · exact h

theorem Dormant.pass (h : b.Dormant) (ms : Nat) : (b.pass ms).Dormant := h.settle.passUntil _ _

theorem Dormant.trigger (h : b.Dormant) (times : Nat) : (b.trigger times).2.Dormant := by
  unfold DeviceBench.trigger
  cases hplan : b.plan with
  | none => exact h
  | some plan =>
    obtain ⟨hscheduler, hcycle⟩ := h plan hplan
    intro plan' hplan'
    obtain rfl := Option.some.inj hplan'
    refine ⟨?_, hcycle⟩
    rw [hscheduler]
    exact List.foldl_fixed' (fun _ => Scheduler.trigger_dead) _

/-- A device with an empty store. -/
def bare : DeviceBench :=
  fresh ⟨Store.empty none 1 1, .ofList [], .fixed "token", false, [], [], []⟩

/-- Time passes, or someone asks for cycles. -/
inductive ScheduleMove where
  | pass (ms : Nat)
  | trigger (times : Nat)

/-- A device after some moves. -/
def after (b : DeviceBench) (moves : List ScheduleMove) : DeviceBench :=
  moves.foldl (fun b move => match move with
    | .pass ms => b.pass ms
    | .trigger times => (b.trigger times).2) b

theorem Dormant.after (h : b.Dormant) (moves : List ScheduleMove) : (b.after moves).Dormant := by
  induction moves generalizing b with
  | nil => exact h
  | cons move rest ih =>
    cases move with
    | pass ms => exact ih (h.pass ms)
    | trigger times => exact ih (h.trigger times)

end DeviceBench

namespace SyncConfig

/-- A device whose scheduler is started as configured. -/
def scheduled (config : SyncConfig) (b : DeviceBench) (credentials : Option Credentials)
    (account : String) : DeviceBench :=
  b.schedule (config.cycleIntervalSecs * 1000) credentials config.credentialTimeoutMs account

/-- The first cycle is started before any time passes. -/
def CyclesAtOnce (config : SyncConfig) : Prop :=
  ∀ b credentials account, 0 < (config.scheduled b credentials account).settle.cyclesStarted ∧
    (config.scheduled b credentials account).settle.now = b.now

/-- Without a time between cycles there is never one. -/
theorem cyclesStarted_of_no_interval {config : SyncConfig} (h : config.cycleIntervalSecs = 0)
    (b : DeviceBench) (credentials : Option Credentials) (account : String) :
    (config.scheduled b credentials account).settle.cyclesStarted = 0 ∧
      ∀ moves, ((config.scheduled b credentials account).after moves).cyclesStarted = 0 := by
  have hdormant : (config.scheduled b credentials account).Dormant := by
    rw [scheduled, h]
    intro plan hplan
    obtain rfl := Option.some.inj hplan
    exact ⟨rfl, rfl⟩
  exact ⟨hdormant.settle.cyclesStarted_eq_zero,
    fun moves => (hdormant.after moves).cyclesStarted_eq_zero⟩

/-- The first cycle is started at once exactly where there is a time between cycles. -/
theorem cyclesAtOnce_iff {config : SyncConfig} :
    config.CyclesAtOnce ↔ config.cycleIntervalSecs ≠ 0 := by
  constructor
  · intro h hinterval
    have hcycles := (cyclesStarted_of_no_interval hinterval DeviceBench.bare none "").1
    have hpos := (h DeviceBench.bare none "").1
    omega
  · intro hinterval b credentials account
    exact b.cyclesStarted_settle_schedule (by omega) credentials _ account

end SyncConfig

end TripRecorder
