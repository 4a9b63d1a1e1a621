import Mathlib.Data.List.Basic
import TripRecorder.Bench.Device
import TripRecorder.Proofs.Sync.FirstCycle

/-!
# Cycles one after another

A scheduler is woken by its ticker, by someone who wants a cycle, and by someone who ends it, and
whichever of these is ready may win. Triggers may come at any time, and cycles may end in any way.
Whatever happens, what was asked for is done, no cycle is started for nothing, and no two run at
once.

## Main definitions

* `Timetable` — a scheduler with its ticker, at some time
* `ScheduleEvent`, `ScheduleStep` — what can happen to it
* `ScheduleRun` — all that can happen, one step after another
* `Timetable.Ready` — the scheduler has something to start, or is to end
* `Timetable.Punctual` — it does what is asked of it, one cycle at a time
* `DeviceBench.Follows` — what happened to the scheduler of a device is a run

## Main results

* `ScheduleRun.cycles_eq`, `ScheduleRun.completed_eq` — cycles are counted, and run one by one
* `ScheduleRun.triggers_le` — every cycle of a trigger has a trigger of its own
* `ScheduleRun.ticks_le` — ticks are a period apart
* `ScheduleRun.kept_pos` — a trigger is kept until a cycle starts
* `ScheduleRun.punctual` — all of it
* `DeviceBench.Shows.stepSchedule`, `DeviceBench.follows_after` — the scheduler of a device moves in
  these steps
* `DeviceBench.Follows.endSchedule` — what its end answers
-/

namespace TripRecorder

/-- A scheduler with its ticker, at some time. -/
structure Timetable where
  now : Nat
  ticker : Ticker
  scheduler : Scheduler

/-- What happens to a scheduler. -/
inductive ScheduleEvent where
  | passed (ms : Nat)
  /-- Someone asks for a cycle. -/
  | triggered
  /-- A cycle starts, because of a tick or of a trigger. -/
  | started (cause : StartCause)
  /-- The running cycle came to its end, whatever it did. -/
  | completed (result : Except SyncError SyncReport)
  /-- Someone asks it to end. -/
  | stopRequested
  | ended

namespace ScheduleEvent

/-- Someone asks for a cycle. -/
def isTrigger : ScheduleEvent → Bool
  | triggered => true
  | _ => false

/-- A cycle starts because of a tick. -/
def isTick : ScheduleEvent → Bool
  | started .tick => true
  | _ => false

/-- A cycle starts because of a trigger. -/
def isWake : ScheduleEvent → Bool
  | started .trigger => true
  | _ => false

/-- A cycle starts. -/
def isStart : ScheduleEvent → Bool
  | started _ => true
  | _ => false

/-- A cycle came to its end. -/
def isCompletion : ScheduleEvent → Bool
  | completed _ => true
  | _ => false

/-- Cycles start at a tick or at a trigger. -/
theorem countP_isStart (events : List ScheduleEvent) :
    events.countP isStart = events.countP isTick + events.countP isWake := by
  induction events with
  | nil => rfl
  | cons e later ih =>
    have hcause : (if e.isStart then 1 else 0) =
        (if e.isTick then 1 else 0) + if e.isWake then 1 else 0 := by
      cases e with
      | started cause => cases cause <;> rfl
      | _ => rfl
    simp only [List.countP_cons]
    omega

end ScheduleEvent

/-- Whatever is ready may happen next. A tick is ready when it is due, and a trigger while it is
kept. -/
inductive ScheduleStep : Timetable → ScheduleEvent → Timetable → Prop where
  | pass {s : Timetable} (ms : Nat) : ScheduleStep s (.passed ms) { s with now := s.now + ms }
  | trigger {s : Timetable} :
      ScheduleStep s .triggered { s with scheduler := s.scheduler.trigger }
  /-- A scheduler that has not looked since its last cycle takes two triggers for one. -/
  | merge {s : Timetable} : s.scheduler.phase = .waiting → 0 < s.scheduler.kept →
      ScheduleStep s .triggered s
  | tick {s : Timetable} {scheduler : Scheduler} : s.ticker.isDue s.now = true →
      s.scheduler.start? .tick = some scheduler →
      ScheduleStep s (.started .tick) ⟨s.now, s.ticker.fire s.now, scheduler⟩
  | wake {s : Timetable} {scheduler : Scheduler} :
      s.scheduler.start? .trigger = some scheduler →
      ScheduleStep s (.started .trigger) { s with scheduler := scheduler }
  | complete {s : Timetable} (result : Except SyncError SyncReport) :
      s.scheduler.phase = .running →
      ScheduleStep s (.completed result) { s with scheduler := s.scheduler.complete }
  | requestStop {s : Timetable} :
      ScheduleStep s .stopRequested { s with scheduler := s.scheduler.requestStop }
  | finish {s : Timetable} {scheduler : Scheduler} : s.scheduler.end? = some scheduler →
      ScheduleStep s .ended { s with scheduler := scheduler }

/-- All that can happen to a scheduler, one step after another. -/
inductive ScheduleRun : Timetable → List ScheduleEvent → Timetable → Prop where
  | nil (s : Timetable) : ScheduleRun s [] s
  | cons {s middle s' : Timetable} {e : ScheduleEvent} {later : List ScheduleEvent} :
      ScheduleStep s e middle → ScheduleRun middle later s' → ScheduleRun s (e :: later) s'

namespace Scheduler

variable {s s' : Scheduler} {cause : StartCause}

/-- A tick starts a cycle and leaves at most one of the triggers that were kept. -/
theorem start?_tick_eq_some_iff : s.start? .tick = some s' ↔ s.phase = .waiting ∧
    s' = { s with phase := .running, kept := min s.kept 1, cycles := s.cycles + 1 } := by
  unfold start?
  split
  · rename_i h
    simp [h, eq_comm]
  · rename_i h
    simp [h]

/-- A trigger that was kept starts a cycle and is kept no longer. -/
theorem start?_trigger_eq_some_iff : s.start? .trigger = some s' ↔
    s.phase = .waiting ∧ 0 < s.kept ∧
      s' = { s with phase := .running, kept := s.kept - 1, cycles := s.cycles + 1 } := by
  unfold start?
  split
  · rename_i h
    by_cases hkept : s.kept = 0
    · simp [hkept]
    · simp [h, hkept, Nat.pos_of_ne_zero hkept, eq_comm]
  · rename_i h
    simp [h]

theorem end?_eq_some_iff : s.end? = some s' ↔
    s.phase = .waiting ∧ s.stopping = true ∧ s' = { s with phase := .ended } := by
  unfold end?
  split
  · rename_i h
    simp [h.1, h.2, eq_comm]
  · rename_i h
    simp only [reduceCtorEq, false_iff]
    exact fun hend => h ⟨hend.1, hend.2.1⟩

/-- A trigger is kept, unless the scheduler has ended. -/
theorem kept_trigger_pos (h : s.phase ≠ .ended) : 0 < s.trigger.kept := by
  unfold trigger
  cases hphase : s.phase with
  | ended => exact absurd hphase h
  | waiting =>
    show 0 < min (s.kept + 1) 2
    omega
  | running =>
    show 0 < min (s.kept + 1) 1
    omega

theorem trigger_keeps (s : Scheduler) :
    s.trigger.phase = s.phase ∧ s.trigger.stopping = s.stopping ∧ s.trigger.cycles = s.cycles ∧
      s.trigger.kept ≤ s.kept + 1 := by
  unfold trigger
  split
  · exact ⟨rfl, rfl, rfl, Nat.min_le_left ..⟩
  · exact ⟨rfl, rfl, rfl, Nat.min_le_left ..⟩
  · exact ⟨rfl, rfl, rfl, Nat.le_succ _⟩

theorem complete_of_running (h : s.phase = .running) :
    s.complete = { s with phase := .waiting } := if_pos h

end Scheduler

/-- The tick after one that was noticed follows it by a period at least. -/
theorem Ticker.add_period_le_due_fire (t : Ticker) (now : Nat) :
    t.due + t.period ≤ (t.fire now).due := by
  show t.due + t.period ≤ (if t.due + slackMs < now then now else t.due) + t.period
  split <;> omega

namespace Timetable

/-- The number of cycles that run. -/
def running (s : Timetable) : Nat := if s.scheduler.phase = .running then 1 else 0

/-- At most one trigger is kept while a cycle runs, and at most two otherwise. -/
def FewKept (s : Timetable) : Prop :=
  s.scheduler.kept ≤ 2 ∧ (s.scheduler.phase = .running → s.scheduler.kept ≤ 1)

/-- The scheduler has something to start, or is to end. -/
def Ready (s : Timetable) : Prop :=
  (∃ cause s', ScheduleStep s (.started cause) s') ∨ ∃ s', ScheduleStep s .ended s'

end Timetable

namespace ScheduleStep

variable {s s' : Timetable} {e : ScheduleEvent}

/-- A start adds one to the cycles. -/
theorem cycles_eq (h : ScheduleStep s e s') :
    s'.scheduler.cycles = s.scheduler.cycles + if e.isStart then 1 else 0 := by
  cases h with
  | tick _ hstart | wake hstart => exact Scheduler.cycles_start hstart
  | trigger => exact (Scheduler.trigger_keeps _).2.2.1
  | complete _ _ => exact Scheduler.cycles_complete _
  | finish hend => exact Scheduler.cycles_end hend
  | _ => rfl

/-- A start and a completion take turns. -/
theorem running_eq (h : ScheduleStep s e s') :
    s.running + (if e.isStart then 1 else 0) =
      s'.running + if e.isCompletion then 1 else 0 := by
  cases h with
  | tick _ hstart =>
    obtain ⟨hphase, rfl⟩ := Scheduler.start?_tick_eq_some_iff.mp hstart
    simp [Timetable.running, hphase, ScheduleEvent.isStart, ScheduleEvent.isCompletion]
  | wake hstart =>
    obtain ⟨hphase, -, rfl⟩ := Scheduler.start?_trigger_eq_some_iff.mp hstart
    simp [Timetable.running, hphase, ScheduleEvent.isStart, ScheduleEvent.isCompletion]
  | trigger =>
    rw [Timetable.running, Timetable.running, (Scheduler.trigger_keeps _).1]
    rfl
  | complete _ hphase =>
    simp [Timetable.running, hphase, Scheduler.complete_of_running hphase,
      ScheduleEvent.isStart, ScheduleEvent.isCompletion]
  | finish hend =>
    obtain ⟨hphase, -, rfl⟩ := Scheduler.end?_eq_some_iff.mp hend
    simp [Timetable.running, hphase, ScheduleEvent.isStart, ScheduleEvent.isCompletion]
  | _ => rfl

/-- A cycle that a trigger starts takes a trigger that was kept. -/
theorem kept_le (h : ScheduleStep s e s') :
    s'.scheduler.kept + (if e.isWake then 1 else 0) ≤
      s.scheduler.kept + if e.isTrigger then 1 else 0 := by
  cases h with
  | tick _ hstart =>
    obtain ⟨-, rfl⟩ := Scheduler.start?_tick_eq_some_iff.mp hstart
    exact Nat.min_le_left ..
  | wake hstart =>
    obtain ⟨-, hkept, rfl⟩ := Scheduler.start?_trigger_eq_some_iff.mp hstart
    exact Nat.le_of_eq (Nat.sub_add_cancel hkept)
  | trigger => exact (Scheduler.trigger_keeps _).2.2.2
  | merge => exact Nat.le_succ _
  | complete _ hphase => rw [Scheduler.complete_of_running hphase]; exact Nat.le_refl _
  | finish hend =>
    obtain ⟨-, -, rfl⟩ := Scheduler.end?_eq_some_iff.mp hend
    exact Nat.le_refl _
  | _ => exact Nat.le_refl _

/-- A trigger that is kept stays so until a cycle starts. -/
theorem kept_pos (h : ScheduleStep s e s') (he : e.isStart = false) (hs : 0 < s.scheduler.kept) :
    0 < s'.scheduler.kept := by
  cases h with
  | tick => cases he
  | wake => cases he
  | trigger =>
    by_cases hended : s.scheduler.phase = .ended
    · simpa [Scheduler.trigger, hended] using hs
    · exact Scheduler.kept_trigger_pos hended
  | complete _ hphase => rwa [Scheduler.complete_of_running hphase]
  | finish hend =>
    obtain ⟨-, -, rfl⟩ := Scheduler.end?_eq_some_iff.mp hend
    exact hs
  | _ => exact hs

/-- At most one trigger is kept while a cycle runs, and at most two otherwise. -/
theorem fewKept (h : ScheduleStep s e s') (hs : s.FewKept) : s'.FewKept := by
  obtain ⟨htwo, hone⟩ := hs
  cases h with
  | tick _ hstart =>
    obtain ⟨-, rfl⟩ := Scheduler.start?_tick_eq_some_iff.mp hstart
    exact ⟨Nat.le_trans (Nat.min_le_right ..) (by decide), fun _ => Nat.min_le_right ..⟩
  | wake hstart =>
    obtain ⟨-, -, rfl⟩ := Scheduler.start?_trigger_eq_some_iff.mp hstart
    exact ⟨Nat.le_trans (Nat.sub_le ..) htwo, fun _ => Nat.sub_le_of_le_add htwo⟩
  | trigger =>
    -- Only a scheduler that waits keeps a second trigger.
    rw [Timetable.FewKept, (Scheduler.trigger_keeps _).1]
    unfold Scheduler.trigger
    split
    · rename_i hphase
      exact ⟨Nat.min_le_right .., fun hrunning => by simp [hphase] at hrunning⟩
    · exact ⟨Nat.le_trans (Nat.min_le_right ..) (by decide), fun _ => Nat.min_le_right ..⟩
    · exact ⟨htwo, hone⟩
  | complete _ hphase =>
    rw [Timetable.FewKept, Scheduler.complete_of_running hphase]
    exact ⟨htwo, nofun⟩
  | finish hend =>
    obtain ⟨-, -, rfl⟩ := Scheduler.end?_eq_some_iff.mp hend
    exact ⟨htwo, nofun⟩
  | _ => exact ⟨htwo, hone⟩

/-- A scheduler that has ended starts nothing and stays as it is. -/
theorem of_ended (h : ScheduleStep s e s') (hs : s.scheduler.phase = .ended) :
    s'.scheduler.phase = .ended ∧ e.isStart = false := by
  cases h with
  | tick _ hstart => simp [Scheduler.start?, hs] at hstart
  | wake hstart => simp [Scheduler.start?, hs] at hstart
  | trigger => exact ⟨(Scheduler.trigger_keeps _).1.trans hs, rfl⟩
  | complete _ hphase => simp [hs] at hphase
  | finish hend => simp [Scheduler.end?, hs] at hend
  | _ => exact ⟨hs, rfl⟩

/-- The next tick is at least a period later. -/
theorem due_le (h : ScheduleStep s e s') :
    s'.ticker.period = s.ticker.period ∧ s.now ≤ s'.now ∧
      s.ticker.due + (if e.isTick then s.ticker.period else 0) ≤ s'.ticker.due ∧
      (e.isTick = true → s.ticker.due ≤ s.now) := by
  cases h with
  | tick hdue _ =>
    exact ⟨rfl, Nat.le_refl _, s.ticker.add_period_le_due_fire s.now,
      fun _ => of_decide_eq_true hdue⟩
  | pass ms => exact ⟨rfl, Nat.le_add_right .., Nat.le_refl _, nofun⟩
  | _ => exact ⟨rfl, Nat.le_refl _, Nat.le_refl _, nofun⟩

/-- Nothing but a request makes a scheduler end. -/
theorem stopping_cases (h : ScheduleStep s e s') :
    (s'.scheduler.stopping = true → s.scheduler.stopping = true ∨ e = .stopRequested) ∧
      (s'.scheduler.phase = .ended →
        s.scheduler.phase = .ended ∨ s.scheduler.stopping = true) := by
  cases h with
  | tick _ hstart =>
    obtain ⟨-, rfl⟩ := Scheduler.start?_tick_eq_some_iff.mp hstart
    exact ⟨.inl, nofun⟩
  | wake hstart =>
    obtain ⟨-, -, rfl⟩ := Scheduler.start?_trigger_eq_some_iff.mp hstart
    exact ⟨.inl, nofun⟩
  | trigger =>
    obtain ⟨hphase, hstopping, -⟩ := s.scheduler.trigger_keeps
    rw [hphase, hstopping]
    exact ⟨.inl, .inl⟩
  | complete _ hphase =>
    rw [Scheduler.complete_of_running hphase]
    exact ⟨.inl, nofun⟩
  | requestStop => exact ⟨fun _ => .inr rfl, .inl⟩
  | finish hend =>
    obtain ⟨-, hstopping, rfl⟩ := Scheduler.end?_eq_some_iff.mp hend
    exact ⟨.inl, fun _ => .inr hstopping⟩
  | _ => exact ⟨.inl, .inl⟩

end ScheduleStep

namespace ScheduleRun

variable {s s' : Timetable} {events before later : List ScheduleEvent}

theorem of_append (h : ScheduleRun s (before ++ later) s') :
    ∃ middle, ScheduleRun s before middle ∧ ScheduleRun middle later s' := by
  induction before generalizing s with
  | nil => exact ⟨s, .nil s, h⟩
  | cons e rest ih =>
    cases h with
    | cons hstep hrest =>
      obtain ⟨middle, hbefore, hlater⟩ := ih hrest
      exact ⟨middle, .cons hstep hbefore, hlater⟩

theorem append {middle : Timetable} (h : ScheduleRun s before middle)
    (hlater : ScheduleRun middle later s') : ScheduleRun s (before ++ later) s' := by
  induction h with
  | nil s => exact hlater
  | cons hstep _ ih => exact .cons hstep (ih hlater)

/-- Every start is counted. -/
theorem cycles_eq (h : ScheduleRun s events s') :
    s'.scheduler.cycles = s.scheduler.cycles + events.countP ScheduleEvent.isStart := by
  induction h with
  | nil s => rfl
  | cons hstep _ ih =>
    rw [ih, hstep.cycles_eq, List.countP_cons]
    omega

/-- Starts and completions take turns. -/
theorem completed_eq (h : ScheduleRun s events s') :
    s.running + events.countP ScheduleEvent.isStart =
      s'.running + events.countP ScheduleEvent.isCompletion := by
  induction h with
  | nil s => rfl
  | cons hstep _ ih =>
    have hturn := hstep.running_eq
    rw [List.countP_cons, List.countP_cons]
    omega

/-- Every cycle that a trigger starts has a trigger of its own: one that was kept, or a later
one. -/
theorem triggers_le (h : ScheduleRun s events s') :
    s'.scheduler.kept + events.countP ScheduleEvent.isWake ≤
      s.scheduler.kept + events.countP ScheduleEvent.isTrigger := by
  induction h with
  | nil s => exact Nat.le_refl _
  | cons hstep _ ih =>
    have hkept := hstep.kept_le
    rw [List.countP_cons, List.countP_cons]
    omega

/-- Ticks are at least a period apart. -/
theorem ticks_le (h : ScheduleRun s events s') :
    s'.ticker.period = s.ticker.period ∧ s.now ≤ s'.now ∧
      (0 < events.countP ScheduleEvent.isTick →
        s.ticker.due + events.countP ScheduleEvent.isTick * s.ticker.period ≤
          s'.now + s.ticker.period) := by
  induction h with
  | nil s => exact ⟨rfl, Nat.le_refl _, nofun⟩
  | @cons s middle s' e later hstep _ ih =>
    obtain ⟨hperiod, hnow, hdue, hnoticed⟩ := hstep.due_le
    obtain ⟨hperiod', hnow', hticks⟩ := ih
    rw [hperiod] at hperiod' hticks
    refine ⟨hperiod', Nat.le_trans hnow hnow', fun hpos => ?_⟩
    rw [List.countP_cons] at hpos ⊢
    cases htick : e.isTick with
    | false =>
      simp only [htick, Bool.false_eq_true, if_false, Nat.add_zero] at hpos hdue ⊢
      have hrest := hticks hpos
      omega
    | true =>
      simp only [htick, if_true] at hdue ⊢
      have hfirst := hnoticed htick
      rw [Nat.succ_mul]
      -- Either this is the only tick, or it puts the others off by a period.
      rcases Nat.eq_zero_or_pos (later.countP ScheduleEvent.isTick) with hnone | hsome
      · rw [hnone, Nat.zero_mul]
        omega
      · have hrest := hticks hsome
        omega

/-- A trigger is kept until a cycle starts. -/
theorem kept_pos (h : ScheduleRun s events s') (hs : 0 < s.scheduler.kept)
    (hnone : ∀ e ∈ events, e.isStart = false) : 0 < s'.scheduler.kept := by
  induction h with
  | nil s => exact hs
  | cons hstep _ ih =>
    obtain ⟨hfirst, hrest⟩ := List.forall_mem_cons.mp hnone
    exact ih (hstep.kept_pos hfirst hs) hrest

/-- A scheduler that has ended, or is to end, was asked to. -/
theorem stopRequested_mem (h : ScheduleRun s events s') (hphase : s.scheduler.phase ≠ .ended)
    (hstopping : s.scheduler.stopping = false)
    (hend : s'.scheduler.phase = .ended ∨ s'.scheduler.stopping = true) :
    ScheduleEvent.stopRequested ∈ events := by
  induction h with
  | nil s => simp [hphase, hstopping] at hend
  | @cons s middle s' e later hstep _ ih =>
    obtain ⟨hasked, hended⟩ := hstep.stopping_cases
    -- A step that is no request leaves the scheduler neither ended nor about to end.
    by_cases he : e = .stopRequested
    · rw [he]
      exact List.mem_cons_self
    · refine List.mem_cons_of_mem _ (ih (fun h => ?_) ?_ hend)
      · exact (hended h).elim hphase (by simp [hstopping])
      · rw [Bool.eq_false_iff]
        exact fun h => (hasked h).elim (by simp [hstopping]) he

theorem fewKept (h : ScheduleRun s events s') (hs : s.FewKept) : s'.FewKept := by
  induction h with
  | nil s => exact hs
  | cons hstep _ ih => exact ih (hstep.fewKept hs)

/-- A scheduler that has ended starts nothing more. -/
theorem of_ended (h : ScheduleRun s events s') (hs : s.scheduler.phase = .ended) :
    s'.scheduler.phase = .ended ∧ s'.scheduler.cycles = s.scheduler.cycles := by
  induction h with
  | nil s => exact ⟨hs, rfl⟩
  | cons hstep _ ih =>
    obtain ⟨hended, hnone⟩ := hstep.of_ended hs
    obtain ⟨hover, hcycles⟩ := ih hended
    refine ⟨hover, ?_⟩
    rw [hcycles, hstep.cycles_eq, hnone]
    rfl

/-- All triggers until a cycle is completed start at most one more. -/
theorem wakes_le {result : Except SyncError SyncReport}
    (h : ScheduleRun s (before ++ .completed result :: later) s') (hs : s.FewKept) :
    later.countP ScheduleEvent.isWake ≤ later.countP ScheduleEvent.isTrigger + 1 := by
  obtain ⟨middle, hbefore, hrest⟩ := h.of_append
  cases hrest with
  | cons hstep hlater =>
    cases hstep with
    | complete _ hphase =>
      have hone := (hbefore.fewKept hs).2 hphase
      have hkept := hlater.triggers_le
      simp only [Scheduler.complete_of_running hphase] at hkept
      omega

/-- Once a waiting scheduler has nothing to start any more, a cycle has started after every
trigger. -/
theorem exists_start_of_not_ready (h : ScheduleRun s (before ++ .triggered :: later) s')
    (hphase : s'.scheduler.phase = .waiting) (hready : ¬ s'.Ready) :
    ∃ e ∈ later, e.isStart = true := by
  by_contra hnone
  simp only [not_exists, not_and, Bool.not_eq_true] at hnone
  obtain ⟨middle, -, hrest⟩ := h.of_append
  cases hrest with
  | @cons _ next _ _ _ hstep hlater =>
    -- The trigger is kept, since a scheduler that has ended does not wait any more.
    have hkept : 0 < next.scheduler.kept := by
      cases hstep with
      | merge _ hkept => exact hkept
      | trigger =>
        refine Scheduler.kept_trigger_pos fun hended => ?_
        have hover := (hlater.of_ended ((Scheduler.trigger_keeps _).1.trans hended)).1
        rw [hphase] at hover
        cases hover
    have hlast := hlater.kept_pos hkept hnone
    exact hready (.inl ⟨_, _, .wake (Scheduler.start?_trigger_eq_some_iff.mpr
      ⟨hphase, hlast, rfl⟩)⟩)

/-- A scheduler that is to end can do so without another cycle. -/
theorem exists_end (s : Timetable) (hstopping : s.scheduler.stopping = true)
    (hphase : s.scheduler.phase ≠ .ended) :
    ∃ events s', ScheduleRun s events s' ∧ s'.scheduler.phase = .ended ∧
      s'.scheduler.cycles = s.scheduler.cycles := by
  have hwaiting (s : Timetable) (hphase : s.scheduler.phase = .waiting)
      (hstopping : s.scheduler.stopping = true) :
      ScheduleStep s .ended { s with scheduler := { s.scheduler with phase := .ended } } :=
    .finish (Scheduler.end?_eq_some_iff.mpr ⟨hphase, hstopping, rfl⟩)
  cases h : s.scheduler.phase with
  | ended => exact absurd h hphase
  | waiting => exact ⟨_, _, .cons (hwaiting s h hstopping) (.nil _), rfl, rfl⟩
  | running =>
    -- The cycle that runs is completed first.
    have hcomplete : ScheduleStep s (.completed (.ok ⟨[], [], none⟩))
        { s with scheduler := { s.scheduler with phase := .waiting } } := by
      rw [← Scheduler.complete_of_running h]
      exact .complete _ h
    exact ⟨_, _, .cons hcomplete (.cons (hwaiting _ rfl hstopping) (.nil _)), rfl, rfl⟩

end ScheduleRun

/-- A scheduler does what is asked of it, one cycle at a time, after some events. -/
structure Timetable.Punctual (interval start : Nat) (events : List ScheduleEvent)
    (s : Timetable) : Prop where
  /-- It counts the cycles it started. -/
  counted : s.scheduler.cycles = events.countP ScheduleEvent.isStart
  /-- At any time no cycle runs, or one. -/
  oneAtATime : ∀ before later, events = before ++ later →
    before.countP ScheduleEvent.isStart ≤ before.countP ScheduleEvent.isCompletion + 1 ∧
      before.countP ScheduleEvent.isCompletion ≤ before.countP ScheduleEvent.isStart
  /-- Every cycle that is not running has come to its end. -/
  completed : events.countP ScheduleEvent.isStart =
    events.countP ScheduleEvent.isCompletion + s.running
  /-- Every cycle has a tick or a trigger. -/
  caused : events.countP ScheduleEvent.isStart =
    events.countP ScheduleEvent.isTick + events.countP ScheduleEvent.isWake
  /-- No two cycles have the same tick. -/
  ticks : 0 < events.countP ScheduleEvent.isTick →
    start + events.countP ScheduleEvent.isTick * interval ≤ s.now + interval
  /-- No two cycles have the same trigger, and those that are kept have started none. -/
  wakes : s.scheduler.kept + events.countP ScheduleEvent.isWake ≤
    events.countP ScheduleEvent.isTrigger
  /-- However many triggers came until a cycle was completed, they start at most one more. -/
  merged : ∀ before result later, events = before ++ .completed result :: later →
    later.countP ScheduleEvent.isWake ≤ later.countP ScheduleEvent.isTrigger + 1
  /-- Once nothing is left to start, a cycle has started after the latest trigger. -/
  answered : s.scheduler.phase = .waiting → ¬ s.Ready →
    ∀ before later, events = before ++ .triggered :: later → ∃ e ∈ later, e.isStart = true
  /-- Whatever a cycle did, the next one starts at the next tick. -/
  unharmed : ∀ result s', ScheduleStep s (.completed result) s' →
    ∀ ms, s'.ticker.due ≤ s'.now + ms → ∃ next,
      ScheduleStep s' (.passed ms) { s' with now := s'.now + ms } ∧
        ScheduleStep { s' with now := s'.now + ms } (.started .tick) next
  /-- It ends when it was asked to and all its cycles are over, and starts none after that. -/
  closed : s.scheduler.phase = .ended → .stopRequested ∈ events ∧
    s.scheduler.cycles = events.countP ScheduleEvent.isCompletion ∧
      ∀ later s', ScheduleRun s later s' → s'.scheduler.cycles = s.scheduler.cycles
  /-- When it was asked to end, it can do so without another cycle. -/
  stoppable : s.scheduler.stopping = true → s.scheduler.phase ≠ .ended →
    ∃ later s', ScheduleRun s later s' ∧ s'.scheduler.phase = .ended ∧
      s'.scheduler.cycles = s.scheduler.cycles

/-- A scheduler with an interval is punctual, whatever happens to it and in whichever order. -/
theorem ScheduleRun.punctual {interval now : Nat} {ticker : Ticker} {s : Timetable}
    {events : List ScheduleEvent} (hticker : Ticker.start? interval now = some ticker)
    (h : ScheduleRun ⟨now, ticker, .fresh⟩ events s) : s.Punctual interval now events := by
  obtain ⟨-, hsome⟩ := Option.ite_none_left_eq_some.mp hticker
  obtain rfl := Option.some.inj hsome
  have hfew : Timetable.FewKept ⟨now, ⟨interval, now⟩, .fresh⟩ := ⟨Nat.zero_le 2, nofun⟩
  have hcycles := h.cycles_eq
  have hturns := h.completed_eq
  rw [show (Timetable.running ⟨now, ⟨interval, now⟩, .fresh⟩) = 0 from rfl, Nat.zero_add]
    at hturns
  rw [show (Scheduler.fresh.cycles) = 0 from rfl, Nat.zero_add] at hcycles
  constructor
  case counted => exact hcycles
  case oneAtATime =>
    rintro before later rfl
    obtain ⟨middle, hbefore, -⟩ := h.of_append
    have hbefore := hbefore.completed_eq
    have hone : middle.running ≤ 1 := by
      unfold Timetable.running
      split <;> decide
    rw [show (Timetable.running ⟨now, ⟨interval, now⟩, .fresh⟩) = 0 from rfl] at hbefore
    omega
  case completed => rw [hturns, Nat.add_comm]
  case caused => exact ScheduleEvent.countP_isStart events
  case ticks => exact h.ticks_le.2.2
  case wakes =>
    have hkept := h.triggers_le
    rwa [show (Scheduler.fresh.kept) = 0 from rfl, Nat.zero_add] at hkept
  case merged =>
    rintro before result later rfl
    exact h.wakes_le hfew
  case answered =>
    rintro hphase hready before later rfl
    exact h.exists_start_of_not_ready hphase hready
  case unharmed =>
    intro result s' hstep ms hdue
    cases hstep with
    | complete _ hphase =>
      rw [Scheduler.complete_of_running hphase] at *
      exact ⟨_, .pass ms, .tick (decide_eq_true hdue)
        (Scheduler.start?_tick_eq_some_iff.mpr ⟨rfl, rfl⟩)⟩
  case closed =>
    intro hended
    refine ⟨h.stopRequested_mem nofun rfl (.inl hended), ?_, fun later s' hlater => ?_⟩
    · rw [hcycles, hturns, Timetable.running, if_neg (by simp [hended]), Nat.zero_add]
    · exact (hlater.of_ended hended).2
  case stoppable => exact ScheduleRun.exists_end s

/-- A scheduler that ticks once, is triggered twice while the cycle runs and asked to end, has a
second cycle for both triggers and then ends. -/
theorem ScheduleRun.punctual_triggeredTwice : ∃ s,
    ScheduleRun ⟨0, ⟨10, 0⟩, .fresh⟩ [.started .tick, .triggered, .triggered, .passed 3,
      .completed (.error .endpointUnconfigured), .started .trigger, .stopRequested,
      .completed (.ok ⟨[⟨1⟩], [], none⟩), .ended] s ∧
      s.scheduler.cycles = 2 ∧ s.Punctual 10 0 [.started .tick, .triggered, .triggered, .passed 3,
        .completed (.error .endpointUnconfigured), .started .trigger, .stopRequested,
        .completed (.ok ⟨[⟨1⟩], [], none⟩), .ended] := by
  have hrun : ScheduleRun ⟨0, ⟨10, 0⟩, .fresh⟩ [.started .tick, .triggered, .triggered, .passed 3,
      .completed (.error .endpointUnconfigured), .started .trigger, .stopRequested,
      .completed (.ok ⟨[⟨1⟩], [], none⟩), .ended] ⟨3, ⟨10, 10⟩, ⟨.ended, 0, true, 2⟩⟩ :=
    .cons (.tick rfl rfl) <| .cons .trigger <| .cons .trigger <| .cons (.pass 3) <|
      .cons (.complete _ rfl) <| .cons (.wake rfl) <| .cons .requestStop <|
        .cons (.complete _ rfl) <| .cons (.finish rfl) <| .nil _
  exact ⟨_, hrun, rfl, hrun.punctual rfl⟩

/-! ### The scheduler of a device -/

namespace DeviceBench

variable {b b' : DeviceBench} {s s' : Timetable} {plan : Schedule}

/-- The scheduler of the device is in some state. A cycle waits for its token only while it runs. -/
structure Shows (b : DeviceBench) (plan : Schedule) (s : Timetable) : Prop where
  plan_eq : b.plan = some plan
  now_eq : b.now = s.now
  ticker_eq : plan.ticker = some s.ticker
  scheduler_eq : plan.scheduler = s.scheduler
  running : plan.cycle.isSome = true → s.scheduler.phase = .running

/-- What happened to the scheduler of the device is a run. -/
def Follows (b : DeviceBench) (s : Timetable) : Prop :=
  ∃ events s' plan, ScheduleRun s events s' ∧ b.Shows plan s'

/-- Whatever the scheduler does next is one step. -/
theorem Shows.stepSchedule (h : b.Shows plan s) (hstep : b.stepSchedule plan = some b') :
    ∃ e s' plan', ScheduleStep s e s' ∧ b'.Shows plan' s' := by
  obtain ⟨now, ticker, scheduler⟩ := s
  obtain ⟨hplan, hnow, hticker, hscheduler, hrunning⟩ := h
  simp only at hnow hticker hscheduler hrunning
  subst hnow hscheduler
  unfold DeviceBench.stepSchedule at hstep
  cases hcycle : plan.cycle with
  | some cycle =>
    have hphase := hrunning (by rw [hcycle]; rfl)
    rw [hcycle] at hstep
    simp only [Option.ite_none_right_eq_some, Option.some.injEq] at hstep
    obtain ⟨-, rfl⟩ := hstep
    exact ⟨_, _, _, .complete (b.sync.cycle cycle.credentials plan.timeoutMs plan.account).1 hphase,
      rfl, rfl, hticker, rfl, nofun⟩
  | none =>
    rw [hcycle, hticker] at hstep
    -- No cycle runs. The end comes before a tick, and a tick before a trigger.
    cases hend : plan.scheduler.end? with
    | some scheduler =>
      rw [hend] at hstep
      obtain rfl := Option.some.inj hstep
      exact ⟨_, _, _, .finish hend, rfl, rfl, rfl, rfl, nofun⟩
    | none =>
      rw [hend] at hstep
      simp only at hstep
      split at hstep
      · rename_i hdue hstart
        obtain ⟨hdue, htick⟩ := Option.filter_eq_some_iff.mp hdue
        obtain rfl := Option.some.inj hdue
        obtain rfl := Option.some.inj hstep
        refine ⟨_, _, _, .tick htick hstart, rfl, rfl, rfl, rfl, fun _ => ?_⟩
        obtain ⟨-, rfl⟩ := Scheduler.start?_tick_eq_some_iff.mp hstart
        rfl
      · split at hstep
        · rename_i hstart
          obtain rfl := Option.some.inj hstep
          refine ⟨_, _, _, .wake hstart, rfl, rfl, rfl, rfl, fun _ => ?_⟩
          obtain ⟨-, -, rfl⟩ := Scheduler.start?_trigger_eq_some_iff.mp hstart
          rfl
        · cases hstep

theorem Shows.follows (h : b.Shows plan s') {events : List ScheduleEvent}
    (hrun : ScheduleRun s events s') : b.Follows s := ⟨events, s', plan, hrun, h⟩

/-- A device that a recorder has changed still has its scheduler. -/
theorem Follows.of_keeps (h : b.Follows s) (hplan : b'.plan = b.plan) (hnow : b'.now = b.now) :
    b'.Follows s := by
  obtain ⟨events, s', plan, hrun, hshows⟩ := h
  exact ⟨events, s', plan, hrun, { hshows with
    plan_eq := hplan.trans hshows.plan_eq, now_eq := hnow.trans hshows.now_eq }⟩

theorem Follows.settle (h : b.Follows s) : b.settle.Follows s := by
  have hloop (fuel : Nat) : ∀ b : DeviceBench, b.Follows s → (settleSchedule fuel b).Follows s := by
    induction fuel with
    | zero => exact fun _ h => h
    | succ fuel ih =>
      intro b h
      obtain ⟨events, s', plan, hrun, hshows⟩ := h
      rw [settleSchedule, hshows.plan_eq, Option.bind_some]
      cases hstep : b.stepSchedule plan with
      | none => exact hshows.follows hrun
      | some b' =>
        obtain ⟨e, s'', plan', hstep, hshows'⟩ := hshows.stepSchedule hstep
        exact ih b' (hshows'.follows (hrun.append (.cons hstep (.nil _))))
  have hkeeps := b.settleCapture_keeps
  exact hloop _ _ (h.of_keeps hkeeps.1 hkeeps.2)

/-- The clock of the device is put forward. -/
theorem Follows.wait (h : b.Follows s) (time : Nat) :
    DeviceBench.Follows { b with now := max b.now time } s := by
  obtain ⟨events, s', plan, hrun, hshows⟩ := h
  have hpass : ScheduleStep s' (.passed (time - s'.now))
      { s' with now := s'.now + (time - s'.now) } := .pass _
  exact ⟨_, _, plan, hrun.append (.cons hpass (.nil _)), { hshows with
    now_eq := by
      show max b.now time = s'.now + (time - s'.now)
      rw [hshows.now_eq]
      omega }⟩

theorem Follows.pass (h : b.Follows s) (ms : Nat) : (b.pass ms).Follows s := by
  have hloop (time fuel : Nat) : ∀ b : DeviceBench, b.Follows s →
      (passUntil time fuel b).Follows s := by
    induction fuel with
    | zero => exact fun _ h => h.wait time
    | succ fuel ih =>
      intro b h
      unfold passUntil
      split
      · split
        · exact ih _ (h.wait _).settle
        · exact h.wait time
      · exact h.wait time
  exact hloop _ _ _ h.settle

theorem Follows.trigger (h : b.Follows s) (times : Nat) : (b.trigger times).2.Follows s := by
  obtain ⟨events, s', plan, hrun, hshows⟩ := h
  have hloop : ∀ (l : List Nat) (events : List ScheduleEvent) (s' : Timetable),
      ScheduleRun s events s' →
      ∃ events', ScheduleRun s events'
        { s' with scheduler := l.foldl (fun s _ => s.trigger) s'.scheduler } ∧
          (l.foldl (fun s _ => s.trigger) s'.scheduler).phase = s'.scheduler.phase := by
    intro l
    induction l with
    | nil => exact fun events s' hrun => ⟨events, hrun, rfl⟩
    | cons _ rest ih =>
      intro events s' hrun
      obtain ⟨events', hrun', hphase⟩ := ih _ _ (hrun.append (.cons .trigger (.nil _)))
      exact ⟨events', hrun', hphase.trans s'.scheduler.trigger_keeps.1⟩
  -- Every trigger is a step of its own.
  obtain ⟨events', hrun', hphase⟩ := hloop (List.range times) _ _ hrun
  unfold DeviceBench.trigger
  rw [hshows.plan_eq]
  exact ⟨events', _, _, hrun', rfl, hshows.now_eq, hshows.ticker_eq,
    by rw [hshows.scheduler_eq], fun hcycle => hphase.trans (hshows.running hcycle)⟩

/-- Whatever is done to a device with a scheduler, the scheduler makes a run. -/
theorem follows_after (b : DeviceBench) {intervalMs : Nat} {ticker : Ticker}
    (hticker : Ticker.start? intervalMs b.now = some ticker) (credentials : Option Credentials)
    (timeoutMs : Nat) (account : String) (moves : List ScheduleMove) :
    ((b.schedule intervalMs credentials timeoutMs account).after moves).Follows
      ⟨b.now, ticker, .fresh⟩ := by
  have hinterval : intervalMs ≠ 0 := (Option.ite_none_left_eq_some.mp hticker).1
  have hstart : (b.schedule intervalMs credentials timeoutMs account).Follows
      ⟨b.now, ticker, .fresh⟩ :=
    ⟨[], _, _, .nil _, rfl, rfl, hticker, if_neg hinterval, nofun⟩
  generalize b.schedule intervalMs credentials timeoutMs account = d at hstart
  induction moves generalizing d with
  | nil => exact hstart
  | cons move rest ih =>
    cases move with
    | pass ms => exact ih _ (hstart.pass ms)
    | trigger times => exact ih _ (hstart.trigger times)

/-- When a scheduler is ended, the answer is how many cycles it started until then. -/
theorem Follows.endSchedule (h : b.Follows s) : ∃ before later s',
    ScheduleRun s (before ++ .stopRequested :: later) s' ∧
      b.endSchedule.1 = some s'.scheduler.cycles := by
  obtain ⟨before, s₁, plan, hrun, hshows⟩ := h
  let stopping : DeviceBench :=
    { b with plan := some { plan with scheduler := plan.scheduler.requestStop } }
  obtain ⟨left, hanswer⟩ : ∃ left, b.endSchedule.1 =
      (stopping.pass left).plan.map fun p => p.scheduler.cycles := by
    unfold DeviceBench.endSchedule
    rw [hshows.plan_eq]
    exact ⟨_, rfl⟩
  -- The request is one step, and time passes until the answer.
  have hstopping : stopping.Follows { s₁ with scheduler := s₁.scheduler.requestStop } :=
    ⟨[], _, _, .nil _, rfl, hshows.now_eq, hshows.ticker_eq,
      congrArg Scheduler.requestStop hshows.scheduler_eq, hshows.running⟩
  obtain ⟨later, s', plan', hlater, hend⟩ := hstopping.pass left
  refine ⟨before, later, s', hrun.append (.cons .requestStop hlater), ?_⟩
  rw [hanswer, hend.plan_eq, Option.map_some, hend.scheduler_eq]

end DeviceBench

end TripRecorder
